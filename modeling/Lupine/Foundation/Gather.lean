import Mathlib.Data.List.Basic

/-!
# Loops that append or fail

A loop goes through a list, appends what each element gives to what it has gathered, and gives up at
the first element that fails. It ends well exactly when no element fails.
-/

namespace Foundation

variable {α β ε : Type*}

def gather (body : α → Except ε (List β)) : List α → List β → Except ε (List β)
  | [], gathered => .ok gathered
  | x :: xs, gathered =>
    match body x with
    | .error e => .error e
    | .ok ys => gather body xs (gathered ++ ys)

variable {body : α → Except ε (List β)} {g : α → List β} {xs : List α} {gathered : List β}

theorem gather_eq_ok (h : ∀ x ∈ xs, body x = .ok (g x)) :
    gather body xs gathered = .ok (gathered ++ xs.flatMap g) := by
  induction xs generalizing gathered with
  | nil => rw [gather, List.flatMap_nil, List.append_nil]
  | cons x xs ih =>
    rw [gather, h x List.mem_cons_self, List.flatMap_cons, ← List.append_assoc]
    exact ih fun y hy ↦ h y (List.mem_cons_of_mem x hy)

theorem gather_eq_error (gathered : List β) {x : α} {e : ε} (hx : x ∈ xs)
    (hfails : body x = .error e) :
    ∃ y ∈ xs, ∃ e', body y = .error e' ∧ gather body xs gathered = .error e' := by
  induction xs generalizing gathered with
  | nil => exact nomatch hx
  | cons y xs ih =>
    rw [gather]
    cases hy : body y with
    | error e' => exact ⟨y, List.mem_cons_self, e', hy, rfl⟩
    | ok ys =>
      have hne : x ≠ y := by
        rintro rfl
        rw [hfails] at hy
        exact nomatch hy
      obtain ⟨z, hz, e', hbody, hgather⟩ := ih _ ((List.mem_cons.mp hx).resolve_left hne)
      exact ⟨z, List.mem_cons_of_mem y hz, e', hbody, hgather⟩

end Foundation
