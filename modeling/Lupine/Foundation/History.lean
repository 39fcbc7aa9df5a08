import Mathlib.Data.List.Basic

/-!
# What happened since

A history is the list of the actions that were taken, the oldest in front. The question that comes
up about one is whether an action of some kind was taken and none of another kind has been since.
What is said of every action of a history, and of those before it, goes on to hold when an action is
added if it holds of the new one.
-/

namespace Foundation

variable {α : Type*} {p q : α → Prop} {as : List α} {a : α}

/-- An action of a longer history is the last one or one from before. -/
theorem concat_eq_append_cons {before after : List α} {b : α}
    (h : as ++ [a] = before ++ b :: after) :
    before = as ∧ b = a ∨ ∃ after', as = before ++ b :: after' := by
  rcases List.eq_nil_or_concat after with rfl | ⟨after', z, rfl⟩
  · obtain ⟨has, hb⟩ := List.append_inj' h rfl
    exact Or.inl ⟨has.symm, (List.singleton_inj.mp hb).symm⟩
  · rw [List.concat_eq_append, ← List.cons_append, ← List.append_assoc] at h
    exact Or.inr ⟨after', (List.append_inj' h rfl).1⟩

/-- An action that meets `p` was taken, and after it none that meets `q`. -/
def Since (p q : α → Prop) (as : List α) : Prop :=
  ∃ before a after, as = before ++ a :: after ∧ p a ∧ ∀ b ∈ after, ¬q b

theorem Since.concat (h : Since p q as) (ha : ¬q a) : Since p q (as ++ [a]) := by
  obtain ⟨before, b, after, rfl, hb, hafter⟩ := h
  refine ⟨before, b, after ++ [a], by rw [List.append_assoc, List.cons_append], hb, ?_⟩
  intro c hc
  rcases List.mem_append.mp hc with hc | hc
  · exact hafter c hc
  · rwa [List.mem_singleton.mp hc]

theorem Since.last (as : List α) (ha : p a) : Since p q (as ++ [a]) :=
  ⟨as, a, [], rfl, ha, fun _ hb ↦ nomatch hb⟩

end Foundation
