import Mathlib.Data.List.AList

/-!
# Searches with one match

A search through a collection without an order of its own is well defined when at most one of its
elements matches: whatever order the search meets them in, it finds that one.
-/

namespace Foundation

variable {α κ β : Type*}

theorem find?_eq_some_of_unique {l : List α} {p : α → Bool} {x : α} (hx : x ∈ l) (hp : p x = true)
    (hunique : ∀ y ∈ l, p y = true → y = x) : l.find? p = some x := by
  have hsome : (l.find? p).isSome := List.find?_isSome.mpr ⟨x, hx, hp⟩
  obtain ⟨y, hy⟩ := Option.isSome_iff_exists.mp hsome
  rw [hy, hunique y (List.mem_of_find?_eq_some hy) (List.find?_some hy)]

theorem findIdx?_eq_some_of_unique {l : List α} {p : α → Bool} {i : ℕ} {x : α}
    (hi : l[i]? = some x) (hp : p x = true)
    (hunique : ∀ j y, l[j]? = some y → p y = true → j = i) : l.findIdx? p = some i := by
  have hsome : (l.findIdx? p).isSome := by
    rw [List.findIdx?_isSome, List.any_eq_true]
    exact ⟨x, List.mem_of_getElem? hi, hp⟩
  obtain ⟨j, hj⟩ := Option.isSome_iff_exists.mp hsome
  obtain ⟨hlt, hpj, -⟩ := List.findIdx?_eq_some_iff_getElem.mp hj
  rw [hj, hunique j _ (List.getElem?_eq_getElem hlt) hpj]

/-! ## The entries of a table, in some order -/

/-- The values of a table in the order of some iteration over it. -/
def Iterates (values : List β) (table : AList fun _ : κ ↦ β) : Prop :=
  values.Perm (table.entries.map Sigma.snd)

variable [DecidableEq κ] {values : List β} {table : AList fun _ : κ ↦ β}

theorem Iterates.mem_iff (h : Iterates values table) {x : β} :
    x ∈ values ↔ ∃ k, table.lookup k = some x := by
  rw [List.Perm.mem_iff h, List.mem_map]
  constructor
  · rintro ⟨⟨k, y⟩, hmem, rfl⟩
    exact ⟨k, AList.mem_lookup_iff.mpr hmem⟩
  · rintro ⟨k, hk⟩
    exact ⟨⟨k, x⟩, AList.mem_lookup_iff.mp hk, rfl⟩

/-- **One match.** An iteration that stops at the first match finds the match of a table that has
only one. -/
theorem Iterates.find?_eq_some (h : Iterates values table) {p : β → Bool} {k : κ} {x : β}
    (hk : table.lookup k = some x) (hp : p x = true)
    (hunique : ∀ k' y, table.lookup k' = some y → p y = true → y = x) :
    values.find? p = some x := by
  apply find?_eq_some_of_unique (h.mem_iff.mpr ⟨k, hk⟩) hp
  intro y hy hpy
  obtain ⟨k', hk'⟩ := h.mem_iff.mp hy
  exact hunique k' y hk' hpy

theorem Iterates.find?_eq_none (h : Iterates values table) {p : β → Bool}
    (hnone : ∀ k x, table.lookup k = some x → p x = false) : values.find? p = none := by
  rw [List.find?_eq_none]
  intro x hx hp
  obtain ⟨k, hk⟩ := h.mem_iff.mp hx
  exact Bool.false_ne_true ((hnone k x hk).symm.trans hp)

end Foundation
