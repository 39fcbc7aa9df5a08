import Mathlib.Data.List.Pairwise
import Mathlib.Order.Lattice

/-!
# Tables in the order of their keys

A table that keeps its entries in the order of their keys can be asked for the entry at a key, for
the first entry after a key, and for the last entry that is not after it.

The three questions are answered by the list of entries in order, so what is found is characterized
by two facts: it is in the table, and its key is the one, the least or the greatest of its kind. The
three operations that change a table are known by the entries that it then has.
-/

namespace Foundation

/-- Entries with distinct keys, the least in front. -/
structure OrderedTable (κ β : Type*) [LinearOrder κ] where
  entries : List (κ × β) := []
  sorted : entries.Pairwise fun e e' ↦ e.1 < e'.1 := by exact List.Pairwise.nil

namespace OrderedTable

variable {κ β : Type*} [LinearOrder κ] (table : OrderedTable κ β) (k : κ)

def find? : Option (κ × β) := table.entries.find? fun e ↦ e.1 = k

def upper? : Option (κ × β) := table.entries.find? fun e ↦ k < e.1

/-- The last entry that is not after a key. -/
def prev? : Option (κ × β) := (table.entries.filter fun e ↦ e.1 ≤ k).getLast?

def insert (x : β) : OrderedTable κ β where
  entries := (table.entries.filter fun e ↦ e.1 < k) ++
    (k, x) :: table.entries.filter fun e ↦ k < e.1
  sorted := by
    refine List.pairwise_append.mpr ⟨table.sorted.filter _, ?_, ?_⟩
    · refine List.pairwise_cons.mpr ⟨fun e he ↦ ?_, table.sorted.filter _⟩
      exact of_decide_eq_true (List.mem_filter.mp he).2
    · intro e he e' he'
      have hlt : e.1 < k := of_decide_eq_true (List.mem_filter.mp he).2
      rcases List.mem_cons.mp he' with rfl | he'
      · exact hlt
      · exact hlt.trans (of_decide_eq_true (List.mem_filter.mp he').2)

def erase : OrderedTable κ β where
  entries := table.entries.filter fun e ↦ e.1 ≠ k
  sorted := table.sorted.filter _

def modify (f : β → β) : OrderedTable κ β where
  entries := table.entries.map fun e ↦ if e.1 = k then (e.1, f e.2) else e
  sorted := by
    refine List.pairwise_map.mpr (table.sorted.imp fun {e e'} hlt ↦ ?_)
    have hkey : ∀ e : κ × β, (if e.1 = k then (e.1, f e.2) else e).1 = e.1 := by
      intro e
      split_ifs <;> rfl
    rwa [hkey, hkey]

variable {table k} {e e' : κ × β} {x : β}

/-- Entries go by their keys. -/
theorem eq_of_key (he : e ∈ table.entries) (he' : e' ∈ table.entries) (hkey : e.1 = e'.1) :
    e = e' := by
  by_contra hne
  have hapart : table.entries.Pairwise fun e e' ↦ e.1 ≠ e'.1 := table.sorted.imp ne_of_lt
  have hsymm : Std.Symm fun e e' : κ × β ↦ e.1 ≠ e'.1 := ⟨fun _ _ ↦ Ne.symm⟩
  exact hapart.forall he he' hne hkey

theorem find?_eq_some : table.find? k = some e ↔ e ∈ table.entries ∧ e.1 = k := by
  constructor
  · intro h
    exact ⟨List.mem_of_find?_eq_some h,
      of_decide_eq_true (List.find?_some (p := fun e : κ × β ↦ decide (e.1 = k)) h)⟩
  · rintro ⟨he, rfl⟩
    have hsome : (table.entries.find? fun e' ↦ decide (e'.1 = e.1)).isSome :=
      List.find?_isSome.mpr ⟨e, he, decide_eq_true rfl⟩
    obtain ⟨e', he'⟩ := Option.isSome_iff_exists.mp hsome
    have hkey := of_decide_eq_true (List.find?_some (p := fun e' : κ × β ↦ decide (e'.1 = e.1)) he')
    exact he'.trans (congrArg some (eq_of_key (List.mem_of_find?_eq_some he') he hkey))

theorem find?_eq_none : table.find? k = none ↔ ∀ e ∈ table.entries, e.1 ≠ k := by
  rw [find?, List.find?_eq_none]
  exact forall₂_congr fun e _ ↦ not_congr decide_eq_true_iff

theorem of_upper?_eq_some (h : table.upper? k = some e) :
    e ∈ table.entries ∧ k < e.1 ∧ ∀ e' ∈ table.entries, k < e'.1 → e.1 ≤ e'.1 := by
  obtain ⟨hk, before, after, heq, hbefore⟩ := List.find?_eq_some_iff_append.mp h
  refine ⟨List.mem_of_find?_eq_some h, of_decide_eq_true hk, fun e' he' hlt ↦ ?_⟩
  have hsorted := table.sorted
  rw [heq] at he' hsorted
  rcases List.mem_append.mp he' with he' | he'
  · have hnot := hbefore e' he'
    rw [Bool.not_eq_true', decide_eq_false_iff_not] at hnot
    exact absurd hlt hnot
  · rcases List.mem_cons.mp he' with rfl | he'
    · exact le_rfl
    · exact (List.rel_of_pairwise_cons (List.pairwise_append.mp hsorted).2.1 he').le

theorem upper?_eq_none : table.upper? k = none ↔ ∀ e ∈ table.entries, e.1 ≤ k := by
  rw [upper?, List.find?_eq_none]
  exact forall₂_congr fun e _ ↦ by rw [decide_eq_true_iff, not_lt]

theorem of_prev?_eq_some (h : table.prev? k = some e) :
    e ∈ table.entries ∧ e.1 ≤ k ∧ ∀ e' ∈ table.entries, e'.1 ≤ k → e'.1 ≤ e.1 := by
  obtain ⟨before, heq⟩ := List.getLast?_eq_some_iff.mp h
  have hmem : ∀ e', e' ∈ before ++ [e] ↔ e' ∈ table.entries ∧ e'.1 ≤ k := by
    intro e'
    rw [← heq, List.mem_filter, decide_eq_true_iff]
  have hsorted := table.sorted.filter fun e' ↦ decide (e'.1 ≤ k)
  rw [heq] at hsorted
  obtain ⟨he, hle⟩ := (hmem e).mp (List.mem_append_right _ (List.mem_singleton_self e))
  refine ⟨he, hle, fun e' he' hle' ↦ ?_⟩
  rcases List.mem_append.mp ((hmem e').mpr ⟨he', hle'⟩) with hin | hlast
  · exact ((List.pairwise_append.mp hsorted).2.2 e' hin e (List.mem_singleton_self e)).le
  · rw [List.mem_singleton.mp hlast]

theorem prev?_eq_none : table.prev? k = none ↔ ∀ e ∈ table.entries, k < e.1 := by
  rw [prev?, List.getLast?_eq_none_iff, List.filter_eq_nil_iff]
  exact forall₂_congr fun e _ ↦ by rw [decide_eq_true_iff, not_le]

theorem mem_insert : e ∈ (table.insert k x).entries ↔
    e = (k, x) ∨ e ∈ table.entries ∧ e.1 ≠ k := by
  simp only [insert, List.mem_append, List.mem_cons, List.mem_filter, decide_eq_true_iff,
    ne_iff_lt_or_gt]
  rw [or_left_comm, and_or_left]

theorem mem_erase : e ∈ (table.erase k).entries ↔ e ∈ table.entries ∧ e.1 ≠ k := by
  rw [erase, List.mem_filter, decide_eq_true_iff]

theorem mem_modify {f : β → β} : e ∈ (table.modify k f).entries ↔
    ∃ e' ∈ table.entries, e = (e'.1, if e'.1 = k then f e'.2 else e'.2) := by
  rw [modify, List.mem_map]
  refine exists_congr fun e' ↦ and_congr_right fun _ ↦ ?_
  split_ifs <;> exact eq_comm

end OrderedTable

end Foundation
