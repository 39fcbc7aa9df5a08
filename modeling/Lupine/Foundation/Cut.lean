import Mathlib.Algebra.GroupWithZero.Nat
import Mathlib.Algebra.BigOperators.Group.List.Basic

/-!
# Lists cut at a mark

A list is cut at the first or at the last occurrence of an element, or at all of them. A cut has
two cases, that the mark is nowhere in the list and that it stands between two parts; one lemma a
cut states both, and all else about the cut is read off it.

## Joining and splitting

Lists joined with a mark between them come apart again as they were just if none of them holds the
mark. The number of the parts already tells: each mark within a list makes one part too many.
-/

namespace Foundation

variable {α β ι : Type*}

/-! ## The first and the last occurrence

The second of two cuts is the first of the reversed list. -/

section Cut

variable [DecidableEq α]

/-- What stands before the first occurrence of the mark, and what after it. -/
def cutFirst (mark : α) : List α → List α × Option (List α)
  | [] => ([], none)
  | a :: rest =>
    if a = mark then ([], some rest) else (a :: (cutFirst mark rest).1, (cutFirst mark rest).2)

/-- What stands before the last occurrence of the mark, and what after it. -/
def cutLast (mark : α) (list : List α) : Option (List α) × List α :=
  ((cutFirst mark list.reverse).2.map List.reverse, (cutFirst mark list.reverse).1.reverse)

theorem cutFirst_append {mark : α} {front : List α} (rest : List α) (h : mark ∉ front) :
    cutFirst mark (front ++ mark :: rest) = (front, some rest) := by
  induction front with
  | nil => exact if_pos rfl
  | cons a front ih =>
    rw [List.mem_cons, not_or] at h
    rw [List.cons_append, cutFirst, if_neg (Ne.symm h.1), ih h.2]

theorem cutFirst_of_notMem {mark : α} {list : List α} (h : mark ∉ list) :
    cutFirst mark list = (list, none) := by
  induction list with
  | nil => rfl
  | cons a rest ih =>
    rw [List.mem_cons, not_or] at h
    rw [cutFirst, if_neg (Ne.symm h.1), ih h.2]

/-- A list without the mark is all that stands before it; any other is cut where it is first. -/
theorem cutFirst_cases (mark : α) (list : List α) :
    mark ∉ list ∧ cutFirst mark list = (list, none) ∨
      ∃ front rest, list = front ++ mark :: rest ∧ mark ∉ front ∧
        cutFirst mark list = (front, some rest) := by
  rcases Decidable.em (mark ∈ list) with h | h
  · obtain ⟨front, rest, rfl, hfront⟩ := List.eq_append_cons_of_mem h
    exact Or.inr ⟨front, rest, rfl, hfront, cutFirst_append rest hfront⟩
  · exact Or.inl ⟨h, cutFirst_of_notMem h⟩

theorem notMem_cutFirst (mark : α) (list : List α) : mark ∉ (cutFirst mark list).1 := by
  rcases cutFirst_cases mark list with ⟨h, hcut⟩ | ⟨_, _, _, h, hcut⟩ <;> rwa [hcut]

theorem cutFirst_sublist (mark : α) (list : List α) :
    ((cutFirst mark list).1 ++ (cutFirst mark list).2.getD []).Sublist list := by
  rcases cutFirst_cases mark list with ⟨_, hcut⟩ | ⟨front, rest, rfl, _, hcut⟩
  · rw [hcut, Option.getD_none, List.append_nil]
  · rw [hcut, Option.getD_some]
    exact (List.sublist_cons_self mark rest).append_left front

theorem cutLast_append {mark : α} (front : List α) {rest : List α} (h : mark ∉ rest) :
    cutLast mark (front ++ mark :: rest) = (some front, rest) := by
  have hcut : cutFirst mark (front ++ mark :: rest).reverse =
      (rest.reverse, some front.reverse) := by
    rw [List.reverse_append, List.reverse_cons, List.append_assoc, List.singleton_append]
    exact cutFirst_append _ (mt List.mem_reverse.mp h)
  rw [cutLast, hcut, Option.map_some, List.reverse_reverse, List.reverse_reverse]

theorem cutLast_of_notMem {mark : α} {list : List α} (h : mark ∉ list) :
    cutLast mark list = (none, list) := by
  rw [cutLast, cutFirst_of_notMem (mt List.mem_reverse.mp h), Option.map_none, List.reverse_reverse]

theorem cutLast_cases (mark : α) (list : List α) :
    mark ∉ list ∧ cutLast mark list = (none, list) ∨
      ∃ front rest, list = front ++ mark :: rest ∧ mark ∉ rest ∧
        cutLast mark list = (some front, rest) := by
  rcases Decidable.em (mark ∈ list) with h | h
  · obtain ⟨rest, front, hreverse, hrest⟩ := List.eq_append_cons_of_mem (List.mem_reverse.mpr h)
    have hlist : list = front.reverse ++ mark :: rest.reverse := by
      rw [← List.reverse_reverse list, hreverse, List.reverse_append, List.reverse_cons,
        List.append_assoc, List.singleton_append]
    have hrest : mark ∉ rest.reverse := mt List.mem_reverse.mp hrest
    exact Or.inr ⟨_, _, hlist, hrest, hlist ▸ cutLast_append _ hrest⟩
  · exact Or.inl ⟨h, cutLast_of_notMem h⟩

theorem notMem_cutLast (mark : α) (list : List α) : mark ∉ (cutLast mark list).2 := by
  rcases cutLast_cases mark list with ⟨h, hcut⟩ | ⟨_, _, _, h, hcut⟩ <;> rwa [hcut]

theorem cutLast_sublist (mark : α) (list : List α) : (cutLast mark list).2.Sublist list := by
  rcases cutLast_cases mark list with ⟨_, hcut⟩ | ⟨front, rest, rfl, _, hcut⟩
  · rw [hcut]
  · rw [hcut]
    exact (List.sublist_cons_self mark rest).trans (List.sublist_append_right front _)

end Cut

/-! ## All occurrences

As many parts as were joined means that none of them holds the mark. -/

section Split

variable [DecidableEq α]

theorem length_splitOn (mark : α) (list : List α) :
    (list.splitOn mark).length = list.count mark + 1 := by
  induction list with
  | nil => rfl
  | cons a rest ih =>
    rw [List.splitOn_cons_eq_if_modifyHead]
    split_ifs with h
    · rw [List.length_cons, ih, eq_of_beq h, List.count_cons_self]
    · rw [List.length_modifyHead, ih, List.count_cons, if_neg h, Nat.add_zero]

theorem count_intercalate (mark : α) {lists : List (List α)} (h : lists ≠ []) :
    ([mark].intercalate lists).count mark + 1 =
      lists.length + (lists.map (List.count mark)).sum := by
  induction lists with
  | nil => exact absurd rfl h
  | cons list lists ih =>
    rcases eq_or_ne lists [] with hnil | hne
    · rw [hnil, List.intercalate_singleton, List.map_singleton, List.sum_singleton,
        List.length_singleton, Nat.add_comm]
    · have hrest := ih hne
      rw [List.intercalate_cons_of_ne_nil hne, List.count_append, List.count_append,
        List.count_singleton_self, List.map_cons, List.sum_cons, List.length_cons]
      omega

/-- **Coming apart again.** As many parts as were joined means that none of them holds the mark. -/
theorem notMem_of_length_splitOn {mark : α} {lists : List (List α)} (hne : lists ≠ [])
    (h : (([mark].intercalate lists).splitOn mark).length = lists.length) :
    ∀ list ∈ lists, mark ∉ list := by
  have hcount := count_intercalate mark hne
  rw [length_splitOn] at h
  have hsum : (lists.map (List.count mark)).sum = 0 := by omega
  have hzero := List.sum_eq_zero_iff_forall_eq_nat.mp hsum
  intro list hlist
  exact List.count_eq_zero.mp (hzero _ (List.mem_map_of_mem hlist))

end Split

/-- A list read in full, entry by entry, is read as it is meant just if every entry is. -/
theorem filterMap_eq_map_iff {read : ι → Option β} {meant : ι → β} {entries : List ι} :
    entries.filterMap read = entries.map meant ↔
      ∀ entry ∈ entries, read entry = some (meant entry) := by
  induction entries with
  | nil => simp
  | cons entry entries ih =>
    rw [List.forall_mem_cons, List.map_cons]
    rcases hread : read entry with _ | value
    · rw [List.filterMap_cons_none hread]
      refine ⟨fun h ↦ ?_, fun h ↦ (nomatch h.1)⟩
      have hle := List.length_filterMap_le read entries
      rw [h, List.length_cons, List.length_map] at hle
      exact absurd hle (by omega)
    · rw [List.filterMap_cons_some hread, List.cons.injEq, ih, Option.some_inj]

theorem forall_mem_of_mapM {read : ι → Option β} {entries : List ι} {values : List β}
    {P : β → Prop} {Q : ι → Prop} (h : entries.mapM read = some values)
    (hread : ∀ entry value, read entry = some value → (P value ↔ Q entry)) :
    (∀ value ∈ values, P value) ↔ ∀ entry ∈ entries, Q entry := by
  induction entries generalizing values with
  | nil =>
    obtain rfl : [] = values := Option.some_inj.mp h
    simp
  | cons entry entries ih =>
    rw [List.mapM_cons] at h
    obtain ⟨value, hvalue, h⟩ := Option.bind_eq_some_iff.mp h
    obtain ⟨rest, hrest, h⟩ := Option.bind_eq_some_iff.mp h
    obtain rfl : value :: rest = values := Option.some_inj.mp h
    rw [List.forall_mem_cons, List.forall_mem_cons, hread entry value hvalue, ih hrest]

end Foundation
