import Mathlib.Data.List.Sort
import Mathlib.Data.List.Nodup

/-!
# Runs of numbers

A run is an interval of numbers on a line of its own, and lines are ordered by a key. Runs that are
sorted are merged from the left: a run that begins before the last one ends, or where it ends, makes
the last one longer.

## A list in order

What matters of merged runs are their points, in order and each once. A list in strict order is
given by its members, so this says no more than that the points are those of the runs.
-/

namespace Foundation

variable {κ : Type*}

/-- The numbers from `start` to `stop` on a line. -/
structure Run (κ : Type*) where
  line : κ
  start : ℕ
  stop : ℕ
  deriving DecidableEq

namespace Run

def points (r : Run κ) : List (κ × ℕ) := (List.range' r.start (r.stop - r.start)).map (r.line, ·)

theorem mem_points {r : Run κ} {x : κ × ℕ} :
    x ∈ r.points ↔ x.1 = r.line ∧ r.start ≤ x.2 ∧ x.2 < r.stop := by
  rw [points, List.mem_map]
  constructor
  · rintro ⟨p, hp, rfl⟩
    obtain ⟨hle, hlt⟩ := List.mem_range'_1.mp hp
    exact ⟨rfl, hle, by omega⟩
  · rintro ⟨hline, hle, hlt⟩
    exact ⟨x.2, List.mem_range'_1.mpr ⟨hle, by omega⟩, Prod.ext hline.symm rfl⟩

end Run

/-! ## Order

Points are ordered by line and number. Runs with gaps between them have their points in strict
order. -/

section Order

variable (key : κ → ℕ)

/-- The order of points: by their lines, then along the line. -/
def PointBefore (x y : κ × ℕ) : Prop := key x.1 < key y.1 ∨ (x.1 = y.1 ∧ x.2 < y.2)

/-- One run begins no later than the other. -/
def BeginsBefore (r s : Run κ) : Prop :=
  key r.line < key s.line ∨ (r.line = s.line ∧ r.start ≤ s.start)

/-- There is a gap between one run and the other. -/
def EndsBefore (r s : Run κ) : Prop :=
  key r.line < key s.line ∨ (r.line = s.line ∧ r.stop < s.start)

variable {key} {r s t : Run κ}

theorem PointBefore.irrefl (x : κ × ℕ) : ¬PointBefore key x x := by
  rintro (h | ⟨-, h⟩)
  · exact Nat.lt_irrefl _ h
  · exact Nat.lt_irrefl _ h

theorem PointBefore.asymm {x y : κ × ℕ} (h : PointBefore key x y) : ¬PointBefore key y x := by
  rintro (h' | ⟨hline', h'⟩) <;> rcases h with h | ⟨hline, h⟩
  · exact Nat.lt_asymm h h'
  · exact Nat.lt_irrefl _ (hline ▸ h')
  · exact Nat.lt_irrefl _ (hline' ▸ h)
  · exact Nat.lt_asymm h h'

/-- **A list in strict order** is given by its members. -/
theorem eq_of_pairwise_pointBefore {l l' : List (κ × ℕ)} (hl : l.Pairwise (PointBefore key))
    (hl' : l'.Pairwise (PointBefore key)) (hmem : ∀ x, x ∈ l ↔ x ∈ l') : l = l' := by
  have hnodup : ∀ {l : List (κ × ℕ)}, l.Pairwise (PointBefore key) → l.Nodup := by
    intro l hl
    refine hl.imp fun h heq ↦ ?_
    subst heq
    exact h.irrefl _
  have hperm := (List.perm_ext_iff_of_nodup (hnodup hl) (hnodup hl')).mpr hmem
  exact hperm.eq_of_pairwise (fun x y _ _ h h' ↦ absurd h' h.asymm) hl hl'

/-- A gap after a run that begins before another is a gap before the other. -/
theorem EndsBefore.trans_beginsBefore (h : EndsBefore key r s) (h' : BeginsBefore key s t) :
    EndsBefore key r t := by
  rcases h with h | ⟨hline, h⟩ <;> rcases h' with h' | ⟨hline', h'⟩
  · exact Or.inl (h.trans h')
  · exact Or.inl (hline' ▸ h)
  · exact Or.inl (hline ▸ h')
  · exact Or.inr ⟨hline.trans hline', by omega⟩

theorem pairwise_points {runs : List (Run κ)} (h : runs.Pairwise (EndsBefore key)) :
    (runs.flatMap Run.points).Pairwise (PointBefore key) := by
  refine List.pairwise_flatMap.mpr ⟨fun r _ ↦ ?_, h.imp fun {r s} hrs x hx y hy ↦ ?_⟩
  · refine List.pairwise_map.mpr ?_
    exact (List.pairwise_lt_range' _).imp fun hlt ↦ Or.inr ⟨rfl, hlt⟩
  · obtain ⟨hxline, -, hxstop⟩ := Run.mem_points.mp hx
    obtain ⟨hyline, hystart, -⟩ := Run.mem_points.mp hy
    rw [PointBefore, hxline, hyline]
    rcases hrs with hlt | ⟨hline, hgap⟩
    · exact Or.inl hlt
    · exact Or.inr ⟨hline, by omega⟩

end Order

/-! ## Merging

The runs that are merged are kept with the last one at the front, so that a run that follows only
meets that one. -/

section Merge

variable [DecidableEq κ] {key : κ → ℕ}

/-- One run is merged into those before it, the last of which is at the front. -/
def mergeRun : List (Run κ) → Run κ → List (Run κ)
  | [], r => [r]
  | back :: merged, r =>
    if back.line ≠ r.line ∨ back.stop < r.start then r :: back :: merged
    else { back with stop := max back.stop r.stop } :: merged

def mergeRuns (runs : List (Run κ)) : List (Run κ) := (runs.foldl mergeRun []).reverse

/-- What holds of merged runs, the last of which is at the front, before the runs that follow. -/
structure MergedInv (key : κ → ℕ) (merged rest : List (Run κ)) : Prop where
  apart : merged.Pairwise fun r s ↦ EndsBefore key s r
  nonempty : ∀ r ∈ merged, r.start < r.stop
  begins : ∀ r ∈ merged, ∀ s ∈ rest, BeginsBefore key r s

variable {merged rest : List (Run κ)} {r : Run κ}

theorem MergedInv.mergeRun (h : MergedInv key merged (r :: rest))
    (hsorted : ∀ s ∈ rest, BeginsBefore key r s) (hne : r.start < r.stop) :
    MergedInv key (mergeRun merged r) rest := by
  have hbegins : ∀ t ∈ merged, ∀ s ∈ rest, BeginsBefore key t s :=
    fun t ht s hs ↦ h.begins t ht s (List.mem_cons_of_mem _ hs)
  cases merged with
  | nil =>
    refine ⟨List.pairwise_singleton _ _, ?_, ?_⟩
    · rintro t ht
      rwa [List.mem_singleton.mp ht]
    · rintro t ht
      rwa [List.mem_singleton.mp ht]
  | cons back merged =>
    obtain ⟨hback, hmerged⟩ := List.pairwise_cons.mp h.apart
    have hbackne := h.nonempty back List.mem_cons_self
    have hbackr := h.begins back List.mem_cons_self r List.mem_cons_self
    rw [Foundation.mergeRun]
    split_ifs with hgap
    · -- a gap, or the next line: the earlier runs end before the last one begins
      have hends : EndsBefore key back r := by
        rcases hbackr with hlt | ⟨hline, -⟩
        · exact Or.inl hlt
        · exact Or.inr ⟨hline, hgap.resolve_left (not_not.mpr hline)⟩
      refine ⟨List.pairwise_cons.mpr ⟨?_, h.apart⟩, ?_, ?_⟩
      · refine List.forall_mem_cons.mpr ⟨hends, fun t ht ↦ ?_⟩
        exact (hback t ht).trans_beginsBefore hbackr
      · exact List.forall_mem_cons.mpr ⟨hne, h.nonempty⟩
      · exact List.forall_mem_cons.mpr ⟨hsorted, hbegins⟩
    · -- the last one gets longer, and still begins where it did
      refine ⟨List.pairwise_cons.mpr ⟨fun t ht ↦ hback t ht, hmerged⟩, ?_, ?_⟩
      · refine List.forall_mem_cons.mpr
          ⟨?_, fun t ht ↦ h.nonempty t (List.mem_cons_of_mem _ ht)⟩
        exact lt_of_lt_of_le hbackne (le_max_left _ _)
      · exact List.forall_mem_cons.mpr
          ⟨hbegins back List.mem_cons_self, fun t ht ↦ hbegins t (List.mem_cons_of_mem _ ht)⟩

/-- The points of merged runs with one more run. -/
theorem mem_points_mergeRun (hbegins : ∀ s ∈ merged, BeginsBefore key s r) {x : κ × ℕ} :
    x ∈ (mergeRun merged r).flatMap Run.points ↔ x ∈ merged.flatMap Run.points ∨ x ∈ r.points := by
  cases merged with
  | nil => simp [mergeRun]
  | cons back merged =>
    rw [mergeRun]
    split_ifs with hgap
    · simp only [List.flatMap_cons, List.mem_append]
      exact or_comm
    · obtain ⟨hline, hle⟩ := not_or.mp hgap
      rw [not_not] at hline
      have hstart : back.start ≤ r.start := by
        rcases hbegins back List.mem_cons_self with hlt | ⟨-, hstart⟩
        · exact absurd (hline ▸ hlt) (Nat.lt_irrefl _)
        · exact hstart
      have hpoints : x ∈ ({ back with stop := max back.stop r.stop } : Run κ).points ↔
          x ∈ back.points ∨ x ∈ r.points := by
        simp only [Run.mem_points, ← hline]
        constructor
        · rintro ⟨hx, hlow, hhigh⟩
          rcases Nat.lt_or_ge x.2 back.stop with hlt | hge
          · exact Or.inl ⟨hx, hlow, hlt⟩
          · exact Or.inr ⟨hx, by omega, by omega⟩
        · rintro (⟨hx, hlow, hhigh⟩ | ⟨hx, hlow, hhigh⟩)
          · exact ⟨hx, hlow, by omega⟩
          · exact ⟨hx, by omega, by omega⟩
      simp only [List.flatMap_cons, List.mem_append, hpoints]
      exact or_right_comm

variable {runs : List (Run κ)}

theorem MergedInv.foldl (h : MergedInv key merged rest) (hsorted : rest.Pairwise (BeginsBefore key))
    (hne : ∀ r ∈ rest, r.start < r.stop) :
    MergedInv key (rest.foldl Foundation.mergeRun merged) [] ∧
      ∀ x, x ∈ (rest.foldl Foundation.mergeRun merged).flatMap Run.points ↔
        x ∈ merged.flatMap Run.points ∨ x ∈ rest.flatMap Run.points := by
  induction rest generalizing merged with
  | nil => exact ⟨h, fun x ↦ by simp⟩
  | cons r rest ih =>
    obtain ⟨hr, hrest⟩ := List.pairwise_cons.mp hsorted
    obtain ⟨hrne, hrestne⟩ := List.forall_mem_cons.mp hne
    obtain ⟨hinv, hpoints⟩ := ih (h.mergeRun hr hrne) hrest hrestne
    refine ⟨hinv, fun x ↦ (hpoints x).trans ?_⟩
    rw [mem_points_mergeRun fun s hs ↦ h.begins s hs r List.mem_cons_self, List.flatMap_cons,
      List.mem_append, or_assoc]

/-- **Merged runs** have gaps between them, are not empty, and have the points of the runs. -/
theorem mergeRuns_spec (hsorted : runs.Pairwise (BeginsBefore key))
    (hne : ∀ r ∈ runs, r.start < r.stop) :
    (mergeRuns runs).Pairwise (EndsBefore key) ∧ (∀ r ∈ mergeRuns runs, r.start < r.stop) ∧
      ∀ x, x ∈ (mergeRuns runs).flatMap Run.points ↔ x ∈ runs.flatMap Run.points := by
  have hinit : MergedInv key [] runs := ⟨List.Pairwise.nil, by simp, by simp⟩
  obtain ⟨hinv, hpoints⟩ := hinit.foldl hsorted hne
  refine ⟨List.pairwise_reverse.mpr hinv.apart,
    fun r hr ↦ hinv.nonempty r (List.mem_reverse.mp hr), fun x ↦ ?_⟩
  have hreverse : x ∈ (mergeRuns runs).flatMap Run.points ↔
      x ∈ (runs.foldl mergeRun []).flatMap Run.points := by
    simp only [mergeRuns, List.mem_flatMap, List.mem_reverse]
  rw [hreverse, hpoints]
  exact or_iff_right List.not_mem_nil

end Merge

end Foundation
