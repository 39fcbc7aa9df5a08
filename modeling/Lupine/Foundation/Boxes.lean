import Mathlib.Algebra.Group.Nat.Even
import Mathlib.Data.List.Range
import Mathlib.Tactic.Ring

/-!
# Boxes in a linear memory

A box of bytes is laid out row by row and slice by slice: consecutive rows are `pitch` apart,
consecutive slices `pitch * height`. The offsets of its bytes are pairwise different as soon as a
row fits in the pitch and, when there is more than one slice, the rows fit in the height; they all
lie below the span, which is where the last row of the last slice ends. What the span has besides
the box is padding.

## The rows of the span

Of a valid box the span is made up of whole rows: those of the box, and those that are skipped
before its last one. Only the last row may end before its pitch does. So the span, the offsets and
the padding are all read off a division by the pitch and one by the height.
-/

namespace Foundation

/-- A box of `slices * rows` rows of `width` bytes, with its corner at `(x, y, z)`. -/
structure Box where
  x : ℕ
  y : ℕ
  z : ℕ
  pitch : ℕ
  height : ℕ
  width : ℕ
  rows : ℕ
  slices : ℕ
  deriving DecidableEq, Repr

namespace Box

/-- The offset of byte `i` of row `j` of slice `k`. -/
def offset (b : Box) (k j i : ℕ) : ℕ :=
  (b.z + k) * (b.pitch * b.height) + (b.y + j) * b.pitch + (b.x + i)

/-- A box without bytes. -/
def Empty (b : Box) : Prop := b.width = 0 ∨ b.rows = 0 ∨ b.slices = 0

instance (b : Box) : Decidable b.Empty := inferInstanceAs (Decidable (_ ∨ _))

/-- Where the last row ends; zero for an empty box. -/
def span (b : Box) : ℕ :=
  if b.Empty then 0
  else (b.z + b.slices - 1) * (b.pitch * b.height) + (b.y + b.rows - 1) * b.pitch + b.x + b.width

/-- The box has a byte at this offset. -/
def Contains (b : Box) (o : ℕ) : Prop :=
  ∃ k < b.slices, ∃ j < b.rows, ∃ i < b.width, o = b.offset k j i

instance (b : Box) (o : ℕ) : Decidable (b.Contains o) :=
  inferInstanceAs (Decidable (∃ k < b.slices, ∃ j < b.rows, ∃ i < b.width, o = b.offset k j i))

/-- Rows do not reach into one another, and neither do slices. -/
def Valid (b : Box) : Prop := b.x + b.width ≤ b.pitch ∧ (b.slices ≤ 1 ∨ b.y + b.rows ≤ b.height)

instance (b : Box) : Decidable b.Valid := inferInstanceAs (Decidable (_ ∧ _))

variable {b : Box}

theorem span_of_empty (h : b.Empty) : b.span = 0 := if_pos h

theorem span_of_not_empty (h : ¬ b.Empty) :
    b.span = (b.z + b.slices - 1) * (b.pitch * b.height) + (b.y + b.rows - 1) * b.pitch + b.x
      + b.width := if_neg h

theorem offset_lt_span {k j i : ℕ} (hk : k < b.slices) (hj : j < b.rows) (hi : i < b.width) :
    b.offset k j i < b.span := by
  have hslice : (b.z + k) * (b.pitch * b.height) ≤ (b.z + b.slices - 1) * (b.pitch * b.height) :=
    Nat.mul_le_mul_right _ (by omega)
  have hrow : (b.y + j) * b.pitch ≤ (b.y + b.rows - 1) * b.pitch :=
    Nat.mul_le_mul_right _ (by omega)
  have hne : ¬ b.Empty := by
    rw [Empty]
    omega
  rw [offset, span_of_not_empty hne]
  omega

/-- The rows of padding before the last row: before its slice, between slices, in its slice. -/
def skippedRows (b : Box) : ℕ := b.z * b.height + (b.slices - 1) * (b.height - b.rows) + b.y

/-- The span is made up of the rows of the box and of those that are skipped, whole ones up to the
last. -/
theorem Valid.span_add_pitch (h : b.Valid) (hne : ¬ b.Empty) :
    b.span + b.pitch = b.pitch * b.rows * b.slices + b.skippedRows * b.pitch + (b.x + b.width) := by
  obtain ⟨-, hheight⟩ := h
  simp only [Empty, not_or] at hne
  obtain ⟨hwidth, hrows, hslices⟩ := hne
  obtain ⟨rows, hrows⟩ := Nat.exists_eq_succ_of_ne_zero hrows
  obtain ⟨slices, hslices⟩ := Nat.exists_eq_succ_of_ne_zero hslices
  -- between two slices there are as many rows as a slice has beyond those of the box
  have hgap : slices * b.height = slices * b.rows + slices * (b.height - b.rows) := by
    rcases hheight with hone | hheight
    · obtain rfl : slices = 0 := by omega
      simp only [Nat.zero_mul, Nat.zero_add]
    · rw [← Nat.mul_add, Nat.add_sub_cancel' (by omega)]
  have hspan := span_of_not_empty (b := b) (by simp only [Empty, not_or]; omega)
  rw [hspan, skippedRows, hslices, hrows] at *
  simp only [Nat.succ_eq_add_one, Nat.add_sub_cancel, ← Nat.add_assoc] at *
  calc _ = (b.z * b.height + slices * b.height + b.y + rows + 1) * b.pitch + b.x + b.width := by
        ring
    _ = _ := by rw [hgap]; ring

private theorem eq_of_mul_add_eq {n q q' r r' : ℕ} (hr : r < n) (hr' : r' < n)
    (h : q * n + r = q' * n + r') : q = q' ∧ r = r' := by
  have hq : q = q' := by
    have hdiv := congrArg (· / n) h
    simpa only [Nat.mul_comm _ n, Nat.mul_add_div (by omega : 0 < n), Nat.div_eq_of_lt hr,
      Nat.div_eq_of_lt hr', Nat.add_zero] using hdiv
  exact ⟨hq, by rw [hq] at h; omega⟩

/-- **The bytes of a valid box have different offsets.** -/
theorem Valid.offset_inj (h : b.Valid) {k j i k' j' i' : ℕ}
    (hk : k < b.slices) (hj : j < b.rows) (hi : i < b.width)
    (hk' : k' < b.slices) (hj' : j' < b.rows) (hi' : i' < b.width)
    (heq : b.offset k j i = b.offset k' j' i') : k = k' ∧ j = j' ∧ i = i' := by
  obtain ⟨hpitch, hheight⟩ := h
  -- the column is the remainder by the pitch, the row number over all slices the quotient
  have hsplit : ∀ k j i, b.offset k j i
      = ((b.z + k) * b.height + (b.y + j)) * b.pitch + (b.x + i) := by
    intro k j i
    rw [offset, Nat.add_mul ((b.z + k) * b.height), Nat.mul_assoc _ b.height, Nat.mul_comm b.height]
  rw [hsplit, hsplit] at heq
  obtain ⟨hrows, hcol⟩ := eq_of_mul_add_eq (by omega) (by omega) heq
  rcases hheight with hone | hheight
  · have hkk : k = k' := by omega
    subst hkk
    exact ⟨rfl, by omega, by omega⟩
  · obtain ⟨hslice, hrow⟩ := eq_of_mul_add_eq (by omega) (by omega) hrows
    exact ⟨by omega, by omega, by omega⟩

/-! ## Writing a box

The index of an offset is found by dividing; it inverts the offset on a valid box, so each byte of
the box has its own source. -/

variable {α : Type*}

/-- The slice, row and column of an offset, if the box has a byte there. -/
def index? (b : Box) (o : ℕ) : Option (ℕ × ℕ × ℕ) :=
  (List.range b.slices).findSome? fun k ↦ (List.range b.rows).findSome? fun j ↦
    (List.range b.width).findSome? fun i ↦ if o = b.offset k j i then some (k, j, i) else none

theorem index?_eq_some {o k j i : ℕ} (h : b.index? o = some (k, j, i)) :
    k < b.slices ∧ j < b.rows ∧ i < b.width ∧ o = b.offset k j i := by
  obtain ⟨k', hk', hrows⟩ := List.exists_of_findSome?_eq_some h
  obtain ⟨j', hj', hcols⟩ := List.exists_of_findSome?_eq_some hrows
  obtain ⟨i', hi', hif⟩ := List.exists_of_findSome?_eq_some hcols
  rw [List.mem_range] at hk' hj' hi'
  by_cases ho : o = b.offset k' j' i'
  · rw [if_pos ho, Option.some_inj, Prod.mk.injEq, Prod.mk.injEq] at hif
    obtain ⟨rfl, rfl, rfl⟩ := hif
    exact ⟨hk', hj', hi', ho⟩
  · rw [if_neg ho] at hif
    exact absurd hif (by simp)

theorem index?_eq_none {o : ℕ} (h : ¬ b.Contains o) : b.index? o = none := by
  cases hindex : b.index? o with
  | none => rfl
  | some c =>
    obtain ⟨hk, hj, hi, ho⟩ := index?_eq_some hindex
    exact absurd ⟨c.1, hk, c.2.1, hj, c.2.2, hi, ho⟩ h

theorem Valid.index?_offset (h : b.Valid) {k j i : ℕ} (hk : k < b.slices) (hj : j < b.rows)
    (hi : i < b.width) : b.index? (b.offset k j i) = some (k, j, i) := by
  have hsome : (b.index? (b.offset k j i)).isSome := by
    rw [index?, List.findSome?_isSome_iff]
    refine ⟨k, List.mem_range.mpr hk, ?_⟩
    rw [List.findSome?_isSome_iff]
    refine ⟨j, List.mem_range.mpr hj, ?_⟩
    rw [List.findSome?_isSome_iff]
    exact ⟨i, List.mem_range.mpr hi, by rw [if_pos rfl]; rfl⟩
  obtain ⟨⟨k', j', i'⟩, hindex⟩ := Option.isSome_iff_exists.mp hsome
  obtain ⟨hk', hj', hi', heq⟩ := index?_eq_some hindex
  obtain ⟨rfl, rfl, rfl⟩ := h.offset_inj hk hj hi hk' hj' hi' heq
  exact hindex

/-- Writing the box into a buffer, byte by byte from its source. -/
def scatter (b : Box) (source : ℕ → ℕ → ℕ → α) (buffer : List α) : List α :=
  buffer.mapIdx fun o old ↦ ((b.index? o).map fun c ↦ source c.1 c.2.1 c.2.2).getD old

/-- A buffer after a copy into it: the box holds its source, and nothing else is touched. -/
structure Scattered (b : Box) (source : ℕ → ℕ → ℕ → α) (buffer buffer' : List α) : Prop where
  length_eq : buffer'.length = buffer.length
  inside : ∀ k < b.slices, ∀ j < b.rows, ∀ i < b.width,
    buffer'[b.offset k j i]? = some (source k j i)
  outside : ∀ o, ¬ b.Contains o → buffer'[o]? = buffer[o]?

theorem scattered_of_span_eq_zero (h : b.span = 0) (source : ℕ → ℕ → ℕ → α) (buffer : List α) :
    b.Scattered source buffer buffer where
  length_eq := rfl
  inside k hk j hj i hi := absurd (offset_lt_span hk hj hi) (by omega)
  outside _ _ := rfl

theorem Scattered.congr {source source' : ℕ → ℕ → ℕ → α} {buffer buffer' : List α}
    (h : b.Scattered source buffer buffer')
    (hsource : ∀ k < b.slices, ∀ j < b.rows, ∀ i < b.width, source k j i = source' k j i) :
    b.Scattered source' buffer buffer' where
  length_eq := h.length_eq
  inside k hk j hj i hi := by rw [h.inside k hk j hj i hi, hsource k hk j hj i hi]
  outside := h.outside

theorem Valid.scattered_scatter (h : b.Valid) (source : ℕ → ℕ → ℕ → α) {buffer : List α}
    (hspan : b.span ≤ buffer.length) : b.Scattered source buffer (b.scatter source buffer) where
  length_eq := List.length_mapIdx
  inside k hk j hj i hi := by
    have hlt : b.offset k j i < buffer.length := (offset_lt_span hk hj hi).trans_le hspan
    rw [scatter, List.getElem?_mapIdx, List.getElem?_eq_getElem hlt, h.index?_offset hk hj hi]
    rfl
  outside o ho := by
    rw [scatter, List.getElem?_mapIdx, index?_eq_none ho]
    exact Option.map_id'

end Box

end Foundation
