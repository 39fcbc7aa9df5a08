import Mathlib.Data.List.Basic

/-!
# Cutting a list into blocks

A payload that is framed block by block is cut from the front: every block is full except possibly
the last. Cutting commutes with concatenation exactly when the first part ends on a block boundary,
which is what lets a reader that consumes whole blocks stop and resume between parts.

An encoder that works block by block is treated as a function of blocks, of which two things are
asked in turn: that it emits something for each, or that it keeps the length of each.
-/

namespace Foundation

variable {α β : Type*}

/-- The consecutive blocks of `n` elements of `l`; the last one may be shorter. A block length of
zero cuts nothing, so that the definition is total. -/
def blocks (n : ℕ) (l : List α) : List (List α) :=
  if _h : n = 0 ∨ l = [] then [] else l.take n :: blocks n (l.drop n)
termination_by l.length
decreasing_by
  have := List.length_pos_iff.mpr (fun hl ↦ _h (Or.inr hl))
  rw [List.length_drop]
  omega

@[simp] theorem blocks_nil (n : ℕ) : blocks n ([] : List α) = [] := by
  rw [blocks, dif_pos (Or.inr rfl)]

theorem blocks_of_ne_nil {n : ℕ} {l : List α} (hn : 0 < n) (hl : l ≠ []) :
    blocks n l = l.take n :: blocks n (l.drop n) := by
  rw [blocks, dif_neg (by rintro (h | h); exacts [Nat.ne_of_gt hn h, hl h])]

/-- Cutting resumes where a whole number of blocks ends. -/
theorem blocks_append {n : ℕ} {l l' : List α} (hn : 0 < n) (hdvd : n ∣ l.length) :
    blocks n (l ++ l') = blocks n l ++ blocks n l' := by
  obtain ⟨k, hk⟩ := hdvd
  induction k generalizing l with
  | zero =>
    have hl : l = [] := List.length_eq_zero_iff.mp (by rw [hk, Nat.mul_zero])
    rw [hl, blocks_nil, List.nil_append, List.nil_append]
  | succ k ih =>
    have hlen : n ≤ l.length := by rw [hk, Nat.mul_succ]; omega
    have hl : l ≠ [] := by rintro rfl; exact absurd hlen (Nat.not_le.mpr hn)
    rw [blocks_of_ne_nil hn (by simp [hl]), blocks_of_ne_nil hn hl,
      List.take_append_of_le_length hlen, List.drop_append_of_le_length hlen,
      ih (by rw [List.length_drop, hk, Nat.mul_succ, Nat.add_sub_cancel]), List.cons_append]

theorem blocks_of_length_le {n : ℕ} {l : List α} (hl : l ≠ []) (hlen : l.length ≤ n) :
    blocks n l = [l] := by
  have hpos : 0 < n := Nat.lt_of_lt_of_le (List.length_pos_iff.mpr hl) hlen
  rw [blocks_of_ne_nil hpos hl, List.take_of_length_le hlen, List.drop_eq_nil_of_le hlen,
    blocks_nil]

/-- What a block-wise encoder emits for a whole list. -/
def encodeBlocks (n : ℕ) (encode : List α → List β) (l : List α) : List β :=
  (blocks n l).flatMap encode

variable {n : ℕ} {encode : List α → List β}

@[simp] theorem encodeBlocks_nil : encodeBlocks n encode [] = [] := by
  rw [encodeBlocks, blocks_nil, List.flatMap_nil]

theorem encodeBlocks_of_ne_nil {l : List α} (hn : 0 < n) (hl : l ≠ []) :
    encodeBlocks n encode l = encode (l.take n) ++ encodeBlocks n encode (l.drop n) := by
  rw [encodeBlocks, blocks_of_ne_nil hn hl, List.flatMap_cons, ← encodeBlocks]

theorem encodeBlocks_append {l l' : List α} (hn : 0 < n) (hdvd : n ∣ l.length) :
    encodeBlocks n encode (l ++ l') = encodeBlocks n encode l ++ encodeBlocks n encode l' := by
  rw [encodeBlocks, blocks_append hn hdvd, List.flatMap_append, ← encodeBlocks, ← encodeBlocks]

theorem encodeBlocks_ne_nil {l : List α} (hn : 0 < n) (hl : l ≠ [])
    (hencode : ∀ b, encode b ≠ []) : encodeBlocks n encode l ≠ [] := by
  rw [encodeBlocks_of_ne_nil hn hl]
  exact List.append_ne_nil_of_left_ne_nil (hencode _) _

/-- Induction block by block. -/
theorem induction_blocks {P : List α → Prop} (hn : 0 < n) (hnil : P [])
    (hblock : ∀ l, l ≠ [] → P (l.drop n) → P l) (l : List α) : P l := by
  induction hlen : l.length using Nat.strongRecOn generalizing l with
  | ind len ih =>
    subst hlen
    rcases eq_or_ne l [] with rfl | hl
    · exact hnil
    · have hshorter : (l.drop n).length < l.length := by
        have hpos := List.length_pos_iff.mpr hl
        rw [List.length_drop]
        omega
      exact hblock l hl (ih _ hshorter (l.drop n) rfl)

section Lengths

variable {encode : List α → List α} (hn : 0 < n) (hlength : ∀ b, (encode b).length = b.length)
include hn hlength

theorem encodeBlocks_eq_self_iff (l : List α) :
    encodeBlocks n encode l = l ↔ ∀ b ∈ blocks n l, encode b = b := by
  induction l using induction_blocks hn with
  | hnil => simp
  | hblock l hl ih =>
    rw [encodeBlocks_of_ne_nil hn hl, blocks_of_ne_nil hn hl, List.forall_mem_cons, ← ih]
    constructor
    · intro h
      exact List.append_inj (h.trans (List.take_append_drop n l).symm) (hlength _)
    · rintro ⟨hfirst, hlast⟩
      rw [hfirst, hlast, List.take_append_drop]

theorem length_encodeBlocks (l : List α) : (encodeBlocks n encode l).length = l.length := by
  induction l using induction_blocks hn with
  | hnil => simp
  | hblock l hl ih =>
    rw [encodeBlocks_of_ne_nil hn hl, List.length_append, hlength, ih, ← List.length_append,
      List.take_append_drop]

end Lengths

end Foundation
