import Mathlib.Data.List.Basic
import Mathlib.Data.List.Induction

/-!
# Patching a memory

A memory is a function from addresses. A patch stores a run of values from an address on, and a list
of patches is applied from the front. What an address holds afterwards depends on one patch only,
the last one that has a value for it; so two orders of the same patches agree wherever they agree on
that value, and need not agree elsewhere.
-/

namespace Foundation

/-- A memory with addresses in `ℕ`. -/
abbrev Memory (α : Type*) := ℕ → α

/-- A run of values, from an address on. -/
structure Patch (α : Type*) where
  start : ℕ
  data : List α
  deriving DecidableEq, Repr

variable {α : Type*}

namespace Patch

/-- The value a patch has for an address, if it covers it. -/
def get? (p : Patch α) (x : ℕ) : Option α := if p.start ≤ x then p.data[x - p.start]? else none

/-- A patch covers the addresses it has a value for. -/
def Covers (p : Patch α) (x : ℕ) : Prop := p.start ≤ x ∧ x < p.start + p.data.length

instance (p : Patch α) (x : ℕ) : Decidable (p.Covers x) := inferInstanceAs (Decidable (_ ∧ _))

theorem get?_isSome_iff {p : Patch α} {x : ℕ} : (p.get? x).isSome ↔ p.Covers x := by
  rw [get?, Covers]
  split_ifs with h
  · rw [isSome_getElem?, and_iff_right h]
    omega
  · simp [h]

theorem get?_eq_none_iff {p : Patch α} {x : ℕ} : p.get? x = none ↔ ¬ p.Covers x := by
  rw [← get?_isSome_iff, Option.not_isSome_iff_eq_none]

def apply (mem : Memory α) (p : Patch α) : Memory α := fun x ↦ (p.get? x).getD (mem x)

theorem apply_nil (mem : Memory α) (start : ℕ) : apply mem ⟨start, []⟩ = mem := by
  funext x
  have hnone : get? (⟨start, []⟩ : Patch α) x = none := by
    rw [get?_eq_none_iff, Covers, List.length_nil]
    omega
  rw [apply, hnone]
  rfl

end Patch

/-! ## Reading a run of values

A patch reads back, and what it does not cover reads as before. -/

/-- The values at the addresses from `start` on. -/
def readRun (mem : Memory α) (start n : ℕ) : List α := (List.range n).map fun i ↦ mem (start + i)

@[simp] theorem length_readRun (mem : Memory α) (start n : ℕ) :
    (readRun mem start n).length = n := by
  rw [readRun, List.length_map, List.length_range]

theorem getElem?_readRun {mem : Memory α} {start n i : ℕ} (h : i < n) :
    (readRun mem start n)[i]? = some (mem (start + i)) := by
  rw [readRun, List.getElem?_map, List.getElem?_range h]
  rfl

theorem readRun_add (mem : Memory α) (start m n : ℕ) :
    readRun mem start (m + n) = readRun mem start m ++ readRun mem (start + m) n := by
  rw [readRun, List.range_add, List.map_append, List.map_map, readRun, readRun]
  congr 2
  funext i
  exact congrArg mem (Nat.add_assoc _ _ _).symm

theorem readRun_congr {mem mem' : Memory α} {start n : ℕ}
    (h : ∀ i < n, mem (start + i) = mem' (start + i)) :
    readRun mem start n = readRun mem' start n :=
  List.map_congr_left fun i hi ↦ h i (List.mem_range.mp hi)

theorem drop_readRun (mem : Memory α) (start k n : ℕ) :
    (readRun mem start n).drop k = readRun mem (start + min k n) (n - min k n) := by
  have hsplit := readRun_add mem start (min k n) (n - min k n)
  rw [Nat.add_sub_cancel' (Nat.min_le_right k n)] at hsplit
  rcases Nat.le_total k n with h | h
  · rw [Nat.min_eq_left h] at hsplit ⊢
    rw [hsplit, List.drop_left' (length_readRun mem start k)]
  · rw [Nat.min_eq_right h, Nat.sub_self, List.drop_eq_nil_of_le (by rwa [length_readRun])]
    rfl

theorem take_readRun (mem : Memory α) (start k n : ℕ) :
    (readRun mem start n).take k = readRun mem start (min k n) := by
  rw [readRun, ← List.map_take, List.take_range, readRun]

theorem readRun_apply (mem : Memory α) (p : Patch α) :
    readRun (Patch.apply mem p) p.start p.data.length = p.data := by
  refine List.ext_getElem? fun i ↦ ?_
  rcases Nat.lt_or_ge i p.data.length with h | h
  · rw [getElem?_readRun h, Patch.apply, Patch.get?, if_pos (Nat.le_add_right _ _),
      Nat.add_sub_cancel_left, List.getElem?_eq_getElem h]
    rfl
  · rw [List.getElem?_eq_none h, List.getElem?_eq_none (by rwa [length_readRun])]

theorem readRun_apply_of_not_covers {mem : Memory α} {p : Patch α} {start n : ℕ}
    (h : ∀ i < n, ¬ p.Covers (start + i)) :
    readRun (Patch.apply mem p) start n = readRun mem start n :=
  readRun_congr fun i hi ↦ by rw [Patch.apply, Patch.get?_eq_none_iff.mpr (h i hi)]; rfl

theorem readRun_apply_append (mem : Memory α) (start n : ℕ) (data : List α) :
    readRun (Patch.apply mem ⟨start + n, data⟩) start (n + data.length) =
      readRun mem start n ++ data := by
  have hbefore : ∀ i < n, ¬ (⟨start + n, data⟩ : Patch α).Covers (start + i) := by
    intro i hi hcovers
    have hle : start + n ≤ start + i := hcovers.1
    omega
  rw [readRun_add, readRun_apply_of_not_covers hbefore]
  exact congrArg _ (readRun_apply mem ⟨start + n, data⟩)

/-! ## Lists of patches

Patches that agree on an address, one by one, agree on its last value. -/

def applyPatches (mem : Memory α) (ps : List (Patch α)) : Memory α := ps.foldl Patch.apply mem

def lastValue (ps : List (Patch α)) (x : ℕ) : Option α := ps.reverse.findSome? fun p ↦ p.get? x

@[simp] theorem applyPatches_nil (mem : Memory α) : applyPatches mem [] = mem := rfl

theorem applyPatches_append (mem : Memory α) (ps qs : List (Patch α)) :
    applyPatches mem (ps ++ qs) = applyPatches (applyPatches mem ps) qs :=
  List.foldl_append

theorem lastValue_append (ps qs : List (Patch α)) (x : ℕ) :
    lastValue (ps ++ qs) x = (lastValue qs x).or (lastValue ps x) := by
  rw [lastValue, List.reverse_append, List.findSome?_append]
  rfl

theorem lastValue_singleton (p : Patch α) (x : ℕ) : lastValue [p] x = p.get? x := by
  rw [lastValue, List.reverse_singleton, List.findSome?_singleton]

theorem lastValue_eq_none_iff {ps : List (Patch α)} {x : ℕ} :
    lastValue ps x = none ↔ ∀ p ∈ ps, ¬ p.Covers x := by
  simp only [lastValue, List.findSome?_eq_none_iff, List.mem_reverse, Patch.get?_eq_none_iff]

theorem lastValue_map_congr {β : Type*} {l : List β} {f g : β → Patch α} {x : ℕ}
    (h : ∀ b ∈ l, (f b).get? x = (g b).get? x) : lastValue (l.map f) x = lastValue (l.map g) x := by
  induction l using List.reverseRecOn with
  | nil => rfl
  | append_singleton l b ih =>
    have hlast := h b (List.mem_append_right l (List.mem_singleton_self b))
    have hfirst := ih fun b' hb' ↦ h b' (List.mem_append_left _ hb')
    simp only [List.map_append, List.map_singleton, lastValue_append, lastValue_singleton, hlast,
      hfirst]

/-- **The last value decides.** -/
theorem applyPatches_apply (mem : Memory α) (ps : List (Patch α)) (x : ℕ) :
    applyPatches mem ps x = (lastValue ps x).getD (mem x) := by
  induction ps using List.reverseRecOn with
  | nil => rfl
  | append_singleton ps p ih =>
    rw [applyPatches_append, lastValue_append, lastValue_singleton]
    show (p.get? x).getD (applyPatches mem ps x) = _
    rw [ih]
    cases p.get? x <;> rfl

/-- A value nothing later covers is the last one. -/
theorem lastValue_of_split {pre post : List (Patch α)} {p : Patch α} {x : ℕ} {v : α}
    (hp : p.get? x = some v) (hpost : ∀ q ∈ post, ¬ q.Covers x) :
    lastValue (pre ++ p :: post) x = some v := by
  rw [lastValue_append, ← List.singleton_append, lastValue_append, lastValue_singleton,
    lastValue_eq_none_iff.mpr hpost, hp]
  rfl

end Foundation
