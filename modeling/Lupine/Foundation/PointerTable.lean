import Mathlib.Data.List.AList
import Mathlib.Logic.Function.Basic

/-!
# Tables of pointers

Several tables share mutable objects by pointer: which table holds an object is not written in the
object. The objects live in a heap that never frees, and a pointer the heap has not handed out yet
is in no table as long as every table stays below the next one.

The lemmas are about one object or one entry at a time: an object that is new, or changed in place,
and an entry that is made, made only where there is none, or erased.
-/

namespace Foundation

/-! ## The heap

A change in place is not seen by a property of objects that it leaves alone. -/

/-- Objects by address. Zero is never handed out. -/
structure Heap (α : Type*) where
  next : ℕ := 1
  next_pos : 0 < next := by decide
  get : ℕ → α

namespace Heap

variable {α : Type*}

/-- A new object, at `next`. -/
def alloc (heap : Heap α) (x : α) : Heap α where
  next := heap.next + 1
  next_pos := Nat.succ_pos _
  get := Function.update heap.get heap.next x

def modify (heap : Heap α) (p : ℕ) (f : α → α) : Heap α :=
  { heap with get := Function.update heap.get p (f (heap.get p)) }

@[simp] theorem next_modify (heap : Heap α) (p : ℕ) (f : α → α) :
    (heap.modify p f).next = heap.next := rfl

@[simp] theorem get_alloc_next (heap : Heap α) (x : α) : (heap.alloc x).get heap.next = x :=
  Function.update_self _ _ _

theorem get_alloc_of_lt {heap : Heap α} {p : ℕ} (h : p < heap.next) (x : α) :
    (heap.alloc x).get p = heap.get p :=
  Function.update_of_ne (Nat.ne_of_lt h) _ _

@[simp] theorem get_modify_self (heap : Heap α) (p : ℕ) (f : α → α) :
    (heap.modify p f).get p = f (heap.get p) :=
  Function.update_self _ _ _

theorem get_modify_of_ne {heap : Heap α} {p q : ℕ} (h : q ≠ p) (f : α → α) :
    (heap.modify p f).get q = heap.get q :=
  Function.update_of_ne h _ _

theorem map_get_modify {β : Type*} {view : α → β} {f : α → α} (h : ∀ x, view (f x) = view x)
    (heap : Heap α) (p q : ℕ) : view ((heap.modify p f).get q) = view (heap.get q) := by
  rcases eq_or_ne q p with rfl | hne
  · rw [get_modify_self, h]
  · rw [get_modify_of_ne hne]

end Heap

/-! ## The tables

A table may have several entries for one object. -/

section Table

variable {κ β : Type*} [DecidableEq κ] {table : AList fun _ : κ ↦ β} {k k' : κ} {x y : β}

theorem lookup_insert_eq_some :
    (table.insert k x).lookup k' = some y ↔ k' = k ∧ x = y ∨ k' ≠ k ∧ table.lookup k' = some y := by
  rcases eq_or_ne k' k with rfl | hne
  · rw [AList.lookup_insert]
    simp
  · rw [AList.lookup_insert_ne hne]
    simp [hne]

theorem lookup_erase_eq_some :
    (table.erase k).lookup k' = some y ↔ k' ≠ k ∧ table.lookup k' = some y := by
  rcases eq_or_ne k' k with rfl | hne
  · rw [AList.lookup_erase]
    simp
  · rw [AList.lookup_erase_ne hne]
    simp [hne]

theorem mem_keys_of_lookup (h : table.lookup k = some x) : k ∈ table.keys := by
  rw [← AList.mem_keys, ← AList.lookup_isSome, h]
  rfl

end Table

/-- A table from keys to pointers. -/
abbrev PointerTable (κ : Type*) := AList fun _ : κ ↦ ℕ

namespace PointerTable

variable {α κ : Type*} [DecidableEq κ] {table : PointerTable κ} {heap : Heap α} {k k' : κ} {p q : ℕ}

def holders (table : PointerTable κ) (p : ℕ) : List κ :=
  table.keys.filter fun k ↦ table.lookup k = some p

theorem mem_holders : k ∈ table.holders p ↔ table.lookup k = some p := by
  rw [holders, List.mem_filter, decide_eq_true_iff, and_iff_right_iff_imp, ← AList.mem_keys,
    ← AList.lookup_isSome]
  intro h
  rw [h, Option.isSome_some]

theorem holders_eq_nil_iff : table.holders p = [] ↔ ∀ k, table.lookup k ≠ some p := by
  rw [List.eq_nil_iff_forall_not_mem]
  exact forall_congr' fun k ↦ not_congr mem_holders

/-- An entry that is only made where there is none. -/
def insertNew (table : PointerTable κ) (k : κ) (p : ℕ) : PointerTable κ :=
  if (table.lookup k).isSome then table else table.insert k p

theorem lookup_insertNew_eq_some :
    (table.insertNew k p).lookup k' = some q ↔
      table.lookup k' = some q ∨ k' = k ∧ table.lookup k = none ∧ p = q := by
  rw [insertNew]
  cases hk : table.lookup k with
  | some r => simp
  | none =>
    rw [Option.isSome_none, if_neg Bool.false_ne_true, lookup_insert_eq_some]
    constructor
    · rintro (⟨rfl, rfl⟩ | ⟨-, h⟩)
      · exact Or.inr ⟨rfl, rfl, rfl⟩
      · exact Or.inl h
    · rintro (h | ⟨rfl, -, rfl⟩)
      · exact Or.inr ⟨fun heq ↦ absurd (hk.symm.trans (heq ▸ h)) (Option.some_ne_none _).symm, h⟩
      · exact Or.inl ⟨rfl, rfl⟩

theorem lookup_insertNew_of_imp (h : k' = k → table.lookup k' = none → False) :
    (table.insertNew k p).lookup k' = table.lookup k' := by
  refine Option.ext fun q ↦ ?_
  rw [lookup_insertNew_eq_some, or_iff_left_iff_imp]
  rintro ⟨rfl, hnone, -⟩
  exact (h rfl hnone).elim

/-- The pointer of an entry, which is made if there is none, with the heap and the table. -/
def upsert (table : PointerTable κ) (heap : Heap α) (k : κ) (x : α) : ℕ × Heap α × PointerTable κ :=
  match table.lookup k with
  | some p => (p, heap, table)
  | none => (heap.next, heap.alloc x, table.insert k heap.next)

theorem upsert_of_some (h : table.lookup k = some p) (x : α) :
    table.upsert heap k x = (p, heap, table) := by
  rw [upsert, h]

theorem upsert_of_none (h : table.lookup k = none) (x : α) :
    table.upsert heap k x = (heap.next, heap.alloc x, table.insert k heap.next) := by
  rw [upsert, h]

/-- The entry is there afterwards. -/
theorem lookup_upsert (table : PointerTable κ) (heap : Heap α) (k : κ) (x : α) :
    (table.upsert heap k x).2.2.lookup k = some (table.upsert heap k x).1 := by
  cases h : table.lookup k with
  | some p => rw [upsert_of_some h, h]
  | none =>
    rw [upsert_of_none h]
    exact AList.lookup_insert _

/-! ## Pointers handed out

A table goes on to be below the next pointer when the heap grows, when an entry leaves, and when a
new object goes into it. -/

/-- Every pointer of the table was handed out. -/
def Below (table : PointerTable κ) (n : ℕ) : Prop :=
  ∀ k p, table.lookup k = some p → 0 < p ∧ p < n

theorem Below.lt {n : ℕ} (h : table.Below n) (hp : table.lookup k = some p) : p < n := (h k p hp).2

theorem Below.mono {n m : ℕ} (h : table.Below n) (hle : n ≤ m) : table.Below m :=
  fun k p hp ↦ ⟨(h k p hp).1, Nat.lt_of_lt_of_le (h k p hp).2 hle⟩

theorem Below.insert {n : ℕ} (h : table.Below n) (hp : 0 < p ∧ p < n) :
    PointerTable.Below (table.insert k p) n := by
  intro k' q hq
  rcases lookup_insert_eq_some.mp hq with ⟨-, rfl⟩ | ⟨-, hq⟩
  · exact hp
  · exact h k' q hq

theorem Below.insertNew {n : ℕ} (h : table.Below n) (hp : 0 < p ∧ p < n) :
    (table.insertNew k p).Below n := by
  intro k' q hq
  rcases lookup_insertNew_eq_some.mp hq with hq | ⟨-, -, rfl⟩
  · exact h k' q hq
  · exact hp

theorem Below.erase {n : ℕ} (h : table.Below n) : PointerTable.Below (table.erase k) n :=
  fun k' q hq ↦ h k' q (lookup_erase_eq_some.mp hq).2

/-- What is handed out next is in no table yet. -/
theorem Below.lookup_ne {n : ℕ} (h : table.Below n) (k : κ) : table.lookup k ≠ some n :=
  fun hk ↦ Nat.lt_irrefl n (h.lt hk)

theorem Below.insert_alloc {heap : Heap α} (h : table.Below heap.next) (x : α) :
    PointerTable.Below (table.insert k heap.next) (heap.alloc x).next :=
  (h.mono (Nat.le_succ _)).insert ⟨heap.next_pos, Nat.lt_succ_self _⟩

end PointerTable

end Foundation
