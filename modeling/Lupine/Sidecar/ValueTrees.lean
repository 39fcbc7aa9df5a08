import Lupine.Foundation.Deposits
import Mathlib.Data.List.DropRight
import Mathlib.Tactic.Common

/-!
# The values of an operator

The arguments and the results of an operator are trees: tensors and scalars in lists, tuples and
dictionaries. Between the client and the worker they are JSON, which has arrays and objects only.

## Sizes

A `torch.Size` is a tuple of numbers, and equal to that tuple. Both sides of the sidecar treat it
separately, so it is separate here; `replace` makes the tuple of it.

## Recursion

A value contains lists of values and lists of entries, so every function on trees comes with one for
items and one for entries. These are loops over their lists, and the lemmas say so; proofs then go
by the induction of this file, in which all parts of a value are at hand.
-/

open Foundation

namespace Lupine

/-- A Python value, with keys and leaves of some types. A dictionary is in the order of its keys. -/
inductive ValueTree (K L : Type) where
  | leaf (x : L)
  | size (dims : List ℕ)
  | tuple (items : List (ValueTree K L))
  | list (items : List (ValueTree K L))
  | dict (entries : List (K × ValueTree K L))

/-- A JSON value, or what `json.dumps` is given. -/
inductive Json (K S : Type) where
  | scalar (s : S)
  | array (items : List (Json K S))
  | object (fields : List (K × Json K S))

/-- A scalar of JSON. A float is what is printed for it, with its value if it is a number. -/
inductive JsonScalar where
  | null
  | bool (b : Bool)
  | int (i : ℤ)
  | float (text : String) (value : Option Rat)
  | str (s : String)
  deriving DecidableEq

variable {K L L' S : Type}

/-! ## Reading scalars

Python reads more texts as an integer than it prints. -/

/-- Digits, between which a single underscore may stand. -/
def readDigits : ℕ → List Char → Option ℕ
  | n, [] => some n
  | n, '_' :: c :: cs => if c.isDigit then readDigits (10 * n + (c.toNat - 48)) cs else none
  | n, c :: cs => if c.isDigit then readDigits (10 * n + (c.toNat - 48)) cs else none

/-- `int`, of a string: blanks around it, a sign, and digits. -/
def intOfString (s : String) : Option ℤ :=
  let text := (s.toList.dropWhile Char.isWhitespace).rdropWhile Char.isWhitespace
  let magnitude (digits : List Char) : Option ℕ :=
    match digits with
    | c :: cs => if c.isDigit then readDigits (c.toNat - 48) cs else none
    | [] => none
  match text with
  | '-' :: digits => (magnitude digits).map fun n ↦ -(n : ℤ)
  | '+' :: digits => (magnitude digits).map (↑)
  | digits => (magnitude digits).map (↑)

/-- `int`. -/
def JsonScalar.toInt : JsonScalar → Option ℤ
  | null => none
  | bool b => some (if b then 1 else 0)
  | int i => some i
  | float _ value => value.map fun q ↦ if 0 ≤ q then q.floor else q.ceil
  | str s => intOfString s

/-- What is found at an integer; nothing is at a negative one. -/
def lookupAt {ω : Type} (look : ℕ → Option ω) : ℤ → Option ω
  | .ofNat n => look n
  | .negSucc _ => none

theorem lookupAt_natCast {ω : Type} (look : ℕ → Option ω) (n : ℕ) : lookupAt look n = look n := rfl

/-- Induction over a JSON value. -/
@[elab_as_elim]
theorem Json.induction {P : Json K S → Prop} (scalar : ∀ s, P (.scalar s))
    (array : ∀ items, (∀ v ∈ items, P v) → P (.array items))
    (object : ∀ fields, (∀ f ∈ fields, P f.2) → P (.object fields)) (v : Json K S) : P v := by
  refine @Json.rec K S P (fun items ↦ ∀ v ∈ items, P v) (fun fields ↦ ∀ f ∈ fields, P f.2)
    (fun f ↦ P f.2) scalar array object ?_ ?_ ?_ ?_ ?_ v
  · exact fun v hv ↦ absurd hv List.not_mem_nil
  · exact fun v vs hv hvs ↦ List.forall_mem_cons.mpr ⟨hv, hvs⟩
  · exact fun f hf ↦ absurd hf List.not_mem_nil
  · exact fun f fs hf hfs ↦ List.forall_mem_cons.mpr ⟨hf, hfs⟩
  · exact fun _ _ hv ↦ hv

/-! ## Trees

A tree is taken leaf by leaf: its leaves in order, the tree with other leaves, and the tree with its
leaves looked up. -/

namespace ValueTree

/-- Induction over a tree, in which all parts of a value are at hand. -/
@[elab_as_elim]
theorem induction {P : ValueTree K L → Prop} (leaf : ∀ x, P (.leaf x))
    (size : ∀ dims, P (.size dims)) (tuple : ∀ items, (∀ v ∈ items, P v) → P (.tuple items))
    (list : ∀ items, (∀ v ∈ items, P v) → P (.list items))
    (dict : ∀ entries, (∀ e ∈ entries, P e.2) → P (.dict entries)) (v : ValueTree K L) : P v := by
  refine @ValueTree.rec K L P (fun items ↦ ∀ v ∈ items, P v) (fun entries ↦ ∀ e ∈ entries, P e.2)
    (fun e ↦ P e.2) leaf size tuple list dict ?_ ?_ ?_ ?_ ?_ v
  · exact fun v hv ↦ absurd hv List.not_mem_nil
  · exact fun v vs hv hvs ↦ List.forall_mem_cons.mpr ⟨hv, hvs⟩
  · exact fun e he ↦ absurd he List.not_mem_nil
  · exact fun e es he hes ↦ List.forall_mem_cons.mpr ⟨he, hes⟩
  · exact fun _ _ hv ↦ hv

mutual

def leaves : ValueTree K L → List L
  | leaf x => [x]
  | size _ => []
  | tuple items => leavesOfItems items
  | list items => leavesOfItems items
  | dict entries => leavesOfEntries entries

def leavesOfItems : List (ValueTree K L) → List L
  | [] => []
  | v :: vs => leaves v ++ leavesOfItems vs

def leavesOfEntries : List (K × ValueTree K L) → List L
  | [] => []
  | (_, v) :: es => leaves v ++ leavesOfEntries es

end

theorem leavesOfItems_eq (items : List (ValueTree K L)) :
    leavesOfItems items = items.flatMap leaves := by
  induction items with
  | nil => rfl
  | cons v vs ih => rw [leavesOfItems, ih, List.flatMap_cons]

theorem leavesOfEntries_eq (entries : List (K × ValueTree K L)) :
    leavesOfEntries entries = entries.flatMap fun e ↦ leaves e.2 := by
  induction entries with
  | nil => rfl
  | cons e es ih => rw [leavesOfEntries, ih, List.flatMap_cons]

mutual

/-- The tree with its leaves replaced, and its sizes as tuples of leaves. -/
def replace (number : ℕ → L') (f : L → L') : ValueTree K L → ValueTree K L'
  | leaf x => leaf (f x)
  | size dims => tuple (dims.map fun n ↦ leaf (number n))
  | tuple items => tuple (replaceItems number f items)
  | list items => list (replaceItems number f items)
  | dict entries => dict (replaceEntries number f entries)

def replaceItems (number : ℕ → L') (f : L → L') : List (ValueTree K L) → List (ValueTree K L')
  | [] => []
  | v :: vs => replace number f v :: replaceItems number f vs

def replaceEntries (number : ℕ → L') (f : L → L') :
    List (K × ValueTree K L) → List (K × ValueTree K L')
  | [] => []
  | (key, v) :: es => (key, replace number f v) :: replaceEntries number f es

end

theorem replaceItems_eq (number : ℕ → L') (f : L → L') (items : List (ValueTree K L)) :
    replaceItems number f items = items.map (replace number f) := by
  induction items with
  | nil => rfl
  | cons v vs ih => rw [replaceItems, ih, List.map_cons]

theorem replaceEntries_eq (number : ℕ → L') (f : L → L') (entries : List (K × ValueTree K L)) :
    replaceEntries number f entries = entries.map fun e ↦ (e.1, replace number f e.2) := by
  induction entries with
  | nil => rfl
  | cons e es ih => rw [replaceEntries, ih, List.map_cons]

mutual

/-- The tree with its leaves looked up, unless one is not found. -/
def traverse (f : L → Option L') : ValueTree K L → Option (ValueTree K L')
  | leaf x => (f x).map leaf
  | size dims => some (size dims)
  | tuple items => (traverseItems f items).map tuple
  | list items => (traverseItems f items).map list
  | dict entries => (traverseEntries f entries).map dict

def traverseItems (f : L → Option L') : List (ValueTree K L) → Option (List (ValueTree K L'))
  | [] => some []
  | v :: vs => do
    let first ← traverse f v
    let rest ← traverseItems f vs
    return first :: rest

def traverseEntries (f : L → Option L') :
    List (K × ValueTree K L) → Option (List (K × ValueTree K L'))
  | [] => some []
  | (key, v) :: es => do
    let first ← traverse f v
    let rest ← traverseEntries f es
    return (key, first) :: rest

end

theorem traverseItems_eq (f : L → Option L') (items : List (ValueTree K L)) :
    traverseItems f items = items.mapM (traverse f) := by
  induction items with
  | nil => rfl
  | cons v vs ih => rw [traverseItems, ih, List.mapM_cons]

theorem traverseEntries_eq (f : L → Option L') (entries : List (K × ValueTree K L)) :
    traverseEntries f entries = entries.mapM fun e ↦ (traverse f e.2).map (e.1, ·) := by
  induction entries with
  | nil => rfl
  | cons e es ih =>
    rw [traverseEntries, ih, List.mapM_cons]
    cases traverse f e.2 with
    | none => rfl
    | some first => rfl

mutual

/-- Each size, key and leaf of a tree is of the kind that is asked for. -/
def Each (sizes : List ℕ → Prop) (keys : K → Prop) (leaves : L → Prop) : ValueTree K L → Prop
  | leaf x => leaves x
  | size dims => sizes dims
  | tuple items => EachItem sizes keys leaves items
  | list items => EachItem sizes keys leaves items
  | dict entries => EachEntry sizes keys leaves entries

def EachItem (sizes : List ℕ → Prop) (keys : K → Prop) (leaves : L → Prop) :
    List (ValueTree K L) → Prop
  | [] => True
  | v :: vs => Each sizes keys leaves v ∧ EachItem sizes keys leaves vs

def EachEntry (sizes : List ℕ → Prop) (keys : K → Prop) (leaves : L → Prop) :
    List (K × ValueTree K L) → Prop
  | [] => True
  | (key, v) :: es => (keys key ∧ Each sizes keys leaves v) ∧ EachEntry sizes keys leaves es

end

variable {sizes : List ℕ → Prop} {keys : K → Prop} {leaves : L → Prop}

theorem eachItem_iff {items : List (ValueTree K L)} :
    EachItem sizes keys leaves items ↔ ∀ v ∈ items, Each sizes keys leaves v := by
  induction items with
  | nil => simp [EachItem]
  | cons v vs ih => rw [EachItem, ih, List.forall_mem_cons]

theorem eachEntry_iff {entries : List (K × ValueTree K L)} :
    EachEntry sizes keys leaves entries ↔
      ∀ e ∈ entries, keys e.1 ∧ Each sizes keys leaves e.2 := by
  induction entries with
  | nil => simp [EachEntry]
  | cons e es ih => rw [EachEntry, ih, List.forall_mem_cons]

end ValueTree

end Lupine
