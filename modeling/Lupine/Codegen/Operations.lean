import Lupine.Foundation.SourceFirst

/-!
# Marshalling operations

`codegen.py` parses the annotation of an API function into a list of marshalling operations, one for
each parameter, and asks each of them for its fragments of the client stub and of the server
handler. Stub and handler are in step because both walk the same list. This file has the operations
and the passes that `parse_annotation` makes over the list at its end: counts and structs that other
annotations made special are promoted, and the sources of lengths are moved to the front.

Of the declared types only the sizes are kept. Iterated arrays and arrays declared as such are left
out: no annotation uses them, and the fragment that writes an iterated array names no connection.

## Places

A parameter is in place if the lengths and the counts that size it stand in front of it. For counts
the annotation takes care of that, and the passes must not undo it; for lengths the last pass does.
Promotions keep the parameter of an operation and take its sources away, so they keep places.
-/

namespace Lupine

open Foundation

namespace Codegen

variable {ν : Type}

/-- The length of an array: a constant, or the value of another parameter, which is converted to
`size_t` where it is used. -/
inductive Length (ν : Type)
  | const (size : ℕ)
  | param (source : ν) (signed : Bool)
  deriving DecidableEq, Repr

/-- An array pointer that a struct embeds, and its count, as offsets into the struct. -/
structure DeepMember where
  pointer : ℕ
  count : ℕ
  width : ℕ
  /-- `sizeof(*member)`. -/
  elem : ℕ
  deriving DecidableEq, Repr

/-- `sizeof` of a pointer. -/
def pointerBytes : ℕ := 8

/-- A struct with embedded arrays. Its members lie inside it, and no count lies in a pointer. -/
structure StructLayout where
  size : ℕ
  members : List DeepMember
  inside : ∀ m ∈ members, m.pointer + pointerBytes ≤ size ∧ m.count + m.width ≤ size
  apart : ∀ m ∈ members, ∀ m' ∈ members,
    m.count + m.width ≤ m'.pointer ∨ m'.pointer + pointerBytes ≤ m.count
  deriving DecidableEq

/-- `Operation`: how a parameter is passed. A string is never received, `parse_annotation` refuses
it. -/
inductive Operation (ν : Type)
  | nullable (parameter : ν) (send recv : Bool) (size : ℕ)
  | array (parameter : ν) (send recv : Bool) (length : Length ν) (elem : ℕ) (compressible : Bool)
  | inOutCount (parameter anchor : ν)
  | optionalArray (parameter : ν) (elem : ℕ) (count : ν)
  | deepStruct (parameter : ν) (send recv : Bool) (layout : StructLayout)
  | nullTerminated (parameter : ν) (send : Bool) (lengthWidth : ℕ)
  | opaqueType (parameter : ν) (send recv : Bool) (size : ℕ)
  | dereference (parameter : ν) (send recv : Bool) (size : ℕ)
  deriving DecidableEq

namespace Operation

def parameter : Operation ν → ν
  | nullable p .. | array p .. | inOutCount p _ | optionalArray p .. | deepStruct p ..
  | nullTerminated p .. | opaqueType p .. | dereference p .. => p

/-- `getattr(op, "send", True)`. -/
def send : Operation ν → Bool
  | nullable _ send .. | array _ send .. | deepStruct _ send .. | nullTerminated _ send _
  | opaqueType _ send .. | dereference _ send .. => send
  | inOutCount .. | optionalArray .. => true

/-- `getattr(op, "recv", False)`. -/
def recv : Operation ν → Bool
  | nullable _ _ recv _ | array _ _ recv .. | deepStruct _ _ recv _ | opaqueType _ _ recv _
  | dereference _ _ recv _ => recv
  | inOutCount .. => true
  | optionalArray .. | nullTerminated .. => false

/-- The parameter in `getattr(op, "length", None)`. -/
def lengthSource : Operation ν → Option ν
  | array _ _ _ (.param source _) .. => some source
  | _ => none

def countSource : Operation ν → Option ν
  | optionalArray _ _ count => some count
  | _ => none

/-- Whether the response has something for the parameter. -/
def receives (op : Operation ν) : Bool := op.recv || op.countSource.isSome

/-- `isinstance(op, DereferenceOperation)`. -/
def isDereference : Operation ν → Bool
  | dereference .. => true
  | _ => false

end Operation

open Operation

/-- The loop that replaces the first operation of a kind and breaks. -/
def replaceFirst (p : Operation ν → Bool) (f : Operation ν → Operation ν) :
    List (Operation ν) → List (Operation ν)
  | [] => []
  | op :: ops => if p op then f op :: ops else op :: replaceFirst p f ops

/-! ## Promotions

What is there after a promotion and names a source was there before. -/

/-- Where an operation is promoted it keeps its parameter, and names no source any more. -/
def Promotes (op op' : Operation ν) : Prop :=
  op'.parameter = op.parameter ∧
    (op' = op ∨ op'.lengthSource = none ∧ op'.countSource = none)

theorem Promotes.refl (op : Operation ν) : Promotes op op := ⟨rfl, .inl rfl⟩

theorem Promotes.trans {op op' op'' : Operation ν} (h : Promotes op op')
    (h' : Promotes op' op'') : Promotes op op'' := by
  refine ⟨h'.1.trans h.1, ?_⟩
  rcases h'.2 with rfl | hnone
  · exact h.2
  · exact .inr hnone

theorem promotes_replaceFirst {p : Operation ν → Bool} {f : Operation ν → Operation ν}
    {ops ops' : List (Operation ν)} (hf : ∀ op, Promotes op (f op))
    (h : List.Forall₂ Promotes ops ops') : List.Forall₂ Promotes ops (replaceFirst p f ops') := by
  induction h with
  | nil => exact .nil
  | cons hop hops ih =>
    rw [replaceFirst]
    split_ifs
    · exact .cons (hop.trans (hf _)) hops
    · exact .cons hop ih

theorem promotes_foldl {ε : Type} {p : ε → Operation ν → Bool}
    {f : ε → Operation ν → Operation ν} (hf : ∀ e op, Promotes op (f e op)) (entries : List ε)
    {ops ops' : List (Operation ν)} (h : List.Forall₂ Promotes ops ops') :
    List.Forall₂ Promotes ops
      (entries.foldl (fun ops e ↦ replaceFirst (p e) (f e) ops) ops') := by
  induction entries generalizing ops' with
  | nil => exact h
  | cons e entries ih => exact ih (promotes_replaceFirst (hf e) h)

/-- The lengths of arrays are plain parameters: none is an array of such a length itself, or an
optional array. -/
def LengthsPlain (ops : List (Operation ν)) : Prop :=
  ∀ op ∈ ops, ∀ s ∈ op.lengthSource, ∀ op' ∈ ops, op'.parameter = s →
    op'.lengthSource = none ∧ op'.countSource = none

theorem LengthsPlain.sourcesPlain {ops : List (Operation ν)} (h : LengthsPlain ops) :
    SourcesPlain parameter lengthSource ops :=
  fun op hop s hs op' hop' hkey ↦ (h op hop s hs op' hop' hkey).1

section Promoted

variable {ops ops' : List (Operation ν)} (h : List.Forall₂ Promotes ops ops')
include h

theorem map_parameter_of_promotes : ops'.map parameter = ops.map parameter := by
  induction h with
  | nil => rfl
  | cons hop _ ih => rw [List.map_cons, List.map_cons, hop.1, ih]

theorem mem_of_promotes {op : Operation ν} (hop : op ∈ ops')
    (hsource : op.lengthSource ≠ none ∨ op.countSource ≠ none) : op ∈ ops := by
  induction h with
  | nil => exact hop
  | cons hpromotes _ ih =>
    rcases List.mem_cons.mp hop with rfl | hop
    · rcases hpromotes.2 with rfl | ⟨hlength, hcount⟩
      · exact List.mem_cons_self
      · rcases hsource with hsource | hsource
        · exact absurd hlength hsource
        · exact absurd hcount hsource
    · exact List.mem_cons_of_mem _ (ih hop)

theorem placed_counts_of_promotes {keys known : List ν}
    (hplaced : Placed parameter countSource keys known ops) :
    Placed parameter countSource keys known ops' := by
  induction h generalizing known with
  | nil => trivial
  | cons hpromotes _ ih =>
    refine ⟨fun s hs ↦ ?_, hpromotes.1 ▸ ih hplaced.2⟩
    rcases hpromotes.2 with rfl | ⟨-, hcount⟩
    · exact hplaced.1 s hs
    · rw [hcount] at hs
      exact absurd hs (by simp)

theorem lengthsPlain_of_promotes (hplain : LengthsPlain ops) : LengthsPlain ops' := by
  intro op hop s hs op' hop' hkey
  have hlength := hplain op (mem_of_promotes h hop (.inl (by rw [hs]; simp))) s hs op'
  refine ⟨?_, ?_⟩
  · by_contra hne
    exact hne (hlength (mem_of_promotes h hop' (.inl hne)) hkey).1
  · by_contra hne
    exact hne (hlength (mem_of_promotes h hop' (.inr hne)) hkey).2

end Promoted

/-! ## The passes over the list

The order of the passes is that of the source. Each of the first two replaces operations one by one,
and the third moves them. -/

variable [DecidableEq ν]

/-- `anchors`: every count that sizes an optional array, with the first such array. -/
def anchors (ops : List (Operation ν)) : List (ν × ν) :=
  ops.foldl (fun found op ↦
    match op.countSource with
    | some count =>
      if count ∈ found.map Prod.fst then found else found ++ [(count, op.parameter)]
    | none => found) []

/-- The counts become counts that go both ways. -/
def promoteCounts (ops : List (Operation ν)) : List (Operation ν) :=
  (anchors ops).foldl (fun ops entry ↦
    replaceFirst (fun op ↦ op.parameter = entry.1 && op.isDereference)
      (fun op ↦ .inOutCount op.parameter entry.2) ops) ops

/-- The parameters of `@deeparray` lines become deep structs, and keep their directions. -/
def promoteDeep (deepArrays : List (ν × StructLayout)) (ops : List (Operation ν)) :
    List (Operation ν) :=
  deepArrays.foldl (fun ops entry ↦
    replaceFirst (fun op ↦ op.parameter = entry.1)
      (fun op ↦ .deepStruct op.parameter op.send op.recv entry.2) ops) ops

/-- The pass that moves the sources of lengths in front of the arrays. -/
def orderLengths : List (Operation ν) → List (Operation ν) :=
  sourcesFirst parameter lengthSource

/-- What `parse_annotation` does with the operations it has parsed. -/
def postPasses (deepArrays : List (ν × StructLayout)) (ops : List (Operation ν)) :
    List (Operation ν) :=
  orderLengths (promoteDeep deepArrays (promoteCounts ops))

theorem promotes_promote (deepArrays : List (ν × StructLayout)) (ops : List (Operation ν)) :
    List.Forall₂ Promotes ops (promoteDeep deepArrays (promoteCounts ops)) := by
  refine promotes_foldl (p := fun entry op ↦ op.parameter = entry.1) ?_ deepArrays ?_
  · exact fun _ _ ↦ ⟨rfl, .inr ⟨rfl, rfl⟩⟩
  · refine promotes_foldl ?_ (anchors ops) (List.forall₂_same.mpr fun op _ ↦ .refl op)
    exact fun _ _ ↦ ⟨rfl, .inr ⟨rfl, rfl⟩⟩

/-! ## What the passes keep

A length is brought to the front by the general pass of `Lupine.Foundation.SourceFirst`. -/

theorem postPasses_parameters (deepArrays : List (ν × StructLayout)) (ops : List (Operation ν)) :
    ((postPasses deepArrays ops).map parameter).Perm (ops.map parameter) := by
  rw [← map_parameter_of_promotes (promotes_promote deepArrays ops)]
  exact (sourcesFirst_perm parameter lengthSource _).map parameter

/-- A length that is moved in front of its arrays is no optional array, so the counts stay in front
of theirs. -/
theorem placed_counts_orderLengths {ops : List (Operation ν)} (hplain : LengthsPlain ops)
    (h : Placed parameter countSource (ops.map parameter) [] ops) :
    Placed parameter countSource (ops.map parameter) [] (orderLengths ops) :=
  sourcesFirst_keeps hplain.sourcesPlain
    (fun op hop op' hop' hsource ↦ (hplain op hop _ hsource op' hop' rfl).2) h

/-- **The list that stub and handler walk.** It has the parameters of the parsed list, and every
length and count stands in front of the arrays that it sizes. For counts this is so because the
annotation lists them in front. -/
theorem postPasses_placed (deepArrays : List (ν × StructLayout)) {ops : List (Operation ν)}
    (hplain : LengthsPlain ops)
    (hcounts : Placed parameter countSource (ops.map parameter) [] ops) :
    ((postPasses deepArrays ops).map parameter).Perm (ops.map parameter) ∧
    Placed parameter lengthSource (ops.map parameter) [] (postPasses deepArrays ops) ∧
    Placed parameter countSource (ops.map parameter) [] (postPasses deepArrays ops) := by
  have hpromotes := promotes_promote deepArrays ops
  have hplain' := lengthsPlain_of_promotes hpromotes hplain
  have hkeys := map_parameter_of_promotes hpromotes
  refine ⟨postPasses_parameters deepArrays ops, ?_, ?_⟩
  · rw [← hkeys]
    exact sourcesFirst_placed hplain'.sourcesPlain
  · have hcounts' := placed_counts_of_promotes hpromotes hcounts
    rw [← hkeys] at hcounts' ⊢
    exact placed_counts_orderLengths hplain' hcounts'

/-- The annotation of `cuGraphGetNodes`, as it is parsed. -/
def parsedGraphGetNodes : List (Operation String) :=
  [.opaqueType "hGraph" true false 8, .dereference "numNodes" true true 8,
    .optionalArray "nodes" 8 "numNodes"]

/-- An array whose length is declared behind it, and an optional array with its count. -/
def parsedNamedNodes : List (Operation String) :=
  [.array "name" false true (.param "len" true) 1 false, .opaqueType "hGraph" true false 8,
    .dereference "numNodes" true true 8, .optionalArray "nodes" 8 "numNodes",
    .opaqueType "len" true false 4]

/-- The length is moved in front of the name, and the count is promoted. -/
theorem postPasses_placed_namedNodes :
    postPasses [] parsedNamedNodes
      = [.opaqueType "len" true false 4, .array "name" false true (.param "len" true) 1 false,
        .opaqueType "hGraph" true false 8, .inOutCount "numNodes" "nodes",
        .optionalArray "nodes" 8 "numNodes"] ∧
    ((postPasses [] parsedNamedNodes).map parameter).Perm (parsedNamedNodes.map parameter) ∧
    Placed parameter lengthSource (parsedNamedNodes.map parameter) []
      (postPasses [] parsedNamedNodes) ∧
    Placed parameter countSource (parsedNamedNodes.map parameter) []
      (postPasses [] parsedNamedNodes) :=
  ⟨by decide, postPasses_placed [] (by unfold LengthsPlain; decide)
    (by simp [Placed, parsedNamedNodes, parameter, countSource])⟩

end Codegen

end Lupine
