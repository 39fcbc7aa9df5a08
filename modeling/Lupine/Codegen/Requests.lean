import Mathlib.Data.List.Nodup
import Mathlib.Logic.Function.Basic
import Lupine.Codegen.Fragments

/-!
# Requests of generated stubs

What the stub writes for the arguments of a call the handler reads exactly, whatever follows on the
connection, and the API function is called with what the caller passed. The handler learns the size
of a buffer from the variables it has read by then, so the walk over the list carries that every
operation before the current one was understood.

## What is needed of a call

`Passed` is what the API asks of the caller: pointers that are not null lead to as much memory as
the lengths and counts say. `view` is what the API function finds in that memory when it is called
directly. The handler calls it with memory of its own, and `Understood` says of one operation that
its variables stand for the caller's argument, so that the function finds the same.
-/

namespace Lupine

open Foundation Reader

namespace Codegen

variable {ν : Type}

/-! ## Lists whose code is well typed

The lists come from the generator, whose last pass puts lengths and counts in front of the arrays
they size. The conditions here are what the C compiler checks of the code that is emitted. -/

/-- The emitted code for the operation is well typed and moves the data somewhere. The constants are
sizes of C types. An array of constant length has its length in bytes. -/
def Operation.WellTyped : Operation ν → Prop
  | .nullable _ send recv size | .dereference _ send recv size =>
    (send || recv) = true ∧ size < 2 ^ 31
  | .array _ send recv (.const size) elem compressible =>
    (send || recv) = true ∧ elem = 1 ∧ compressible = false ∧ size < 2 ^ 31
  | .array _ send recv (.param ..) _ _ => (send || recv) = true
  | .inOutCount .. | .optionalArray .. => True
  | .deepStruct _ send recv layout => (send || recv) = true ∧ layout.size < 2 ^ 31
  | .nullTerminated _ send lengthWidth => send = true ∧ 4 ≤ lengthWidth ∧ lengthWidth ≤ 8
  | .opaqueType _ send recv size => send = true ∧ recv = false ∧ size < 2 ^ 31

open Operation

/-- The operations of one function: a parameter has one, a length is passed by value, and a count
goes both ways. -/
structure Typed (ops : List (Operation ν)) : Prop where
  nodup : (ops.map parameter).Nodup
  wellTyped : ∀ op ∈ ops, op.WellTyped
  lengths : ∀ op ∈ ops, ∀ s ∈ op.lengthSource, ∃ size, .opaqueType s true false size ∈ ops
  counts : ∀ op ∈ ops, ∀ s ∈ op.countSource, ∃ anchor, .inOutCount s anchor ∈ ops

/-- Every length and count stands in front of the arrays that it sizes. -/
structure InOrder (ops : List (Operation ν)) : Prop where
  lengths : Placed parameter lengthSource (ops.map parameter) [] ops
  counts : Placed parameter countSource (ops.map parameter) [] ops

namespace Typed

variable {ops : List (Operation ν)}

theorem eq_of_parameter (h : Typed ops) {op op' : Operation ν} (hop : op ∈ ops) (hop' : op' ∈ ops)
    (heq : op.parameter = op'.parameter) : op = op' :=
  List.inj_on_of_nodup_map h.nodup hop hop' heq

theorem lengthsPlain (h : Typed ops) : LengthsPlain ops := by
  intro op hop s hs op' hop' hkey
  obtain ⟨size, hsource⟩ := h.lengths op hop s hs
  rw [h.eq_of_parameter hop' hsource hkey]
  exact ⟨rfl, rfl⟩

theorem perm (h : Typed ops) {ops' : List (Operation ν)} (hperm : ops'.Perm ops) : Typed ops' where
  nodup := (hperm.map parameter).nodup_iff.mpr h.nodup
  wellTyped op hop := h.wellTyped op (hperm.mem_iff.mp hop)
  lengths op hop s hs := by
    obtain ⟨size, hmem⟩ := h.lengths op (hperm.mem_iff.mp hop) s hs
    exact ⟨size, hperm.mem_iff.mpr hmem⟩
  counts op hop s hs := by
    obtain ⟨anchor, hmem⟩ := h.counts op (hperm.mem_iff.mp hop) s hs
    exact ⟨anchor, hperm.mem_iff.mpr hmem⟩

theorem orderLengths [DecidableEq ν] (h : Typed ops)
    (hcounts : Placed parameter countSource (ops.map parameter) [] ops) :
    Typed (orderLengths ops) ∧ InOrder (orderLengths ops) := by
  have hperm : (Codegen.orderLengths ops).Perm ops := sourcesFirst_perm parameter lengthSource ops
  have hkeys : ∀ s, s ∈ (Codegen.orderLengths ops).map parameter ↔ s ∈ ops.map parameter :=
    fun s ↦ (hperm.map parameter).mem_iff
  have hplaced : Placed parameter lengthSource (ops.map parameter) [] (Codegen.orderLengths ops) :=
    sourcesFirst_placed h.lengthsPlain.sourcesPlain
  exact ⟨h.perm hperm, hplaced.congr fun s ↦ (hkeys s).mp,
    (placed_counts_orderLengths h.lengthsPlain hcounts).congr fun s ↦ (hkeys s).mp⟩

end Typed

/-! ## Calls that are passed on

An array without elements is no array, and an optional one comes with a capacity that is not
zero. -/

/-- A pointer to memory of at least so many bytes. -/
def Arg.Points (size : ℕ) (arg : Arg) : Prop :=
  ∃ address bytes, arg = .block address bytes ∧ size ≤ bytes.length ∧
    0 < address ∧ address < 256 ^ pointerBytes

theorem Arg.Points.load {size : ℕ} {arg : Arg} (h : arg.Points size) :
    ∃ data, arg.load size = some data ∧ data.length = size := by
  obtain ⟨address, bytes, rfl, hle, -⟩ := h
  exact ⟨bytes.take size, if_pos hle, List.length_take_of_le hle⟩

theorem Arg.Points.ne_null {size : ℕ} {arg : Arg} (h : arg.Points size) : arg ≠ .null := by
  obtain ⟨address, bytes, rfl, -⟩ := h
  exact Arg.noConfusion

theorem Arg.Points.word {size : ℕ} {arg : Arg} (h : arg.Points size) :
    0 < arg.word ∧ arg.word < 256 ^ pointerBytes := by
  obtain ⟨address, bytes, rfl, -, hpos, hlt⟩ := h
  exact ⟨hpos, hlt⟩

section Passed

variable [DecidableEq ν] (ops : List (Operation ν)) (args : Args ν)

/-- The capacity that the caller offers for the arrays of a count. -/
def requestedFor (count : ν) : ℕ :=
  match ops.find? fun op ↦ op.parameter = count with
  | some (.inOutCount p anchor) => (requestedCount args p anchor).getD 0
  | _ => 0

/-- The arrays of a struct are there, in full. -/
def ArraysGiven (header : List UInt8) (members : List DeepMember)
    (arrays : List (List UInt8)) : Prop :=
  List.Forall₂ (fun m array ↦ m.countIn header ≠ 0 →
    m.bytesIn header < 2 ^ 31 ∧ m.bytesIn header ≤ array.length) members arrays

/-- What the API asks of an argument: pointers that are not null lead to as much memory as the
lengths and counts say. No single transfer exceeds what the return value of a read can tell. An
optional array comes with a capacity that is not zero. -/
def Passed : Operation ν → Prop
  | .nullable p _ _ size => args p = .null ∨ (args p).Points size
  | .array p _ _ length elem _ => ∃ size,
    length.transferSize (argValues args) elem = some size ∧ size < 2 ^ 31 ∧
      (size ≠ 0 → (args p).Points size)
  | .inOutCount p _ => (args p).Points pointerBytes
  | .optionalArray p elem count => args p = .null ∨
    requestedFor ops args count ≠ 0 ∧ requestedFor ops args count * elem < 2 ^ 31 ∧
      (args p).Points (requestedFor ops args count * elem)
  | .deepStruct p send _ layout => ∃ address header arrays, args p = .deep address header arrays ∧
    (send = true → header.length = layout.size ∧ ArraysGiven header layout.members arrays)
  | .nullTerminated p .. => ∃ address bytes, args p = .block address bytes ∧
    ∃ string, cString bytes = some string ∧ string.length < 2 ^ 31
  | .opaqueType p _ _ size => ∃ bytes, args p = .value bytes ∧ bytes.length = size
  | .dereference p _ _ size => (args p).Points size

/-- The arrays of a struct, as far as its counts go. -/
def arraysIn (header : List UInt8) (members : List DeepMember) (arrays : List (List UInt8)) :
    List (List UInt8) :=
  List.zipWith (fun m array ↦ if m.countIn header ≠ 0 then array.take (m.bytesIn header) else [])
    members arrays

def bufferView (send : Bool) (size : ℕ) (arg : Arg) : Option Seen :=
  bufferReference send size (arg.load size)

/-- What the function finds when the caller calls it directly: it looks at what is sent, and only
there, and fills what is received. An array without elements is no array. -/
def view : Operation ν → Option Seen
  | .nullable p send _ size =>
    if args p ≠ .null then bufferView send size (args p) else some .null
  | .array p send _ length elem _ => do
    let size ← length.transferSize (argValues args) elem
    match length with
    | .const _ =>
      if size ≠ 0 then bufferView send size (args p) else bufferReference send size (some [])
    | .param .. => if size = 0 then some .null else bufferView send size (args p)
  | .inOutCount p anchor =>
    (requestedCount args p anchor).map fun count ↦ .memory (leBytes pointerBytes count)
  | .optionalArray p elem count =>
    if args p ≠ .null then some (.room (requestedFor ops args count * elem)) else some .null
  | .deepStruct p send _ layout =>
    match args p with
    | .deep _ header arrays =>
      if send then
        some (.deep (layout.mask header) (arraysIn header layout.members arrays))
      else some (.room layout.size)
    | _ => none
  | .nullTerminated p .. =>
    match args p with
    | .block _ bytes => (cString bytes).map .memory
    | _ => none
  | .opaqueType p .. => (args p).bytes?.map .value
  | .dereference p send _ size => bufferView send size (args p)

/-- What the variables of the handler hold for an operation. -/
def Understood (op : Operation ν) (l : Local) : Prop :=
  match op with
  | .nullable p send _ size => l.word = (args p).word ∧
    (send = true → args p ≠ .null → l.contents = (args p).load size)
  | .array p send _ length elem _ => send = true → ∃ size,
    length.transferSize (argValues args) elem = some size ∧
      l.contents = if size ≠ 0 then (args p).load size else some []
  | .inOutCount p anchor => ∃ count, requestedCount args p anchor = some count ∧
    l.word = count ∧ l.contents = some (leBytes pointerBytes count)
  | .optionalArray p elem count => (l.word ≠ 0 ↔ args p ≠ .null) ∧
    l.room = if args p ≠ .null then some (requestedFor ops args count * elem) else none
  | .deepStruct p send _ layout => send = true → ∃ address header arrays header',
    args p = .deep address header arrays ∧ l.contents = some header' ∧
      layout.mask header' = layout.mask header ∧
      l.arrays = arraysIn header layout.members arrays
  | .nullTerminated p .. => ∃ address bytes, args p = .block address bytes ∧
    l.contents = cString bytes
  | .opaqueType p .. => l.contents = (args p).bytes?
  | .dereference p send _ size => send = true → l.contents = (args p).load size

end Passed

/-! ## Parts that are written on a condition -/

theorem loadContents_of_le {bytes : List UInt8} {size : ℕ} (h : size ≤ bytes.length) :
    loadContents bytes size = some (bytes.take size) := if_pos h

theorem writeIf_eq {c : Prop} [Decidable c] {o : Option (List UInt8)} {data : List UInt8}
    (h : c → o = some data) : writeIf c o = some (if c then data else []) := by
  rw [writeIf]
  split_ifs with hc
  · exact h hc
  · rfl

theorem reads_readIf {c : Prop} [Decidable c] {r : Reader UInt8 (List UInt8)}
    {written data : List UInt8} (h : c → r.Reads written data) :
    (readIf c r).Reads (if c then written else []) (if c then data else []) := Reads.ite h

/-! ## Structs

The arrays of a struct are written behind it. Setting a pointer changes no count, so the handler can
put its own storage in place member by member. -/

section Structs

theorem DeepMember.getElem?_setPointer (m : DeepMember) (address : ℕ) (header : List UInt8)
    {i : ℕ} (h : m.covers i = false) : (m.setPointer address header)[i]? = header[i]? := by
  simp [DeepMember.setPointer, h]

theorem DeepMember.countIn_setPointer {m m' : DeepMember} (address : ℕ) (header : List UInt8)
    (h : m.count + m.width ≤ m'.pointer ∨ m'.pointer + pointerBytes ≤ m.count) :
    m.countIn (m'.setPointer address header) = m.countIn header := by
  rw [countIn, countIn]
  refine congrArg leValue (List.ext_getElem? fun i ↦ ?_)
  rcases Nat.lt_or_ge i m.width with hi | hi
  · have hcovers : m'.covers (m.count + i) = false := by
      simp only [covers, Bool.and_eq_false_iff, decide_eq_false_iff_not]
      omega
    rw [List.getElem?_take_of_lt hi, List.getElem?_take_of_lt hi, List.getElem?_drop,
      List.getElem?_drop, m'.getElem?_setPointer address header hcovers]
  · rw [List.getElem?_take, if_neg (by omega), List.getElem?_take, if_neg (by omega)]

theorem StructLayout.mask_setPointer {layout : StructLayout} {m : DeepMember}
    (hm : m ∈ layout.members) (address : ℕ) (header : List UInt8) :
    layout.mask (m.setPointer address header) = layout.mask header := by
  refine List.ext_getElem? fun i ↦ ?_
  by_cases hcovers : m.covers i = true
  · have hany : layout.members.any (·.covers i) = true := List.any_eq_true.mpr ⟨m, hm, hcovers⟩
    simp only [mask, DeepMember.setPointer, List.getElem?_mapIdx, Option.map_map, hany, if_true]
    rfl
  · have hget := m.getElem?_setPointer address header (Bool.eq_false_iff.mpr hcovers)
    simp only [mask, List.getElem?_mapIdx, hget]

variable {header header' : List UInt8} {members : List DeepMember} {arrays : List (List UInt8)}

theorem bytesIn_congr {m : DeepMember} (h : m.countIn header' = m.countIn header) :
    m.bytesIn header' = m.bytesIn header := by
  rw [DeepMember.bytesIn, DeepMember.bytesIn, h]

theorem arraysIn_congr (arrays : List (List UInt8))
    (h : ∀ m ∈ members, m.countIn header' = m.countIn header) :
    arraysIn header' members arrays = arraysIn header members arrays := by
  induction members generalizing arrays with
  | nil => rfl
  | cons m members ih =>
    obtain ⟨hm, hmembers⟩ := List.forall_mem_cons.mp h
    cases arrays with
    | nil => rfl
    | cons array arrays =>
      have htail := ih arrays hmembers
      rw [arraysIn] at htail ⊢
      rw [List.zipWith_cons_cons, hm, bytesIn_congr hm, htail]
      rfl

theorem ArraysGiven.congr (h : ArraysGiven header members arrays)
    (hcount : ∀ m ∈ members, m.countIn header' = m.countIn header) :
    ArraysGiven header' members arrays := by
  induction h with
  | nil => exact .nil
  | cons hfirst _ ih =>
    obtain ⟨hm, hmembers⟩ := List.forall_mem_cons.mp hcount
    exact .cons (by rwa [hm, bytesIn_congr hm]) (ih hmembers)

theorem writeMembers_congr (h : ∀ m ∈ members, m.countIn header' = m.countIn header) :
    writeMembers header' members arrays = writeMembers header members arrays := by
  induction members generalizing arrays with
  | nil => rfl
  | cons m members ih =>
    obtain ⟨hm, hmembers⟩ := List.forall_mem_cons.mp h
    cases arrays with
    | nil => rfl
    | cons array arrays =>
      rw [writeMembers, writeMembers, hm, bytesIn_congr hm, ih hmembers]

/-- **The arrays of a struct** are read into storage of their own as they were written; but for
its pointers the struct stays what it is. -/
theorem reads_readMembers {layout : StructLayout} {place : ℕ → ℕ → Option ℕ}
    (hplace : ∀ i n, ∃ address, place i n = some address) (i : ℕ)
    (hmembers : members ⊆ layout.members) (h : ArraysGiven header members arrays) :
    ∃ written header', writeMembers header members arrays = some written ∧
      (readMembers place i header members).Reads written
        (header', arraysIn header members arrays) ∧
      layout.mask header' = layout.mask header := by
  induction members generalizing i header arrays with
  | nil => exact ⟨[], header, rfl, reads_pure _, rfl⟩
  | cons m members ih =>
    obtain ⟨array, arrays, hfirst, hrest, rfl⟩ := List.forall₂_cons_left_iff.mp h
    obtain ⟨hm, hsub⟩ := List.cons_subset.mp hmembers
    obtain ⟨address, haddress⟩ := hplace i (m.countIn header)
    have hcount : ∀ m' ∈ members, m'.countIn (m.setPointer address header) = m'.countIn header :=
      fun m' hm' ↦ m'.countIn_setPointer address header (layout.apart m' (hsub hm') m hm)
    obtain ⟨written, header', hwrite, hread, hmask⟩ :=
      ih (i + 1) hsub (ArraysGiven.congr hrest hcount)
    rw [writeMembers_congr hcount] at hwrite
    rw [arraysIn_congr arrays hcount] at hread
    have harray : ∀ hne : m.countIn header ≠ 0,
        (rpcReadBytes (m.bytesIn header)).Reads (array.take (m.bytesIn header))
          (array.take (m.bytesIn header)) := fun hne ↦
      reads_rpcReadBytes (List.length_take_of_le (hfirst hne).2)
        (staticCastInt_nonneg (hfirst hne).1)
    refine ⟨(if m.countIn header ≠ 0 then array.take (m.bytesIn header) else []) ++ written,
      header', ?_, ?_, hmask.trans (layout.mask_setPointer hm address header)⟩
    · rw [writeMembers, hwrite]
      rw [writeIf_eq fun hne ↦ loadContents_of_le (hfirst hne).2]
      rfl
    · rw [readMembers, haddress]
      refine Reads.bind (reads_readIf harray) ?_
      rw [arraysIn, List.zipWith_cons_cons]
      exact hread.bind_pure

end Structs

/-! ## One operation

Every kind of operation has a lemma of the same form: if the sizes it needs are known, the handler
reads what the stub wrote, and understands the argument. -/

theorem reads_readPayload (wire : Wire) (compressible : Bool) {data : List UInt8} {size : ℕ}
    (hsize : data.length = size) (h : size < 2 ^ 31) :
    (wire.readPayload compressible size).Reads (wire.payload compressible data) data := by
  subst hsize
  cases compressible with
  | false => exact reads_rpcReadBytes rfl (staticCastInt_nonneg h)
  | true =>
    intro rest
    have hread := unlessNegative_readPayloadPart wire.lz4
      (payloadFramed wire.compressLz4 data.length) rest le_rfl h (.inr rfl)
    rw [List.take_length, List.drop_length, encode_nil, List.nil_append] at hread
    simp only [StateT.run, Wire.readPayload, Wire.payload, if_true, hread]
    rfl

theorem transferSize_congr {values values' : ν → Option (List UInt8)} {length : Length ν} {elem : ℕ}
    (h : ∀ s signed, length = .param s signed → values s = values' s) :
    length.transferSize values elem = length.transferSize values' elem := by
  cases length with
  | const size => rfl
  | param s signed => rw [Length.transferSize, Length.transferSize, h s signed rfl]

theorem Operation.WellTyped.array {p : ν} {send recv : Bool} {length : Length ν} {elem : ℕ}
    {compressible : Bool} (h : (Operation.array p send recv length elem compressible).WellTyped) :
    (∀ values, length.byteSize values elem = length.transferSize values elem) ∧
      length.compresses compressible = compressible := by
  cases length with
  | const size =>
    obtain ⟨-, rfl, rfl, -⟩ := h
    exact ⟨fun values ↦ by rw [Length.byteSize, Length.transferSize, Nat.mul_one], rfl⟩
  | param s signed => exact ⟨fun values ↦ rfl, rfl⟩

section Step

variable [DecidableEq ν] {ops : List (Operation ν)} {args : Args ν} {wire : Wire}
  {place : ν → ℕ → ℕ → Option ℕ} {locals : Locals ν} {p : ν} {send recv : Bool} {size : ℕ}

/-- The handler reads what the stub wrote for an operation, and understands the argument. -/
def Transfers (ops : List (Operation ν)) (args : Args ν) (wire : Wire)
    (place : ν → ℕ → ℕ → Option ℕ) (locals : Locals ν) (op : Operation ν) : Prop :=
  ∃ written l, clientRpcWrite wire args op = some written ∧
    (serverRpcRead wire place locals op).Reads written (Function.update locals op.parameter l) ∧
    Understood ops args op l

theorem transfers_nullable (htyped : (Operation.nullable p send recv size).WellTyped)
    (hpassed : Passed ops args (.nullable p send recv size)) :
    Transfers ops args wire place locals (.nullable p send recv size) := by
  obtain ⟨hsome, hsize⟩ := htyped
  rcases hpassed with hnull | hpoints
  · refine ⟨leBytes pointerBytes 0 ++ [], { word := 0 }, ?_, ?_, ?_⟩
    · simp [clientRpcWrite, hsome, hnull, writeIf, Arg.word]
    · rw [serverRpcRead, if_pos hsome]
      refine (reads_rpcReadWord (by decide) (by decide)).bind ?_
      rw [if_neg (by simp)]
      exact reads_pure _
    · exact ⟨by rw [hnull]; rfl, fun _ hne ↦ absurd hnull hne⟩
  obtain ⟨data, hload, hdata⟩ := hpoints.load
  obtain ⟨hpos, hlt⟩ := hpoints.word
  have hword : (rpcReadWord pointerBytes).Reads (leBytes pointerBytes (args p).word)
      (args p).word := reads_rpcReadWord (by decide) hlt
  cases send with
  | true =>
    refine ⟨leBytes pointerBytes (args p).word ++ data,
      { word := (args p).word, contents := some data }, ?_, ?_, rfl, fun _ _ ↦ hload.symm⟩
    · simp [clientRpcWrite, hpoints.ne_null, writeIf, hload]
    · rw [serverRpcRead, if_pos hsome]
      refine hword.bind ?_
      rw [if_pos (by simpa using hpos.ne')]
      exact (reads_rpcReadBytes hdata (staticCastInt_nonneg hsize)).bind_pure
  | false =>
    refine ⟨leBytes pointerBytes (args p).word ++ [], { word := (args p).word }, ?_, ?_, rfl,
      fun h ↦ absurd h (by simp)⟩
    · simp [clientRpcWrite, hsome, writeIf]
    · rw [serverRpcRead, if_pos hsome]
      refine hword.bind ?_
      rw [if_neg (by simp)]
      exact reads_pure _

theorem transfers_array {length : Length ν} {elem : ℕ} {compressible : Bool}
    (htyped : (Operation.array p send recv length elem compressible).WellTyped)
    (hpassed : Passed ops args (.array p send recv length elem compressible))
    (hlength : ∀ s signed, length = .param s signed → locals.values s = argValues args s) :
    Transfers ops args wire place locals (.array p send recv length elem compressible) := by
  obtain ⟨size, htransfer, hsize, hpoints⟩ := hpassed
  obtain ⟨hbyte, hcompresses⟩ := htyped.array
  have hlocals : length.transferSize locals.values elem = some size :=
    htransfer ▸ transferSize_congr hlength
  cases send with
  | true =>
    obtain ⟨data, hload, hread⟩ : ∃ data, (size ≠ 0 → (args p).load size = some data) ∧
        (size ≠ 0 → data.length = size) := by
      by_cases hne : size = 0
      · exact ⟨[], fun h ↦ absurd hne h, fun h ↦ absurd hne h⟩
      · obtain ⟨data, hload, hdata⟩ := (hpoints hne).load
        exact ⟨data, fun _ ↦ hload, fun _ ↦ hdata⟩
    let sent := if size ≠ 0 then wire.payload compressible data else []
    let received := if size ≠ 0 then data else []
    refine ⟨sent, { room := some size, contents := some received }, ?_, ?_,
      fun _ ↦ ⟨size, htransfer, ?_⟩⟩
    · rw [clientRpcWrite, if_pos rfl, hbyte, htransfer, hcompresses]
      exact writeIf_eq fun hne ↦ by rw [hload hne]; rfl
    · rw [serverRpcRead, hlocals]
      exact (reads_readIf fun hne ↦
        reads_readPayload wire compressible (hread hne) hsize).bind_pure
    · by_cases hne : size = 0
      · simp [received, hne]
      · simp [received, hne, hload]
  | false =>
    refine ⟨[], { room := some size }, rfl, ?_, fun h ↦ absurd h (by simp)⟩
    rw [serverRpcRead, hlocals]
    exact reads_pure _

theorem transfers_inOutCount {anchor : ν} (hpassed : Passed ops args (.inOutCount p anchor)) :
    Transfers ops args wire place locals (.inOutCount p anchor) := by
  obtain ⟨count, hrequested, hlt⟩ : ∃ count, requestedCount args p anchor = some count ∧
      count < 256 ^ pointerBytes := by
    obtain ⟨data, hload, hdata⟩ := Arg.Points.load hpassed
    rw [requestedCount]
    split
    · exact ⟨0, rfl, by decide⟩
    · exact ⟨leValue data, by rw [hload]; rfl, hdata ▸ leValue_lt data⟩
  refine ⟨leBytes pointerBytes count,
    { word := count, contents := some (leBytes pointerBytes count) }, ?_, ?_,
    count, hrequested, rfl, rfl⟩
  · rw [clientRpcWrite, hrequested]
    rfl
  · rw [serverRpcRead]
    exact (reads_rpcReadWord (by decide) hlt).bind_pure

theorem transfers_optionalArray {elem : ℕ} {count : ν}
    (hpassed : Passed ops args (.optionalArray p elem count))
    (hcount : (locals count).word = requestedFor ops args count) :
    Transfers ops args wire place locals (.optionalArray p elem count) := by
  let present := if args p ≠ .null then 1 else 0
  let room := if args p ≠ .null then some (requestedFor ops args count * elem) else none
  refine ⟨leBytes 1 present, { word := present, room := room }, rfl, ?_, ?_, rfl⟩
  · rw [serverRpcRead]
    have hlt : present < 256 ^ 1 := by simp only [present]; split_ifs <;> decide
    refine (reads_rpcReadWord (by decide) hlt).bind_nil ?_
    rcases hpassed with hnull | ⟨hne, hsize, hpoints⟩
    · simp only [present, room, hnull, ne_eq, not_true_eq_false, if_false, false_and]
      exact reads_pure _
    · have hmod : requestedFor ops args count * elem % 256 ^ 8
          = requestedFor ops args count * elem := Nat.mod_eq_of_lt (by omega)
      simp only [present, room, hpoints.ne_null, ne_eq, not_false_eq_true, if_true, one_ne_zero,
        true_and, hcount, hne, hmod]
      exact reads_pure _
  · by_cases hnull : args p = .null
    · simp [present, hnull]
    · simp [present, hnull]

theorem transfers_deepStruct {layout : StructLayout}
    (htyped : (Operation.deepStruct p send recv layout).WellTyped)
    (hpassed : Passed ops args (.deepStruct p send recv layout))
    (hplace : ∀ i n, ∃ address, place p i n = some address) :
    Transfers ops args wire place locals (.deepStruct p send recv layout) := by
  obtain ⟨address, header, arrays, harg, hsent⟩ := hpassed
  cases send with
  | true =>
    obtain ⟨hlen, hgiven⟩ := hsent rfl
    obtain ⟨written, header', hwrite, hread, hmask⟩ :=
      reads_readMembers hplace 0 (List.Subset.refl layout.members) hgiven
    refine ⟨header ++ written,
      { contents := some header', arrays := arraysIn header layout.members arrays }, ?_, ?_,
      fun _ ↦ ⟨address, header, arrays, header', harg, rfl, hmask, rfl⟩⟩
    · simp only [clientRpcWrite, if_true, harg, hlen, hwrite]
      rfl
    · rw [serverRpcRead, if_pos rfl]
      exact (reads_rpcReadBytes hlen (staticCastInt_nonneg htyped.2)).bind hread.bind_pure
  | false =>
    refine ⟨[], locals p, rfl, ?_, fun h ↦ absurd h (by simp)⟩
    rw [serverRpcRead, if_neg (by simp), Operation.parameter, Function.update_eq_self]
    exact reads_pure _

theorem transfers_nullTerminated {lengthWidth : ℕ}
    (htyped : (Operation.nullTerminated p send lengthWidth).WellTyped)
    (hpassed : Passed ops args (.nullTerminated p send lengthWidth)) :
    Transfers ops args wire place locals (.nullTerminated p send lengthWidth) := by
  obtain ⟨address, bytes, harg, string, hstring, hsize⟩ := hpassed
  obtain ⟨rfl, hfour, height⟩ := htyped
  have hlt : string.length < 256 ^ lengthWidth :=
    calc string.length < 256 ^ 4 := by omega
      _ ≤ 256 ^ lengthWidth := Nat.pow_le_pow_right (by decide) hfour
  refine ⟨leBytes lengthWidth string.length ++ string,
    { room := some string.length, contents := some string }, ?_, ?_,
    address, bytes, harg, hstring.symm⟩
  · simp [clientRpcWrite, harg, hstring, Nat.mod_eq_of_lt hlt]
  · rw [serverRpcRead, if_pos rfl]
    refine (reads_rpcReadWord (by omega) hlt).bind ?_
    exact (reads_rpcReadBytes rfl (staticCastInt_nonneg hsize)).bind_pure

theorem transfers_opaqueType (htyped : (Operation.opaqueType p send recv size).WellTyped)
    (hpassed : Passed ops args (.opaqueType p send recv size)) :
    Transfers ops args wire place locals (.opaqueType p send recv size) := by
  obtain ⟨bytes, harg, hlen⟩ := hpassed
  obtain ⟨rfl, -, hsize⟩ := htyped
  refine ⟨bytes, { contents := some bytes }, ?_, ?_, ?_⟩
  · simp [clientRpcWrite, harg, Arg.bytes?, hlen]
  · rw [serverRpcRead, if_pos rfl]
    exact (reads_rpcReadBytes hlen (staticCastInt_nonneg hsize)).bind_pure
  · rw [Understood, harg]
    rfl

theorem transfers_dereference (htyped : (Operation.dereference p send recv size).WellTyped)
    (hpassed : Passed ops args (.dereference p send recv size)) :
    Transfers ops args wire place locals (.dereference p send recv size) := by
  obtain ⟨data, hload, hdata⟩ := Arg.Points.load hpassed
  cases send with
  | true =>
    refine ⟨data, { contents := some data }, ?_, ?_, fun _ ↦ hload.symm⟩
    · rw [clientRpcWrite, if_pos rfl, hload]
    · rw [serverRpcRead, if_pos rfl]
      exact (reads_rpcReadBytes hdata (staticCastInt_nonneg htyped.2)).bind_pure
  | false =>
    refine ⟨[], locals p, rfl, ?_, fun h ↦ absurd h (by simp)⟩
    rw [serverRpcRead, if_neg (by simp), Operation.parameter, Function.update_eq_self]
    exact reads_pure _

/-- **One operation of a request.** -/
theorem transfers (wire : Wire) {op : Operation ν} (htyped : op.WellTyped)
    (hpassed : Passed ops args op)
    (hplace : ∀ p i n, ∃ address, place p i n = some address)
    (hlength : ∀ s ∈ op.lengthSource, locals.values s = argValues args s)
    (hcount : ∀ s ∈ op.countSource, (locals s).word = requestedFor ops args s) :
    Transfers ops args wire place locals op := by
  cases op with
  | nullable p send recv size => exact transfers_nullable htyped hpassed
  | array p send recv length elem compressible =>
    exact transfers_array htyped hpassed fun s signed hs ↦ hlength s (by rw [hs]; rfl)
  | inOutCount p anchor => exact transfers_inOutCount hpassed
  | optionalArray p elem count => exact transfers_optionalArray hpassed (hcount count rfl)
  | deepStruct p send recv layout => exact transfers_deepStruct htyped hpassed (hplace p)
  | nullTerminated p send lengthWidth => exact transfers_nullTerminated htyped hpassed
  | opaqueType p send recv size => exact transfers_opaqueType htyped hpassed
  | dereference p send recv size => exact transfers_dereference htyped hpassed

end Step

/-! ## What the function is called with -/

section References

variable [DecidableEq ν] {ops : List (Operation ν)} {args : Args ν} {locals : Locals ν}

/-- An argument that was understood is passed on as the caller passed it. -/
theorem serverReference_eq_view {op : Operation ν} (htyped : op.WellTyped)
    (hpassed : Passed ops args op) (h : Understood ops args op (locals op.parameter))
    (hlength : ∀ s ∈ op.lengthSource, locals.values s = argValues args s) :
    serverReference locals op = view ops args op := by
  cases op with
  | nullable p send recv size =>
    obtain ⟨hword, hcontents⟩ := h
    rw [Operation.parameter] at hword hcontents
    rcases hpassed with hnull | hpoints
    -- a null pointer is passed on as null, without a buffer behind it
    · simp [serverReference, view, hword, hnull, Arg.word]
    · have hne := hpoints.word.1.ne'
      cases send with
      | true =>
        simp [serverReference, view, hword, hne, hpoints.ne_null, bufferView, bufferReference,
          hcontents rfl hpoints.ne_null]
      | false =>
        simp [serverReference, view, hword, hne, hpoints.ne_null, bufferView, bufferReference]
  | array p send recv length elem compressible =>
    have hsize : length.transferSize locals.values elem
        = length.transferSize (argValues args) elem :=
      transferSize_congr fun s signed hs ↦ hlength s (by rw [hs]; rfl)
    obtain ⟨size, htransfer, -, -⟩ := hpassed
    -- the buffer holds what was sent; for a size of 0 nothing was read into it
    have hcontents : send = true → (locals p).contents
        = if size ≠ 0 then (args p).load size else some [] := fun hsend ↦ by
      obtain ⟨size', htransfer', hcontents⟩ := h hsend
      obtain rfl := Option.some.inj (htransfer.symm.trans htransfer')
      exact hcontents
    have hbuffer : size ≠ 0 →
        bufferReference send size (locals p).contents = bufferView send size (args p) :=
      fun hne ↦ by
        cases send with
        | true => rw [hcontents rfl, if_pos hne, bufferView]
        | false => rfl
    rw [serverReference, view, hsize, htransfer]
    -- what is passed for a size of 0 depends on where the length comes from
    cases length with
    | const n =>
      by_cases hne : size = 0
      · cases send with
        | true => simp [hcontents, hne]
        | false => simp [bufferReference, hne]
      · simp [hne, hbuffer hne]
    | param s signed =>
      by_cases hne : size = 0
      · simp [hne]
      · simp [hne, hbuffer hne]
  | inOutCount p anchor =>
    obtain ⟨count, hrequested, -, hcontents⟩ := h
    rw [Operation.parameter] at hcontents
    rw [serverReference, view, hcontents, hrequested]
    rfl
  | optionalArray p elem count =>
    obtain ⟨-, hroom⟩ := h
    rw [Operation.parameter] at hroom
    rw [serverReference, view, hroom]
    split_ifs <;> rfl
  | deepStruct p send recv layout =>
    obtain ⟨address, header, arrays, harg, -⟩ := hpassed
    cases send with
    | true =>
      obtain ⟨address', header₁, arrays₁, header', harg', hcontents, hmask, harrays⟩ := h rfl
      rw [harg] at harg'
      obtain ⟨-, rfl, rfl⟩ := Arg.deep.inj harg'
      rw [Operation.parameter] at hcontents harrays
      simp [serverReference, view, harg, hcontents, hmask, harrays]
    | false => simp [serverReference, view, harg]
  | nullTerminated p send lengthWidth =>
    obtain ⟨address, bytes, harg, hcontents⟩ := h
    rw [Operation.parameter] at hcontents
    rw [serverReference, view, harg, if_pos htyped.1, hcontents]
  | opaqueType p send recv size =>
    have hcontents : (locals p).contents = (args p).bytes? := h
    rw [serverReference, view, hcontents, htyped.2.1]
    rfl
  | dereference p send recv size =>
    cases send with
    | true =>
      have hcontents : (locals p).contents = (args p).load size := h rfl
      rw [serverReference, view, hcontents, bufferView]
    | false => rfl

end References

/-! ## The walk over the list

The walk is an induction over the list that is left. What an operation has as its source stands in
front of it, so it is found among what was walked over. -/

section Walk

variable [DecidableEq ν] {ops : List (Operation ν)} {args : Args ν} {wire : Wire}
  {place : ν → ℕ → ℕ → Option ℕ}

theorem requestedFor_eq (htyped : Typed ops) {p anchor : ν} (h : .inOutCount p anchor ∈ ops) :
    requestedFor ops args p = (requestedCount args p anchor).getD 0 := by
  obtain ⟨op, hfind⟩ : ∃ op, ops.find? (fun op ↦ op.parameter = p) = some op :=
    Option.isSome_iff_exists.mp (List.find?_isSome.mpr ⟨_, h, by simp [Operation.parameter]⟩)
  have hkey : op.parameter = p := by simpa using List.find?_some hfind
  have hop : op = .inOutCount p anchor :=
    htyped.eq_of_parameter (List.mem_of_find?_eq_some hfind) h hkey
  rw [requestedFor, hfind, hop]

/-- The variables of all these operations are set. -/
def AllUnderstood (ops : List (Operation ν)) (args : Args ν) (locals : Locals ν)
    (done : List (Operation ν)) : Prop :=
  ∀ op ∈ done, Understood ops args op (locals op.parameter)

theorem AllUnderstood.length {locals : Locals ν} {done : List (Operation ν)}
    (h : AllUnderstood ops args locals done) (htyped : Typed ops) (hsub : done ⊆ ops)
    {op : Operation ν} (hop : op ∈ ops) {s : ν} (hs : s ∈ op.lengthSource)
    (hmem : s ∈ done.map parameter) : locals.values s = argValues args s := by
  obtain ⟨size, hsource⟩ := htyped.lengths op hop s hs
  obtain ⟨op', hop', rfl⟩ := List.mem_map.mp hmem
  have hunderstood := h op' hop'
  rw [htyped.eq_of_parameter (hsub hop') hsource rfl] at hunderstood ⊢
  exact hunderstood

theorem AllUnderstood.count {locals : Locals ν} {done : List (Operation ν)}
    (h : AllUnderstood ops args locals done) (htyped : Typed ops) (hsub : done ⊆ ops)
    {op : Operation ν} (hop : op ∈ ops) {s : ν} (hs : s ∈ op.countSource)
    (hmem : s ∈ done.map parameter) : (locals s).word = requestedFor ops args s := by
  obtain ⟨anchor, hsource⟩ := htyped.counts op hop s hs
  obtain ⟨op', hop', rfl⟩ := List.mem_map.mp hmem
  have hunderstood := h op' hop'
  rw [htyped.eq_of_parameter (hsub hop') hsource rfl] at hunderstood ⊢
  obtain ⟨count, hrequested, hword, -⟩ := hunderstood
  rw [Operation.parameter] at hword ⊢
  rw [requestedFor_eq htyped hsource, hword, hrequested]
  rfl

theorem AllUnderstood.update {locals : Locals ν} {done : List (Operation ν)}
    (h : AllUnderstood ops args locals done) {op : Operation ν} {l : Local}
    (hnew : op.parameter ∉ done.map parameter) (hl : Understood ops args op l) :
    AllUnderstood ops args (Function.update locals op.parameter l) (done ++ [op]) := by
  intro op' hop'
  rcases List.mem_append.mp hop' with hop' | hop'
  · have hne : op'.parameter ≠ op.parameter := fun heq ↦
      hnew (heq ▸ List.mem_map_of_mem hop')
    rw [Function.update_of_ne hne]
    exact h op' hop'
  · obtain rfl := List.mem_singleton.mp hop'
    rwa [Function.update_self]

omit [DecidableEq ν] in
/-- What has its source in front of it finds it among what was walked over. -/
theorem mem_done_of_placed {source : Operation ν → Option ν} {done todo : List (Operation ν)}
    {op : Operation ν} {keys : List ν}
    (h : Placed parameter source keys [] (done ++ op :: todo)) {s : ν} (hs : source op = some s)
    (hmem : s ∈ keys) : s ∈ done.map parameter := (placed_append.mp h).2.1 s hs hmem

omit [DecidableEq ν] in
theorem clientRequest_cons {op : Operation ν} {written rest : List UInt8}
    (h : clientRpcWrite wire args op = some written)
    (hrest : clientRequest wire args ops = some rest) :
    clientRequest wire args (op :: ops) = some (written ++ rest) := by
  obtain ⟨parts, hparts, rfl⟩ := Option.map_eq_some_iff.mp hrest
  rw [clientRequest, List.mapM_cons, h, hparts]
  rfl

theorem serverRead_reads (wire : Wire) (htyped : Typed ops) (horder : InOrder ops)
    (hpassed : ∀ op ∈ ops, Passed ops args op)
    (hplace : ∀ p i n, ∃ address, place p i n = some address) (done todo : List (Operation ν))
    {locals : Locals ν} (hops : ops = done ++ todo) (h : AllUnderstood ops args locals done) :
    ∃ written locals', clientRequest wire args todo = some written ∧
      (serverRead wire place todo locals).Reads written locals' ∧
      AllUnderstood ops args locals' ops := by
  induction todo generalizing done locals with
  | nil =>
    rw [List.append_nil] at hops
    exact ⟨[], locals, rfl, reads_pure _, hops ▸ h⟩
  | cons op todo ih =>
    have hop : op ∈ ops := by
      rw [hops]
      simp
    have hsub : done ⊆ ops := by
      rw [hops]
      exact List.subset_append_left _ _
    have hlength : ∀ s ∈ op.lengthSource, locals.values s = argValues args s := fun s hs ↦ by
      obtain ⟨size, hsource⟩ := htyped.lengths op hop s hs
      exact h.length htyped hsub hop hs
        (mem_done_of_placed (hops ▸ horder.lengths) hs (hops ▸ List.mem_map_of_mem hsource))
    have hcount : ∀ s ∈ op.countSource, (locals s).word = requestedFor ops args s :=
      fun s hs ↦ by
        obtain ⟨anchor, hsource⟩ := htyped.counts op hop s hs
        exact h.count htyped hsub hop hs
          (mem_done_of_placed (hops ▸ horder.counts) hs (hops ▸ List.mem_map_of_mem hsource))
    obtain ⟨written, l, hwrite, hread, hl⟩ :=
      transfers wire (htyped.wellTyped op hop) (hpassed op hop) hplace hlength hcount
    have hnew : op.parameter ∉ done.map parameter := fun hmem ↦ by
      have hnodup := htyped.nodup
      rw [hops, List.map_append, List.map_cons] at hnodup
      exact List.disjoint_of_nodup_append hnodup hmem List.mem_cons_self
    obtain ⟨rest, locals', hrest, hreads, hall⟩ :=
      ih (done ++ [op]) (by rw [hops]; simp) (h.update hnew hl)
    exact ⟨written ++ rest, locals', clientRequest_cons hwrite hrest, hread.bind hreads, hall⟩

/-- **The request round trip.** The handler takes off the connection exactly what the stub put on
it, and calls the function with what the caller passed. -/
theorem request_round_trip (wire : Wire) (htyped : Typed ops) (horder : InOrder ops)
    (hpassed : ∀ op ∈ ops, Passed ops args op)
    (hplace : ∀ p i n, ∃ address, place p i n = some address) :
    ∃ written locals, clientRequest wire args ops = some written ∧
      (serverRead wire place ops fun _ ↦ {}).Reads written locals ∧
      AllUnderstood ops args locals ops ∧
      ∀ op ∈ ops, serverReference locals op = view ops args op := by
  have hstart : AllUnderstood ops args (fun _ ↦ {}) [] := fun op hop ↦ absurd hop (by simp)
  obtain ⟨written, locals, hwrite, hread, hall⟩ :=
    serverRead_reads wire htyped horder hpassed hplace [] ops rfl hstart
  refine ⟨written, locals, hwrite, hread, hall, fun op hop ↦ ?_⟩
  refine serverReference_eq_view (htyped.wellTyped op hop) (hpassed op hop) (hall op hop)
    fun s hs ↦ ?_
  obtain ⟨size, hsource⟩ := htyped.lengths op hop s hs
  exact hall.length htyped (List.Subset.refl ops) hop hs (List.mem_map_of_mem hsource)

end Walk

end Codegen

end Lupine
