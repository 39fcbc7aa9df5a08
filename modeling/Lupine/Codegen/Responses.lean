import Lupine.Codegen.Requests

/-!
# Responses of generated handlers

What the handler writes of what the function left, the stub reads exactly, into the memory that the
caller pointed to and not beyond it. Counts change between request and response: an optional array
comes back with as many elements as the function found, which the stub reads off the count that it
has just stored.

## What a function has to fill

The variables of a handler for what is only received have no value before the call, and the handler
sends them back whatever the function did. Where a function leaves such a parameter alone, as most
do when they fail, the caller of the stub finds bytes of the server in memory that a direct call
would have left as it was. So functions are asked here to fill what they are given to fill, also
when they report an error. What is sent and received can be left alone: it is filled with what was
there.
-/

namespace Lupine

open Foundation Reader

namespace Codegen

open Operation

variable {ν : Type}

/-! ## What a function leaves

What is left is given by parameter. A parameter that is only received must be left something. -/

/-- The bytes at the start of what is pointed to are replaced. -/
def Arg.overwrite (data : List UInt8) : Arg → Arg
  | .block address bytes => .block address (data ++ bytes.drop data.length)
  | arg => arg

theorem Arg.Points.store {size : ℕ} {arg : Arg} (h : arg.Points size) {data : List UInt8}
    (hdata : data.length ≤ size) : arg.store data = some (arg.overwrite data) := by
  obtain ⟨address, bytes, rfl, hle, -⟩ := h
  exact if_pos (hdata.trans hle)

theorem Arg.load_overwrite {size : ℕ} {arg : Arg} (h : arg.Points size) {data : List UInt8}
    (hdata : data.length = size) : (arg.overwrite data).load size = some data := by
  obtain ⟨address, bytes, rfl, -⟩ := h
  subst hdata
  rw [overwrite, load, loadContents, if_pos (by simp), List.take_left]

section Answers

variable [DecidableEq ν] (ops : List (Operation ν)) (args : Args ν) (left : ν → Option Left)

/-- How many elements the function found for the arrays of a count. -/
def foundFor (count : ν) : ℕ := ((left count).map fun l ↦ leValue l.contents).getD 0

/-- What the API promises: a buffer that there is is left with its size, the found elements are no
more than was asked for where there is an array, and the arrays of a struct are as long as its
counts say. -/
def Answered : Operation ν → Prop
  | .nullable p _ recv size =>
    recv = true → args p ≠ .null → ∃ l ∈ left p, l.contents.length = size
  | .array p _ recv length elem _ => recv = true → ∀ size,
    length.transferSize (argValues args) elem = some size →
      (size = 0 ∧ left p = none) ∨ ∃ l ∈ left p, l.contents.length = size
  | .inOutCount p _ => ∃ l ∈ left p, l.contents.length = pointerBytes
  | .optionalArray p elem count => args p ≠ .null →
    (∃ l ∈ left p, l.contents.length = requestedFor ops args count * elem) ∧
      foundFor left count ≤ requestedFor ops args count
  | .deepStruct p _ recv layout => recv = true → ∃ l ∈ left p, l.contents.length = layout.size ∧
    ArraysGiven l.contents layout.members l.arrays
  | .dereference p _ recv size => recv = true → ∃ l ∈ left p, l.contents.length = size
  | .nullTerminated .. | .opaqueType .. => True

/-- The argument after a direct call: what the function left is in the memory of the caller, which
is as it was where the function left it alone. -/
def received : Operation ν → Arg
  | .nullable p _ recv _ | .array p _ recv .. | .dereference p _ recv _ =>
    if recv then ((left p).map fun l ↦ (args p).overwrite l.contents).getD (args p) else args p
  | .inOutCount p _ => ((left p).map fun l ↦ (args p).overwrite l.contents).getD (args p)
  | .optionalArray p elem count =>
    ((left p).map fun l ↦
      (args p).overwrite (l.contents.take (foundFor left count * elem))).getD (args p)
  | .deepStruct p _ recv layout =>
    if recv then
      match args p, left p with
      | .deep address _ _, some l => .deep address l.contents
        (arraysIn l.contents layout.members l.arrays)
      | arg, _ => arg
    else args p
  | .nullTerminated p .. | .opaqueType p .. => args p

/-- An argument as it can be compared across machines: without the pointers in a struct. -/
def observe : Operation ν → Arg → Arg
  | .deepStruct _ _ _ layout, .deep address header arrays =>
    .deep address (layout.mask header) arrays
  | _, arg => arg

end Answers

/-! ## One operation

The stub reads into memory that the caller pointed to, of the size that the caller gave. -/

section Step

variable [DecidableEq ν] {ops : List (Operation ν)} {args args' : Args ν} {left : ν → Option Left}
  {wire : Wire} {cache : ν → ℕ → ℕ → Option ℕ} {locals : Locals ν} {p : ν} {send recv : Bool}
  {size : ℕ}

theorem loadContents_eq {data : List UInt8} (h : data.length = size) :
    loadContents data size = some data := by
  rw [loadContents_of_le h.ge, List.take_of_length_le h.le]

theorem reads_storeAt {data : List UInt8} (h : (args p).Points size) (hargs : args' p = args p)
    (hdata : data.length ≤ size) :
    (storeAt args' p data).Reads [] (Function.update args' p ((args p).overwrite data)) := by
  rw [storeAt, hargs, h.store hdata]
  exact reads_pure _

/-- The stub reads what the handler wrote, and the argument is as after a direct call. -/
def Returns (args args' : Args ν) (left : ν → Option Left) (wire : Wire)
    (cache : ν → ℕ → ℕ → Option ℕ) (locals : Locals ν) (op : Operation ν) : Prop :=
  ∃ written arg, serverRpcWrite wire locals op = some written ∧
    (clientRpcRead wire cache args' op).Reads written (Function.update args' op.parameter arg) ∧
    observe op arg = observe op (received args left op)

theorem returns_of_not_received {op : Operation ν} (hargs : args' op.parameter = args op.parameter)
    (hwrite : serverRpcWrite wire locals op = some [])
    (hread : clientRpcRead wire cache args' op = pure args')
    (hreceived : received args left op = args op.parameter) :
    Returns args args' left wire cache locals op := by
  refine ⟨[], args op.parameter, hwrite, ?_, by rw [hreceived]⟩
  rw [hread, ← hargs, Function.update_eq_self]
  exact reads_pure _

theorem returns_nullable (htyped : (Operation.nullable p send recv size).WellTyped)
    (hpassed : Passed ops args (.nullable p send recv size)) (hargs : args' p = args p)
    (hanswered : Answered ops args left (.nullable p send recv size))
    (hword : (locals p).word = (args p).word)
    (hleft : recv = true → ∀ l ∈ left p, (locals p).contents = some l.contents) :
    Returns args args' left wire cache locals (.nullable p send recv size) := by
  cases recv with
  | false => exact returns_of_not_received hargs rfl rfl rfl
  | true =>
    rcases hpassed with hnull | hpoints
    · refine ⟨leBytes pointerBytes 0 ++ [], .null, ?_, ?_, ?_⟩
      · simp [serverRpcWrite, hword, hnull, writeIf, Arg.word]
      · rw [clientRpcRead, if_pos rfl]
        refine (reads_rpcReadWord (by decide) (by decide)).bind ?_
        rw [if_neg (by simp), Operation.parameter, ← hnull, ← hargs, Function.update_eq_self]
        exact reads_pure _
      · rw [received, hnull]
        cases left p <;> rfl
    · obtain ⟨l, hl, hlen⟩ := hanswered rfl hpoints.ne_null
      obtain ⟨hpos, hlt⟩ := hpoints.word
      refine ⟨leBytes pointerBytes (args p).word ++ l.contents, (args p).overwrite l.contents,
        ?_, ?_, ?_⟩
      · simp [serverRpcWrite, hword, hpos.ne', writeIf, hleft rfl l hl, loadContents_eq hlen]
      · rw [clientRpcRead, if_pos rfl]
        refine (reads_rpcReadWord (by decide) hlt).bind ?_
        rw [if_pos hpos.ne']
        exact (reads_rpcReadBytes hlen (staticCastInt_nonneg htyped.2)).bind_nil
          (reads_storeAt hpoints hargs hlen.le)
      · rw [received, if_pos rfl, Option.mem_def.mp hl]
        rfl

theorem returns_array {length : Length ν} {elem : ℕ} {compressible : Bool}
    (htyped : (Operation.array p send recv length elem compressible).WellTyped)
    (hpassed : Passed ops args (.array p send recv length elem compressible))
    (hargs : args' p = args p)
    (hanswered : Answered ops args left (.array p send recv length elem compressible))
    (hleft : recv = true → ∀ l ∈ left p, (locals p).contents = some l.contents)
    (hlocals : ∀ s signed, length = .param s signed → locals.values s = argValues args s)
    (hargs' : ∀ s signed, length = .param s signed → argValues args' s = argValues args s) :
    Returns args args' left wire cache locals (.array p send recv length elem compressible) := by
  cases recv with
  | false => exact returns_of_not_received hargs rfl rfl rfl
  | true =>
    obtain ⟨size, htransfer, hsize, hpoints⟩ := hpassed
    obtain ⟨hbyte, hcompresses⟩ := htyped.array
    -- handler and stub compute the same size, as the lengths are not changed by the call
    have hserver : length.byteSize locals.values elem = some size := by
      rw [hbyte, transferSize_congr hlocals, htransfer]
    have hclient : length.byteSize (argValues args') elem = some size := by
      rw [hbyte, transferSize_congr hargs', htransfer]
    rcases eq_or_ne size 0 with rfl | hne
    · refine returns_of_not_received hargs ?_ ?_ ?_
      · rw [serverRpcWrite, if_pos rfl, hserver]
        rfl
      · rw [clientRpcRead, if_pos rfl, hclient]
        rfl
      · rw [received, if_pos rfl, Operation.parameter]
        -- nothing is sent of an empty array, and nothing in the caller's memory changes
        rcases hanswered rfl 0 htransfer with ⟨-, hnone⟩ | ⟨l, hl, hlen⟩
        · rw [hnone]
          rfl
        · rw [Option.mem_def.mp hl, Option.map_some, List.length_eq_zero_iff.mp hlen]
          cases args p <;> rfl
    · obtain ⟨l, hl, hlen⟩ := (hanswered rfl size htransfer).resolve_left fun h ↦ hne h.1
      refine ⟨wire.payload compressible l.contents, (args p).overwrite l.contents, ?_, ?_, ?_⟩
      · simp [serverRpcWrite, hserver, hcompresses, writeIf, hne, hleft rfl l hl,
          loadContents_eq hlen]
      · simp only [clientRpcRead, if_true, hclient, hcompresses, ne_eq, hne, not_false_eq_true]
        exact (reads_readPayload wire compressible hlen hsize).bind_nil
          (reads_storeAt (hpoints hne) hargs hlen.le)
      · rw [received, if_pos rfl, Option.mem_def.mp hl]
        rfl

theorem returns_inOutCount {anchor : ν} (hpassed : Passed ops args (.inOutCount p anchor))
    (hargs : args' p = args p) (hanswered : Answered ops args left (.inOutCount p anchor))
    (hleft : ∀ l ∈ left p, (locals p).contents = some l.contents) :
    Returns args args' left wire cache locals (.inOutCount p anchor) := by
  obtain ⟨l, hl, hlen⟩ := hanswered
  refine ⟨l.contents, (args p).overwrite l.contents, ?_, ?_, ?_⟩
  · rw [serverRpcWrite, hleft l hl]
    exact loadContents_eq hlen
  · rw [clientRpcRead]
    exact (reads_rpcReadBytes hlen (by decide)).bind_nil (reads_storeAt hpassed hargs hlen.le)
  · rw [received, Option.mem_def.mp hl]
    rfl

/-- The handler has the count from the function, the stub from the response. -/
theorem returns_optionalArray {elem : ℕ} {count : ν} {found : Left}
    (hpassed : Passed ops args (.optionalArray p elem count)) (hargs : args' p = args p)
    (hanswered : Answered ops args left (.optionalArray p elem count))
    (hword : (locals p).word ≠ 0 ↔ args p ≠ .null)
    (hroom : (locals p).room
      = if args p ≠ .null then some (requestedFor ops args count * elem) else none)
    (hleft : ∀ l ∈ left p, (locals p).contents = some l.contents)
    (hfound : left count = some found) (hcount : (locals count).contents = some found.contents)
    (hstored : (args' count).load pointerBytes = some found.contents) :
    Returns args args' left wire cache locals (.optionalArray p elem count) := by
  rcases hpassed with hnull | ⟨hne, hsize, hpoints⟩
  -- a null array: nothing is sent for it, and nothing is read
  · refine returns_of_not_received hargs ?_ ?_ ?_
    · rw [serverRpcWrite, hcount]
      exact if_neg fun h ↦ hword.mp h.1 hnull
    · rw [clientRpcRead, hargs, if_neg (not_not_intro hnull)]
    · rw [received, Operation.parameter, hnull]
      cases left p <;> rfl
  · obtain ⟨⟨l, hl, hlen⟩, hfew⟩ := hanswered hpoints.ne_null
    have hvalue : foundFor left count = leValue found.contents := by rw [foundFor, hfound]; rfl
    rw [hvalue] at hfew
    -- the function found no more than was asked for, so no size wraps around
    have hle : leValue found.contents * elem ≤ requestedFor ops args count * elem :=
      Nat.mul_le_mul_right elem hfew
    have hmod : leValue found.contents * elem % 256 ^ 8 = leValue found.contents * elem :=
      Nat.mod_eq_of_lt (by omega)
    have htake : (l.contents.take (leValue found.contents * elem)).length
        = leValue found.contents * elem := List.length_take_of_le (by omega)
    have hreceived : received args left (.optionalArray p elem count)
        = (args p).overwrite (l.contents.take (leValue found.contents * elem)) := by
      rw [received, Option.mem_def.mp hl, hvalue]
      rfl
    have hload : loadContents l.contents (leValue found.contents * elem)
        = some (l.contents.take (leValue found.contents * elem)) :=
      loadContents_of_le (by omega)
    rcases eq_or_ne (leValue found.contents) 0 with hzero | hpos
    -- for a count of 0 the handler sends nothing, and the stub knows it from the count
    · refine returns_of_not_received hargs ?_ ?_ ?_
      · rw [serverRpcWrite, hcount]
        exact if_neg fun h ↦ h.2 hzero
      · rw [clientRpcRead, hargs, if_pos hpoints.ne_null, hstored]
        exact if_neg fun h ↦ h hzero
      · rw [hreceived, hzero, Nat.zero_mul, List.take_zero, Operation.parameter]
        cases args p <;> rfl
    -- the handler sends as many elements as were found, out of room for as many as were asked for
    · refine ⟨l.contents.take (leValue found.contents * elem), _, ?_, ?_,
        congrArg _ hreceived.symm⟩
      · rw [serverRpcWrite, hcount, Option.bind_eq_bind, Option.bind_some,
          if_pos ⟨hword.mpr hpoints.ne_null, hpos⟩, hroom, if_pos hpoints.ne_null,
          Option.bind_eq_bind, Option.bind_some]
        dsimp only
        rw [hmod, if_pos hle, hleft l hl, Option.bind_some, hload]
      · rw [clientRpcRead, hargs, if_pos hpoints.ne_null, hstored]
        dsimp only
        rw [if_pos hpos, hmod]
        exact (reads_rpcReadBytes htake (staticCastInt_nonneg (by omega))).bind_nil
          (reads_storeAt hpoints hargs (by omega))

theorem returns_deepStruct {layout : StructLayout}
    (htyped : (Operation.deepStruct p send recv layout).WellTyped)
    (hpassed : Passed ops args (.deepStruct p send recv layout)) (hargs : args' p = args p)
    (hanswered : Answered ops args left (.deepStruct p send recv layout))
    (hleft : recv = true → ∀ l ∈ left p, (locals p).contents = some l.contents ∧
      (locals p).arrays = l.arrays)
    (hcache : ∀ i n, ∃ address, cache p i n = some address) :
    Returns args args' left wire cache locals (.deepStruct p send recv layout) := by
  cases recv with
  | false => exact returns_of_not_received hargs rfl rfl rfl
  | true =>
    obtain ⟨address, header, arrays, harg, -⟩ := hpassed
    obtain ⟨l, hl, hlen, hgiven⟩ := hanswered rfl
    obtain ⟨hcontents, harrays⟩ := hleft rfl l hl
    obtain ⟨written, header', hwrite, hread, hmask⟩ :=
      reads_readMembers hcache 0 (List.Subset.refl layout.members) hgiven
    refine ⟨l.contents ++ written, .deep address header'
      (arraysIn l.contents layout.members l.arrays), ?_, ?_, ?_⟩
    · simp [serverRpcWrite, hcontents, harrays, hlen, hwrite]
    · simp only [clientRpcRead, if_true, hargs, harg]
      exact (reads_rpcReadBytes hlen (staticCastInt_nonneg htyped.2)).bind hread.bind_pure
    · rw [received, if_pos rfl, harg, Option.mem_def.mp hl, observe, observe, hmask]

theorem returns_dereference (htyped : (Operation.dereference p send recv size).WellTyped)
    (hpassed : Passed ops args (.dereference p send recv size)) (hargs : args' p = args p)
    (hanswered : Answered ops args left (.dereference p send recv size))
    (hleft : recv = true → ∀ l ∈ left p, (locals p).contents = some l.contents) :
    Returns args args' left wire cache locals (.dereference p send recv size) := by
  cases recv with
  | false => exact returns_of_not_received hargs rfl rfl rfl
  | true =>
    obtain ⟨l, hl, hlen⟩ := hanswered rfl
    refine ⟨l.contents, (args p).overwrite l.contents, ?_, ?_, ?_⟩
    · rw [serverRpcWrite, if_pos rfl, hleft rfl l hl]
      exact loadContents_eq hlen
    · rw [clientRpcRead, if_pos rfl]
      exact (reads_rpcReadBytes hlen (staticCastInt_nonneg htyped.2)).bind_nil
        (reads_storeAt hpassed hargs hlen.le)
    · rw [received, if_pos rfl, Option.mem_def.mp hl]
      rfl

end Step

/-! ## The variables of the handler after the call

A length is not among what the function left, so the sizes are those of the request. -/

section AfterCall

variable [DecidableEq ν] {ops : List (Operation ν)} {args : Args ν} {left : ν → Option Left}
  {locals : Locals ν}

@[simp] theorem word_afterCall (p : ν) : (afterCall locals left ops p).word = (locals p).word := by
  rw [afterCall]
  split
  · split_ifs <;> rfl
  · rfl

@[simp] theorem room_afterCall (p : ν) : (afterCall locals left ops p).room = (locals p).room := by
  rw [afterCall]
  split
  · split_ifs <;> rfl
  · rfl

theorem afterCall_of_receives (locals : Locals ν) (left : ν → Option Left) {op : Operation ν}
    (hop : op ∈ ops) (h : op.receives = true) :
    ∀ l ∈ left op.parameter, (afterCall locals left ops op.parameter).contents = some l.contents ∧
      (afterCall locals left ops op.parameter).arrays = l.arrays := by
  intro l hl
  have hany : (ops.any fun op' ↦ op'.parameter = op.parameter && op'.receives) = true :=
    List.any_eq_true.mpr ⟨op, hop, by simp [h]⟩
  have hafter : afterCall locals left ops op.parameter
      = { locals op.parameter with contents := some l.contents, arrays := l.arrays } := by
    rw [afterCall, Option.mem_def.mp hl]
    exact if_pos hany
  rw [hafter]
  exact ⟨rfl, rfl⟩

theorem afterCall_of_not_receives (htyped : Typed ops) (locals : Locals ν) (left : ν → Option Left)
    {op : Operation ν} (hop : op ∈ ops) (h : op.receives = false) :
    afterCall locals left ops op.parameter = locals op.parameter := by
  have hnone : ¬(ops.any fun op' ↦ op'.parameter = op.parameter && op'.receives) = true := by
    intro hany
    obtain ⟨op', hop', htrue⟩ := List.any_eq_true.mp hany
    obtain ⟨hkey, hreceives⟩ := Bool.and_eq_true_iff.mp htrue
    rw [htyped.eq_of_parameter hop' hop (of_decide_eq_true hkey), h] at hreceives
    exact absurd hreceives (by simp)
  rw [afterCall]
  split
  · exact if_neg hnone
  · rfl

/-- A length is not among what the function left. -/
theorem values_afterCall (htyped : Typed ops) (hall : AllUnderstood ops args locals ops)
    {op : Operation ν} (hop : op ∈ ops) {s : ν} (hs : s ∈ op.lengthSource) :
    (afterCall locals left ops).values s = argValues args s := by
  obtain ⟨size, hsource⟩ := htyped.lengths op hop s hs
  have hsame := afterCall_of_not_receives htyped locals left hsource rfl
  rw [← hall.length htyped (List.Subset.refl ops) hop hs (List.mem_map_of_mem hsource),
    Locals.values, Locals.values]
  exact congrArg Local.contents hsame

end AfterCall

/-! ## The walk over the list

Up to the operation at hand the memory of the caller is as after a direct call, and behind it as
before the call. The walk is over the same list as that of the request. -/

section Walk

variable [DecidableEq ν] {ops : List (Operation ν)} {args args' : Args ν} {left : ν → Option Left}
  {wire : Wire} {cache : ν → ℕ → ℕ → Option ℕ} {locals : Locals ν}

/-- So far the memory of the caller is as after a direct call; what is to come is as before it. -/
structure Returned (args : Args ν) (left : ν → Option Left) (done todo : List (Operation ν))
    (args' : Args ν) : Prop where
  settled : ∀ op ∈ done,
    observe op (args' op.parameter) = observe op (received args left op)
  untouched : ∀ op ∈ todo, args' op.parameter = args op.parameter
  others : ∀ p, p ∉ (done ++ todo).map parameter → args' p = args p

omit [DecidableEq ν] in
theorem Returned.opaqueType {done todo : List (Operation ν)}
    (h : Returned args left done todo args') {s : ν} {size : ℕ}
    (hmem : .opaqueType s true false size ∈ done ++ todo) :
    args' s = args s := by
  rcases List.mem_append.mp hmem with hmem | hmem
  · exact h.settled _ hmem
  · exact h.untouched _ hmem

theorem Returned.step {done todo : List (Operation ν)} {op : Operation ν} {arg : Arg}
    (h : Returned args left done (op :: todo) args')
    (hnodup : ((done ++ op :: todo).map parameter).Nodup)
    (harg : observe op arg = observe op (received args left op)) :
    Returned args left (done ++ [op]) todo (Function.update args' op.parameter arg) := by
  rw [List.map_append, List.map_cons] at hnodup
  have hdone : op.parameter ∉ done.map parameter := fun hmem ↦
    List.disjoint_of_nodup_append hnodup hmem List.mem_cons_self
  have htodo : op.parameter ∉ todo.map parameter :=
    (List.nodup_cons.mp (List.Nodup.of_append_right hnodup)).1
  have hne : ∀ {ops : List (Operation ν)}, op.parameter ∉ ops.map parameter →
      ∀ op' ∈ ops, op'.parameter ≠ op.parameter :=
    fun hnot op' hop' heq ↦ hnot (heq ▸ List.mem_map_of_mem hop')
  refine ⟨fun op' hop' ↦ ?_, fun op' hop' ↦ ?_, fun p hp ↦ ?_⟩
  · rcases List.mem_append.mp hop' with hop' | hop'
    · rw [Function.update_of_ne (hne hdone op' hop')]
      exact h.settled op' hop'
    · obtain rfl := List.mem_singleton.mp hop'
      rwa [Function.update_self]
  · rw [Function.update_of_ne (hne htodo op' hop')]
    exact h.untouched op' (List.mem_cons_of_mem _ hop')
  · rw [List.append_assoc, List.singleton_append] at hp
    have hself : p ≠ op.parameter := fun heq ↦ hp (heq ▸ by simp)
    rw [Function.update_of_ne hself]
    exact h.others p hp

/-- **One operation of a response.** -/
theorem returns (wire : Wire) (htyped : Typed ops) (horder : InOrder ops)
    (hpassed : ∀ op ∈ ops, Passed ops args op) (hanswered : ∀ op ∈ ops, Answered ops args left op)
    (hall : AllUnderstood ops args locals ops)
    (hcache : ∀ p i n, ∃ address, cache p i n = some address) {done todo : List (Operation ν)}
    {op : Operation ν} (hops : ops = done ++ op :: todo)
    (h : Returned args left done (op :: todo) args') :
    Returns args args' left wire cache (afterCall locals left ops) op := by
  have hop : op ∈ ops := hops ▸ List.mem_append_right _ List.mem_cons_self
  have hwell := htyped.wellTyped op hop
  have hpass := hpassed op hop
  have hanswer := hanswered op hop
  have hargs := h.untouched op List.mem_cons_self
  have hunderstood := hall op hop
  have hleft : op.receives = true → _ :=
    afterCall_of_receives locals left hop
  cases op with
  | nullable p send recv size =>
    refine returns_nullable hwell hpass hargs hanswer ?_ fun hrecv ↦ ?_
    · rw [word_afterCall]
      exact hunderstood.1
    · exact fun l hl ↦ (hleft (by simp [receives, Operation.recv, hrecv]) l hl).1
  | array p send recv length elem compressible =>
    refine returns_array hwell hpass hargs hanswer (fun hrecv ↦ ?_) (fun s signed hs ↦ ?_)
      fun s signed hs ↦ ?_
    · exact fun l hl ↦ (hleft (by simp [receives, Operation.recv, hrecv]) l hl).1
    · exact values_afterCall htyped hall hop (by rw [hs]; rfl)
    -- a length is not received, so its variable still has the value that it was called with
    · obtain ⟨size, hsource⟩ := htyped.lengths _ hop s (by rw [hs]; rfl)
      rw [argValues, argValues, h.opaqueType (hops ▸ hsource)]
  | inOutCount p anchor =>
    exact returns_inOutCount hpass hargs hanswer fun l hl ↦ (hleft rfl l hl).1
  | optionalArray p elem count =>
    -- the count stands before the array, so the stub has stored what the function found
    obtain ⟨anchor, hsource⟩ := htyped.counts _ hop count rfl
    have hdone := mem_done_of_placed (hops ▸ horder.counts) (s := count) rfl
      (hops ▸ List.mem_map_of_mem hsource)
    obtain ⟨op', hop', hkey⟩ := List.mem_map.mp hdone
    have hcountop : op' = .inOutCount count anchor :=
      htyped.eq_of_parameter (hops ▸ List.mem_append_left _ hop') hsource hkey
    have hstored := h.settled op' hop'
    rw [hcountop] at hstored
    obtain ⟨found, hfound, hlen⟩ := hanswered _ hsource
    refine returns_optionalArray hpass hargs hanswer ?_ ?_ (fun l hl ↦ (hleft rfl l hl).1) hfound
      ?_ ?_
    · rw [word_afterCall]
      exact hunderstood.1
    · rw [room_afterCall]
      exact hunderstood.2
    · exact (afterCall_of_receives locals left hsource rfl found hfound).1
    · have hval : args' count = received args left (.inOutCount count anchor) := hstored
      rw [hval, received, Option.mem_def.mp hfound]
      exact Arg.load_overwrite (hpassed _ hsource) hlen
  | deepStruct p send recv layout =>
    exact returns_deepStruct hwell hpass hargs hanswer
      (fun hrecv ↦ hleft (by simp [receives, Operation.recv, hrecv])) (hcache p)
  | nullTerminated p send lengthWidth => exact returns_of_not_received hargs rfl rfl rfl
  | opaqueType p send recv size =>
    obtain ⟨-, rfl, -⟩ := hwell
    exact returns_of_not_received hargs rfl rfl rfl
  | dereference p send recv size =>
    exact returns_dereference hwell hpass hargs hanswer
      fun hrecv l hl ↦ (hleft (by simp [receives, Operation.recv, hrecv]) l hl).1

omit [DecidableEq ν] in
theorem serverResponse_cons {op : Operation ν} {written rest : List UInt8}
    (h : serverRpcWrite wire locals op = some written)
    (hrest : serverResponse wire locals ops = some rest) :
    serverResponse wire locals (op :: ops) = some (written ++ rest) := by
  obtain ⟨parts, hparts, rfl⟩ := Option.map_eq_some_iff.mp hrest
  rw [serverResponse, List.mapM_cons, h, hparts]
  rfl

theorem clientRead_reads (wire : Wire) (htyped : Typed ops) (horder : InOrder ops)
    (hpassed : ∀ op ∈ ops, Passed ops args op) (hanswered : ∀ op ∈ ops, Answered ops args left op)
    (hall : AllUnderstood ops args locals ops)
    (hcache : ∀ p i n, ∃ address, cache p i n = some address) (done todo : List (Operation ν))
    (hops : ops = done ++ todo) (h : Returned args left done todo args') :
    ∃ written args'', serverResponse wire (afterCall locals left ops) todo = some written ∧
      (clientRead wire cache todo args').Reads written args'' ∧
      Returned args left ops [] args'' := by
  induction todo generalizing done args' with
  | nil =>
    rw [List.append_nil] at hops
    exact ⟨[], args', rfl, reads_pure _, hops ▸ h⟩
  | cons op todo ih =>
    obtain ⟨written, arg, hwrite, hread, harg⟩ :=
      returns wire htyped horder hpassed hanswered hall hcache hops h
    obtain ⟨rest, args'', hrest, hreads, hreturned⟩ :=
      ih (done ++ [op]) (by rw [hops]; simp) (h.step (hops ▸ htyped.nodup) harg)
    exact ⟨written ++ rest, args'', serverResponse_cons hwrite hrest, hread.bind hreads,
      hreturned⟩

/-- **The response round trip.** The stub takes off the connection exactly what the handler put on
it, and the memory of the caller is as the function would have left it. -/
theorem response_round_trip (wire : Wire) (htyped : Typed ops) (horder : InOrder ops)
    (hpassed : ∀ op ∈ ops, Passed ops args op) (hanswered : ∀ op ∈ ops, Answered ops args left op)
    (hall : AllUnderstood ops args locals ops)
    (hcache : ∀ p i n, ∃ address, cache p i n = some address) :
    ∃ written args', serverResponse wire (afterCall locals left ops) ops = some written ∧
      (clientRead wire cache ops args).Reads written args' ∧
      (∀ op ∈ ops, observe op (args' op.parameter) = observe op (received args left op)) ∧
      ∀ p, p ∉ ops.map parameter → args' p = args p := by
  have hstart : Returned args left [] ops args :=
    ⟨fun op hop ↦ absurd hop (by simp), fun _ _ ↦ rfl, fun _ _ ↦ rfl⟩
  obtain ⟨written, args', hwrite, hread, hreturned⟩ := clientRead_reads wire htyped horder hpassed
    hanswered hall hcache [] ops rfl hstart
  refine ⟨written, args', hwrite, hread, hreturned.settled, fun p hp ↦ ?_⟩
  exact hreturned.others p (by rwa [List.append_nil])

end Walk

end Codegen

end Lupine
