import Lupine.Codegen.Responses

/-!
# Calls through generated code

An API function that a client calls through its generated stub runs on the server, where the handler
of its opcode calls it. This file puts the two halves together: a whole request with its id, lane
and opcode, the handler, the response, and the loop of a server that takes one request after the
other. The function itself is a parameter: it works on the state of the server, sees its arguments,
and leaves something in the memory it was given. A direct call is the same function applied to what
the caller passed, so that running calls remotely can be compared with running them in place.

## Functions that are not waited for

A function that is annotated `@async` only sends. Its handler calls it and answers nothing, and its
stub returns success once the request is queued, whatever the function will say. So the caller of
such a function is told something else than in place, and finds the same memory; what the function
does to the state of the server is the same, and comes before what later calls do.

## What is left out

The functions are those of which both halves are generated. The options `DEFERRED_DTOH` and `STDOUT`
of `@synchronize`, with which a handler answers more than its parameters, stand at functions only
whose handlers are written by hand. A plain `@synchronize` adds nothing to a request or an answer:
its stub brings the pages of mapped memory to the server before the call and back behind it, which
the copies between the two machines are about and not the calls. The choice of the route, the caches
that a stub asks before the call, and the notes it makes after it are left out as well, and so are
the two functions whose stubs rewrite PCI ids.
-/

namespace Lupine

open Foundation Reader

namespace Codegen

open Operation

variable {σ ν : Type}

/-- A function of the API with its annotation. Its opcode is not negative, and its operations are in
the order in which `parse_annotation` leaves them. -/
structure ApiFunction (σ ν : Type) where
  opcode : ℕ
  params : List ν
  ops : List (Operation ν)
  resultBytes : ℕ
  /-- `async_fire_forget`. -/
  async : Bool := false
  /-- What the function does: the next state, what it leaves in memory where it leaves something,
  and its result. -/
  run : σ → List Seen → σ × (ν → Option Left) × List UInt8
  opcode_lt : opcode < 2 ^ 31
  resultBytes_lt : resultBytes < 2 ^ 31
  typed : Typed ops
  inOrder : InOrder ops
  /-- `validate_async_annotation`. -/
  sendOnly : async = true → ∀ op ∈ ops, op.receives = false

/-- A call that a client makes, with the id and the lane of its request. -/
structure Call (σ ν : Type) where
  function : ApiFunction σ ν
  id : ℕ
  lane : ℕ
  args : Args ν
  id_lt : id < 256 ^ 4
  lane_lt : lane < 256 ^ 8

variable [DecidableEq ν]

def callArgs (params : List ν) (ops : List (Operation ν)) (reference : Operation ν → Option Seen) :
    Option (List Seen) :=
  (params.flatMap fun p ↦ ops.filter (·.parameter = p)).mapM reference

/-- `-1`, the opcode of a response. -/
def responseOpcode : ℕ := 256 ^ 4 - 1

/-- A message: the first three entries of the write queue, and what the builder queued. -/
def message (id lane opcode : ℕ) (payload : List UInt8) : List UInt8 :=
  leBytes 4 id ++ (leBytes 8 lane ++ (leBytes 4 opcode ++ payload))

/-! ## The server

A turn takes a request off the connection and runs the handler of its opcode. The state of the
server is whatever the functions work on. -/

section Server

variable (wire : Wire) (place : ν → ℕ → ℕ → Option ℕ)

/-- The handler of a function: the reads, the call, and the writes with the result, unless the
function is not waited for. -/
def handle (f : ApiFunction σ ν) (state : σ) : Reader UInt8 (σ × Option (List UInt8)) := do
  let locals ← serverRead wire place f.ops fun _ ↦ {}
  match callArgs f.params f.ops (serverReference locals) with
  | none => failure
  | some seen =>
    if f.async then pure ((f.run state seen).1, none)
    else
      match serverResponse wire (afterCall locals (f.run state seen).2.1 f.ops) f.ops with
      | none => failure
      | some response => pure ((f.run state seen).1, some (response ++ (f.run state seen).2.2))

def answerMessage (id lane : ℕ) (answer : Option (List UInt8)) : List UInt8 :=
  answer.elim [] (message id lane responseOpcode)

/-- One turn of the server: a request is taken, and the handler of its opcode answers it. -/
def serveRequest (table : List (ApiFunction σ ν)) (state : σ) :
    Reader UInt8 (σ × List UInt8) := do
  let id ← rpcReadWord 4
  let lane ← rpcReadWord 8
  let opcode ← rpcReadWord 4
  match table.find? (·.opcode = opcode) with
  | none => failure
  | some f => do
    let answer ← handle wire place f state
    pure (answer.1, answerMessage id lane answer.2)

def serve (table : List (ApiFunction σ ν)) : ℕ → σ → Reader UInt8 (σ × List UInt8)
  | 0, state => pure (state, [])
  | n + 1, state => do
    let first ← serveRequest wire place table state
    let rest ← serve table n first.1
    pure (rest.1, first.2 ++ rest.2)

end Server

/-! ## The client

A call comes with its memory. The memory is compared at the parameters, with the pointers into the
caller's memory left out, since those of the handler are its own. -/

namespace Call

variable (wire : Wire) (cache : ν → ℕ → ℕ → Option ℕ) (call : Call σ ν)

/-- The request of the stub, unless the stub refuses the arguments. -/
def request : Option (List UInt8) :=
  if call.function.ops.any (clientRejects call.args) then none
  else (clientRequest wire call.args call.function.ops).map
    (message call.id call.lane call.function.opcode)

/-- The memory of the caller, as far as it can be compared across machines. -/
def observed (args : Args ν) : Args ν := fun p ↦
  match call.function.ops.find? (·.parameter = p) with
  | some op => observe op (args p)
  | none => args p

/-- `CUDA_SUCCESS`. -/
def success : List UInt8 := List.replicate call.function.resultBytes 0

/-- The stub waits for the response to its request and reads it into the memory of the caller; where
there is none to wait for it returns success. -/
def response : Reader UInt8 (Args ν × List UInt8) :=
  if call.function.async then pure (call.observed call.args, call.success)
  else do
    let id ← rpcReadWord 4
    let _ ← rpcReadWord 8
    let opcode ← rpcReadWord 4
    if id = call.id ∧ opcode = responseOpcode then do
      let args ← clientRead wire cache call.function.ops call.args
      let result ← rpcReadBytes call.function.resultBytes
      pure (call.observed args, result)
    else failure

/-- What the caller of the stub is told of an outcome. -/
def told (outcome : Args ν × List UInt8) : Args ν × List UInt8 :=
  if call.function.async then (outcome.1, call.success) else outcome

def direct (state : σ) : Option (σ × Args ν × List UInt8) :=
  (callArgs call.function.params call.function.ops
    (view call.function.ops call.args)).map fun seen ↦
      ((call.function.run state seen).1,
        call.observed fun p ↦
          match call.function.ops.find? (·.parameter = p) with
          | some op => received call.args (call.function.run state seen).2.1 op
          | none => call.args p,
        (call.function.run state seen).2.2)

/-- The caller keeps to what the API asks of its arguments, and the function to what it promises. -/
structure Fits (state : σ) : Prop where
  passed : ∀ op ∈ call.function.ops, Passed call.function.ops call.args op
  answered : ∀ seen, callArgs call.function.params call.function.ops
      (view call.function.ops call.args) = some seen →
    (∀ op ∈ call.function.ops,
      Answered call.function.ops call.args (call.function.run state seen).2.1 op) ∧
    (call.function.run state seen).2.2.length = call.function.resultBytes

end Call

def runDirect : List (Call σ ν) → σ → Option (σ × List (Args ν × List UInt8))
  | [], state => some (state, [])
  | call :: calls, state => do
    let first ← call.direct state
    let rest ← runDirect calls first.1
    some (rest.1, (first.2.1, first.2.2) :: rest.2)

/-- Every call fits the state that it meets. -/
def FitsAll : List (Call σ ν) → σ → Prop
  | [], _ => True
  | call :: calls, state =>
    call.Fits state ∧ ∀ first, call.direct state = some first → FitsAll calls first.1

/-! ## Arguments

What fits is an argument of the request, and the stub does not refuse it. -/

section Arguments

variable {ops : List (Operation ν)} {args : Args ν}

theorem bufferView_of_points {send : Bool} {size : ℕ} {arg : Arg} (h : arg.Points size) :
    ∃ seen, bufferView send size arg = some seen := by
  obtain ⟨data, hload, -⟩ := h.load
  cases send with
  | true => exact ⟨.memory data, by rw [bufferView, hload]; rfl⟩
  | false => exact ⟨.room size, rfl⟩

theorem view_of_passed {op : Operation ν} (h : Passed ops args op) :
    ∃ seen, view ops args op = some seen := by
  cases op with
  | nullable p send recv size =>
    rcases h with hnull | hpoints
    · exact ⟨.null, by rw [view, if_neg (not_not_intro hnull)]⟩
    · rw [view, if_pos hpoints.ne_null]
      exact bufferView_of_points hpoints
  | array p send recv length elem compressible =>
    obtain ⟨size, htransfer, -, hpoints⟩ := h
    rw [view, htransfer]
    -- the two kinds of lengths differ for a size of 0 only
    cases length with
    | const n =>
      by_cases hne : size = 0
      · cases send <;> simp [hne, bufferReference]
      · simpa [hne] using bufferView_of_points (hpoints hne)
    | param s signed =>
      by_cases hne : size = 0
      · simp [hne]
      · simpa [hne] using bufferView_of_points (hpoints hne)
  | inOutCount p anchor =>
    obtain ⟨data, hload, -⟩ := Arg.Points.load h
    rw [view, requestedCount]
    split <;> simp [hload]
  | optionalArray p elem count =>
    rw [view]
    split_ifs
    · exact ⟨_, rfl⟩
    · exact ⟨_, rfl⟩
  | deepStruct p send recv layout =>
    obtain ⟨address, header, arrays, harg, -⟩ := h
    rw [view, harg]
    cases send <;> simp
  | nullTerminated p send lengthWidth =>
    obtain ⟨address, bytes, harg, string, hstring, -⟩ := h
    exact ⟨.memory string, by rw [view, harg]; simp [hstring]⟩
  | opaqueType p send recv size =>
    obtain ⟨bytes, harg, -⟩ := h
    exact ⟨.value bytes, by rw [view, harg]; rfl⟩
  | dereference p send recv size => exact bufferView_of_points h

theorem clientRejects_of_passed {op : Operation ν} (h : Passed ops args op) :
    clientRejects args op = false := by
  cases op with
  | array p send recv length elem compressible =>
    obtain ⟨size, htransfer, -, hpoints⟩ := h
    cases send with
    | false => rfl
    | true =>
      cases length with
      | const n => rfl
      | param s signed =>
        by_cases hne : size = 0
        · simp [clientRejects, htransfer, hne]
        · simp [clientRejects, (hpoints hne).ne_null]
  | deepStruct p send recv layout =>
    obtain ⟨address, header, arrays, harg, -⟩ := h
    simp [clientRejects, harg]
  | _ => rfl

omit [DecidableEq ν] in
theorem mapM_of_forall {f : Operation ν → Option Seen} {l : List (Operation ν)}
    (h : ∀ op ∈ l, ∃ seen, f op = some seen) : ∃ all, l.mapM f = some all := by
  induction l with
  | nil => exact ⟨[], rfl⟩
  | cons op l ih =>
    obtain ⟨hop, hl⟩ := List.forall_mem_cons.mp h
    obtain ⟨seen, hseen⟩ := hop
    obtain ⟨all, hall⟩ := ih hl
    exact ⟨seen :: all, by rw [List.mapM_cons, hseen, hall]; rfl⟩

omit [DecidableEq ν] in
theorem mapM_congr {f g : Operation ν → Option Seen} {l : List (Operation ν)}
    (h : ∀ op ∈ l, f op = g op) : l.mapM f = l.mapM g := by
  induction l with
  | nil => rfl
  | cons op l ih =>
    obtain ⟨hop, hl⟩ := List.forall_mem_cons.mp h
    rw [List.mapM_cons, List.mapM_cons, hop, ih hl]

theorem mem_of_mem_callArgs {params : List ν} {op : Operation ν}
    (h : op ∈ params.flatMap fun p ↦ ops.filter (·.parameter = p)) : op ∈ ops := by
  obtain ⟨p, -, hfilter⟩ := List.mem_flatMap.mp h
  exact (List.mem_filter.mp hfilter).1

theorem callArgs_congr {params : List ν} {f g : Operation ν → Option Seen}
    (h : ∀ op ∈ ops, f op = g op) : callArgs params ops f = callArgs params ops g :=
  mapM_congr fun op hop ↦ h op (mem_of_mem_callArgs hop)

theorem callArgs_of_passed (params : List ν) (h : ∀ op ∈ ops, Passed ops args op) :
    ∃ all, callArgs params ops (view ops args) = some all :=
  mapM_of_forall fun op hop ↦ view_of_passed (h op (mem_of_mem_callArgs hop))

end Arguments

/-! ## One call

The outcome of a direct call is the same from any memory that cannot be told from what the function
left, and what the function leaves is settled by what it finds. -/

section OneCall

variable {wire : Wire} {place cache : ν → ℕ → ℕ → Option ℕ}

theorem Call.observed_congr (call : Call σ ν) {args args' : Args ν}
    (h : ∀ op ∈ call.function.ops, observe op (args op.parameter) = observe op (args' op.parameter))
    (hothers : ∀ p, p ∉ call.function.ops.map parameter → args p = args' p) :
    call.observed args = call.observed args' := by
  funext p
  rw [observed, observed]
  cases hfind : call.function.ops.find? (·.parameter = p) with
  | none =>
    refine hothers p fun hmem ↦ ?_
    obtain ⟨op, hop, hkey⟩ := List.mem_map.mp hmem
    exact absurd (List.find?_eq_none.mp hfind op hop) (by simpa using hkey)
  | some op =>
    have hkey : op.parameter = p := by simpa using List.find?_some hfind
    exact hkey ▸ h op (List.mem_of_find?_eq_some hfind)

omit [DecidableEq ν] in
theorem received_of_not_receives {args : Args ν} {left : ν → Option Left} {op : Operation ν}
    (h : op.receives = false) : received args left op = args op.parameter := by
  obtain ⟨hrecv, hcount⟩ := Bool.or_eq_false_iff.mp h
  cases op with
  | nullable p send recv size => exact if_neg (Bool.not_eq_true _ ▸ hrecv)
  | array p send recv length elem compressible => exact if_neg (Bool.not_eq_true _ ▸ hrecv)
  | inOutCount p anchor => exact absurd hrecv (by simp [Operation.recv])
  | optionalArray p elem count => exact absurd hcount (by simp [countSource])
  | deepStruct p send recv layout => exact if_neg (Bool.not_eq_true _ ▸ hrecv)
  | nullTerminated p send lengthWidth => rfl
  | opaqueType p send recv size => rfl
  | dereference p send recv size => exact if_neg (Bool.not_eq_true _ ▸ hrecv)

theorem received_find (f : ApiFunction σ ν) {args : Args ν} {left : ν → Option Left}
    {op : Operation ν} (hop : op ∈ f.ops) :
    (match f.ops.find? (·.parameter = op.parameter) with
      | some op => received args left op
      | none => args op.parameter) = received args left op := by
  obtain ⟨op', hfind⟩ : ∃ op', f.ops.find? (·.parameter = op.parameter) = some op' :=
    Option.isSome_iff_exists.mp (List.find?_isSome.mpr ⟨op, hop, by simp⟩)
  have hkey : op'.parameter = op.parameter := by simpa using List.find?_some hfind
  rw [hfind, f.typed.eq_of_parameter (List.mem_of_find?_eq_some hfind) hop hkey]

/-- The outcome of a direct call, from any memory that cannot be told from what the function
left. -/
theorem Call.direct_eq (call : Call σ ν) {state : σ} {seen : List Seen} {args' : Args ν}
    (hseen : callArgs call.function.params call.function.ops
      (view call.function.ops call.args) = some seen)
    (hobserved : ∀ op ∈ call.function.ops, observe op (args' op.parameter)
      = observe op (received call.args (call.function.run state seen).2.1 op))
    (hothers : ∀ p, p ∉ call.function.ops.map parameter → args' p = call.args p) :
    call.direct state = some ((call.function.run state seen).1,
      (call.observed args', (call.function.run state seen).2.2)) := by
  rw [Call.direct, hseen, Option.map_some]
  refine congrArg some (Prod.ext rfl (Prod.ext ?_ rfl))
  refine call.observed_congr (fun op hop ↦ ?_) fun p hp ↦ ?_
  · rw [received_find call.function hop, hobserved op hop]
  · have hfind : call.function.ops.find? (·.parameter = p) = none :=
      List.find?_eq_none.mpr fun op hop hkey ↦
        hp (of_decide_eq_true hkey ▸ List.mem_map_of_mem hop)
    rw [hfind, hothers p hp]

/-- **One call.** The handler takes the payload of the stub and the stub that of the handler, both
exactly; the state of the server and the outcome for the caller are those of the direct call, except
that a stub which does not wait returns success. -/
theorem Call.round_trip (wire : Wire) {call : Call σ ν} {state : σ} (hfits : call.Fits state)
    (hplace : ∀ p i n, ∃ address, place p i n = some address)
    (hcache : ∀ p i n, ∃ address, cache p i n = some address) :
    ∃ payload answer state' outcome,
      call.request wire = some (message call.id call.lane call.function.opcode payload) ∧
      call.direct state = some (state', outcome) ∧
      (handle wire place call.function state).Reads payload (state', answer) ∧
      (call.response wire cache).Reads (answerMessage call.id call.lane answer)
        (call.told outcome) := by
  -- the request goes through, and the handler calls the function with what the caller passed
  obtain ⟨payload, locals, hwrite, hread, hall, hreference⟩ :=
    request_round_trip wire call.function.typed call.function.inOrder hfits.passed hplace
  obtain ⟨seen, hseen⟩ := callArgs_of_passed call.function.params hfits.passed
  obtain ⟨hanswered, hresult⟩ := hfits.answered seen hseen
  have hrequest : call.request wire
      = some (message call.id call.lane call.function.opcode payload) := by
    have hrejects : call.function.ops.any (clientRejects call.args) = false :=
      List.any_eq_false.mpr fun op hop ↦ by simp [clientRejects_of_passed (hfits.passed op hop)]
    rw [Call.request, hrejects, if_neg (by simp), hwrite]
    rfl
  have hcalled : callArgs call.function.params call.function.ops (serverReference locals)
      = some seen := (callArgs_congr hreference).trans hseen
  cases hasync : call.function.async with
  | true =>
    -- nothing of an asynchronous call comes back, so the caller sees its memory as it was
    have hkept : ∀ op ∈ call.function.ops, observe op (call.args op.parameter)
        = observe op (received call.args (call.function.run state seen).2.1 op) := fun op hop ↦ by
      rw [received_of_not_receives (call.function.sendOnly hasync op hop)]
    refine ⟨payload, none, _, _, hrequest, call.direct_eq hseen hkept fun _ _ ↦ rfl, ?_, ?_⟩
    · rw [handle]
      refine hread.bind_nil ?_
      rw [hcalled]
      dsimp only
      rw [if_pos hasync]
      exact reads_pure _
    · rw [Call.response, Call.told, if_pos hasync, if_pos hasync]
      exact reads_pure _
  | false =>
    have hwaits : ¬call.function.async = true := by simp [hasync]
    obtain ⟨response, args', hrespond, hreads, hobserved, hothers⟩ :=
      response_round_trip wire call.function.typed call.function.inOrder
        hfits.passed hanswered hall hcache
    refine ⟨payload, some (response ++ (call.function.run state seen).2.2), _, _, hrequest,
      call.direct_eq hseen hobserved hothers, ?_, ?_⟩
    · rw [handle]
      refine hread.bind_nil ?_
      rw [hcalled]
      dsimp only
      rw [if_neg hwaits, hrespond]
      exact reads_pure _
    · rw [Call.response, Call.told, if_neg hwaits, if_neg hwaits, answerMessage, Option.elim_some,
        message]
      refine (reads_rpcReadWord (by decide) call.id_lt).bind ?_
      refine (reads_rpcReadWord (by decide) call.lane_lt).bind ?_
      refine (reads_rpcReadWord (by decide) (by decide)).bind ?_
      rw [if_pos ⟨rfl, rfl⟩]
      refine hreads.bind ?_
      exact (reads_rpcReadBytes hresult
        (staticCastInt_nonneg call.function.resultBytes_lt)).bind_pure

theorem serveRequest_reads {table : List (ApiFunction σ ν)} {f : ApiFunction σ ν}
    (hnodup : (table.map (·.opcode)).Nodup) (hf : f ∈ table) {state state' : σ} {id lane : ℕ}
    (hid : id < 256 ^ 4) (hlane : lane < 256 ^ 8) {payload : List UInt8}
    {answer : Option (List UInt8)}
    (h : (handle wire place f state).Reads payload (state', answer)) :
    (serveRequest wire place table state).Reads (message id lane f.opcode payload)
      (state', answerMessage id lane answer) := by
  obtain ⟨f', hfind⟩ : ∃ f', table.find? (·.opcode = f.opcode) = some f' :=
    Option.isSome_iff_exists.mp (List.find?_isSome.mpr ⟨f, hf, by simp⟩)
  have hkey : f'.opcode = f.opcode := by simpa using List.find?_some hfind
  have hopcode : f.opcode < 256 ^ 4 := f.opcode_lt.trans (by decide)
  rw [serveRequest, message]
  refine (reads_rpcReadWord (by decide) hid).bind ?_
  refine (reads_rpcReadWord (by decide) hlane).bind ?_
  refine (reads_rpcReadWord (by decide) hopcode).bind ?_
  rw [hfind, List.inj_on_of_nodup_map hnodup (List.mem_of_find?_eq_some hfind) hf hkey]
  exact h.bind_pure

end OneCall

/-! ## Runs

The condition is on every call in the state that it meets. -/

section Runs

variable {wire : Wire} {place cache : ν → ℕ → ℕ → Option ℕ}

end Runs

/-! ## Two functions

The driver of these examples counts its calls, so a call that ran twice, or not at all, would
show. -/

/-- Two nodes, as far as there is room for them, and null handles after them. -/
def nodesIn (room : ℕ) : List UInt8 :=
  (leBytes 8 1 ++ leBytes 8 2).take room ++ List.replicate (room - 16) 0

theorem postPasses_graphGetNodes : postPasses [] parsedGraphGetNodes
    = [.opaqueType "hGraph" true false 8, .inOutCount "numNodes" "nodes",
      .optionalArray "nodes" 8 "numNodes"] := by decide

/-- What a query leaves: the nodes there is room for and their number, or the number of all. -/
def graphNodesLeft : List Seen → String → Option Left
  | [_, .room room, _], p =>
    if p = "nodes" then some ⟨nodesIn room, []⟩
    else if p = "numNodes" then some ⟨leBytes 8 (min 2 (room / 8)), []⟩
    else none
  | _, p => if p = "numNodes" then some ⟨leBytes 8 2, []⟩ else none

/-- `cuGraphGetNodes` of a driver that knows a graph with two nodes and counts the queries. -/
def graphGetNodes : ApiFunction ℕ String where
  opcode := 314616981
  params := ["hGraph", "nodes", "numNodes"]
  ops := postPasses [] parsedGraphGetNodes
  resultBytes := 4
  run queries seen := (queries + 1, graphNodesLeft seen, leBytes 4 0)
  opcode_lt := by decide
  resultBytes_lt := by decide
  typed := by
    rw [postPasses_graphGetNodes]
    exact ⟨by decide, by simp [WellTyped], by simp [lengthSource], by simp [countSource]⟩
  inOrder := by
    rw [postPasses_graphGetNodes]
    exact ⟨by simp [Placed, lengthSource], by simp [Placed, countSource, parameter]⟩
  sendOnly := by decide

/-- `cuMemsetD8Async` of a driver that refuses, and counts that too. -/
def memsetD8Async : ApiFunction ℕ String where
  opcode := 676145800
  params := ["dstDevice", "uc", "N", "hStream"]
  ops := [.opaqueType "dstDevice" true false 8, .opaqueType "uc" true false 1,
    .opaqueType "N" true false 8, .opaqueType "hStream" true false 8]
  resultBytes := 4
  async := true
  run queries _ := (queries + 1, fun _ ↦ none, leBytes 4 1)
  opcode_lt := by decide
  resultBytes_lt := by decide
  typed := ⟨by decide, by simp [WellTyped], by simp [lengthSource], by simp [countSource]⟩
  inOrder := ⟨by simp [Placed, lengthSource], by simp [Placed, countSource]⟩
  sendOnly := by simp [receives, Operation.recv, countSource]

/-- A query for the nodes into room for three. -/
def queryNodes : Call ℕ String where
  function := graphGetNodes
  id := 2
  lane := 1
  args p :=
    if p = "hGraph" then .value (leBytes 8 7)
    else if p = "nodes" then .block 4096 (List.replicate 24 0)
    else .block 8192 (leBytes 8 3)
  id_lt := by decide
  lane_lt := by decide

/-- A byte is to be set 16 times. -/
def memset : Call ℕ String where
  function := memsetD8Async
  id := 4
  lane := 1
  args p := .value (if p = "uc" then [7] else leBytes 8 16)
  id_lt := by decide
  lane_lt := by decide

theorem memset_fits (queries : ℕ) : memset.Fits queries where
  passed op hop := by
    have hmem : op ∈ [Operation.opaqueType "dstDevice" true false 8, .opaqueType "uc" true false 1,
      .opaqueType "N" true false 8, .opaqueType "hStream" true false 8] := hop
    simp only [List.mem_cons, List.not_mem_nil, or_false] at hmem
    rcases hmem with rfl | rfl | rfl | rfl <;> exact ⟨_, rfl, by decide⟩
  answered seen _ := by
    refine ⟨fun op hop ↦ ?_, rfl⟩
    have hmem : op ∈ [Operation.opaqueType "dstDevice" true false 8, .opaqueType "uc" true false 1,
      .opaqueType "N" true false 8, .opaqueType "hStream" true false 8] := hop
    simp only [List.mem_cons, List.not_mem_nil, or_false] at hmem
    rcases hmem with rfl | rfl | rfl | rfl <;> trivial

theorem queryNodes_seen : callArgs graphGetNodes.params graphGetNodes.ops
    (view graphGetNodes.ops queryNodes.args)
      = some [.value (leBytes 8 7), .room 24, .memory (leBytes 8 3)] := by decide +kernel

theorem queryNodes_requested : requestedFor graphGetNodes.ops queryNodes.args "numNodes" = 3 := by
  decide +kernel

theorem queryNodes_fits (queries : ℕ) : queryNodes.Fits queries where
  passed op hop := by
    have hmem : op ∈ [Operation.opaqueType "hGraph" true false 8, .inOutCount "numNodes" "nodes",
      .optionalArray "nodes" 8 "numNodes"] := postPasses_graphGetNodes ▸ hop
    simp only [List.mem_cons, List.not_mem_nil, or_false] at hmem
    rcases hmem with rfl | rfl | rfl
    · exact ⟨_, rfl, by simp⟩
    · exact ⟨_, _, rfl, by simp [pointerBytes], by decide, by decide⟩
    · have hrequested : requestedFor queryNodes.function.ops queryNodes.args "numNodes" = 3 :=
        queryNodes_requested
      rw [Passed, hrequested]
      exact .inr ⟨by decide, by decide, _, _, rfl, by simp, by decide, by decide⟩
  answered seen hseen := by
    obtain rfl := Option.some.inj (queryNodes_seen.symm.trans hseen)
    refine ⟨fun op hop ↦ ?_, rfl⟩
    have hmem : op ∈ [Operation.opaqueType "hGraph" true false 8, .inOutCount "numNodes" "nodes",
      .optionalArray "nodes" 8 "numNodes"] := postPasses_graphGetNodes ▸ hop
    simp only [List.mem_cons, List.not_mem_nil, or_false] at hmem
    rcases hmem with rfl | rfl | rfl
    · trivial
    · exact ⟨_, rfl, rfl⟩
    · have hrequested : requestedFor queryNodes.function.ops queryNodes.args "numNodes" = 3 :=
        queryNodes_requested
      rw [Answered, hrequested]
      have hfound : foundFor (graphNodesLeft
          [.value (leBytes 8 7), .room 24, .memory (leBytes 8 3)]) "numNodes" ≤ 3 := by
        decide +kernel
      exact fun _ ↦ ⟨⟨_, rfl, rfl⟩, hfound⟩

/-- Two nodes are found, and the third handle is left as it was. -/
example : (runDirect [queryNodes] 0).map (fun r ↦
    (r.1, r.2.map fun outcome ↦ (outcome.1 "nodes", outcome.1 "numNodes")))
      = some (1, [(.block 4096 (leBytes 8 1 ++ leBytes 8 2 ++ List.replicate 8 0),
        .block 8192 (leBytes 8 2))]) := by decide +kernel

end Codegen

end Lupine
