import Lupine.Transport.Words

/-!
# Queries of nodes and edges

Five calls ask a graph for its nodes, its roots, its edges, or the nodes before or after a node. The
caller gives arrays and their capacity, or no arrays to learn the count. The server's response is
the count, the arrays that it decides to send, and the result; which of them the client reads it
decides by itself.

## Capacity zero

Both take a missing array for a count query, which is sent as a capacity of zero. When the arrays
are there and have no room, the server sees a count query too, but the client goes by the arrays: it
reads as many entries as the count says, which are not sent.

## Reading as deciding

The client reads the count first, and after that everything depends on two decisions that both sides
make by themselves: whether the node arrays are in the response, and whether the edge data is. An
answerable query is one where they agree. The converse goes by the size: an array that the client
expects and the server has not sent is read with what is not there, or with a negative number.
-/

open Foundation

namespace Lupine

/-! ## The driver

A call that succeeds reports a count, which may be larger than the capacity; the arrays receive no
more than the capacity. After a call that fails the count and the arrays may be anything. -/

/-- What a query leaves: its result, the count, and the entries of the arrays. An entry of a node
array or of an edge-data array has eight bytes. -/
structure QueryAnswer where
  result : UInt32
  count : UInt64
  fromNodes : ℕ → UInt64
  toNodes : ℕ → UInt64
  edges : ℕ → UInt64

/-- One of the five calls on an object. Without arrays it is told `none`, else the capacity and
whether there is edge data; the arrays then receive no more entries than that. A call that fails may
leave anything in the arrays and the count. -/
structure GraphQueryDriver where
  query : Option (ℕ × Bool) → QueryAnswer
  count_le : ∀ capacity edge, (query (some (capacity, edge))).count.toNat ≤ capacity

/-! ## The server

The manual handlers share one function. The two generated ones allocate the array by the capacity
and write it by the count. -/

def queryArray (count : UInt64) (entries : ℕ → UInt64) : List UInt8 :=
  (List.range count.toNat).flatMap fun i ↦ leBytes 8 (entries i).toNat

section Server

variable (driver : GraphQueryDriver)

def manualQuery (requested : ℕ) (wantEdge : Bool) : QueryAnswer :=
  if requested = 0 then driver.query none else driver.query (some (requested, wantEdge))

/-- `lupine_handle_node_dependency_query`. -/
def handleNodeDependencyQuery (requested : ℕ) (wantEdge : Bool) : List UInt8 :=
  let answer := manualQuery driver requested wantEdge
  let sendArrays := requested ≠ 0 ∧ answer.count ≠ 0
  leBytes 8 answer.count.toNat ++
    ((if sendArrays then queryArray answer.count answer.fromNodes else []) ++
      ((if sendArrays ∧ wantEdge then queryArray answer.count answer.edges else []) ++
        leBytes 4 answer.result.toNat))

/-- `handle_manual_cuGraphGetEdges`. -/
def handleManualCuGraphGetEdges (requested : ℕ) (wantEdge : Bool) : List UInt8 :=
  let answer := manualQuery driver requested wantEdge
  let sendArrays := requested ≠ 0 ∧ answer.count ≠ 0
  leBytes 8 answer.count.toNat ++
    ((if sendArrays then queryArray answer.count answer.fromNodes else []) ++
      ((if sendArrays then queryArray answer.count answer.toNodes else []) ++
        ((if sendArrays ∧ wantEdge then queryArray answer.count answer.edges else []) ++
          leBytes 4 answer.result.toNat)))

/-- `handle_cuGraphGetNodes` and `handle_cuGraphGetRootNodes`; `none` when they write an array from
the null pointer. -/
def handleCuGraphGetNodes (requested : ℕ) (present : Bool) : Option (List UInt8) :=
  let allocated := present ∧ requested ≠ 0
  let answer := if allocated then driver.query (some (requested, false)) else driver.query none
  if present ∧ answer.count ≠ 0 then
    if allocated then
      some (leBytes 8 answer.count.toNat ++
        (queryArray answer.count answer.fromNodes ++ leBytes 4 answer.result.toNat))
    else none
  else some (leBytes 8 answer.count.toNat ++ leBytes 4 answer.result.toNat)

end Server

/-! ## The client

The readers differ in the arrays that they expect. Sound means that the response is read to its end
and that what is stored has room. -/

/-- What the client has of the response: the count, the bytes that it stored, and the result. -/
structure QueryOutcome where
  returned : ℕ
  stored : List (List UInt8)
  result : ℕ
  deriving DecidableEq, Repr

/-- An array of the response, when the client expects it. -/
def readQueryArray (expected : Bool) (returned : ℕ) : Reader UInt8 (List UInt8) :=
  if expected ∧ returned ≠ 0 then rpcReadBytes (returned * 8 % 2 ^ 64) else pure []

/-- `lupine_client_node_dep_query`, from the response on. -/
def readNodeDepQuery (nodes edgeData : Bool) : Reader UInt8 QueryOutcome := do
  let returned ← rpcReadWord 8
  let stored ← readQueryArray nodes returned
  let edges ← readQueryArray (edgeData && nodes) returned
  let result ← rpcReadWord 4
  pure ⟨returned, [stored, edges], result⟩

/-- `cuGraphGetEdges_v2`, from the response on. -/
def readGetEdges (fromNodes toNodes edgeData : Bool) : Reader UInt8 QueryOutcome := do
  let returned ← rpcReadWord 8
  let storedFrom ← readQueryArray (fromNodes && toNodes) returned
  let storedTo ← readQueryArray (fromNodes && toNodes) returned
  let edges ← readQueryArray (edgeData && fromNodes && toNodes) returned
  let result ← rpcReadWord 4
  pure ⟨returned, [storedFrom, storedTo, edges], result⟩

/-- `cuGraphGetNodes` and `cuGraphGetRootNodes`, from the response on. -/
def readGetNodes (nodes : Bool) : Reader UInt8 QueryOutcome := do
  let returned ← rpcReadWord 8
  let stored ← readQueryArray nodes returned
  let result ← rpcReadWord 4
  pure ⟨returned, [stored], result⟩

/-- A call by which arrays are there, and the capacity. An older driver's calls have no edge
data. -/
inductive GraphQuery where
  | getEdges (fromNodes toNodes edgeData : Bool) (numEdges : ℕ)
  | nodeGetDependencies (dependencies edgeData : Bool) (numDependencies : ℕ)
  | nodeGetDependentNodes (dependentNodes edgeData : Bool) (numDependentNodes : ℕ)
  | getNodes (nodes : Bool) (numNodes : ℕ)
  | getRootNodes (rootNodes : Bool) (numRootNodes : ℕ)
  deriving DecidableEq, Repr

namespace GraphQuery

def capacity : GraphQuery → ℕ
  | getEdges _ _ _ n | nodeGetDependencies _ _ n | nodeGetDependentNodes _ _ n | getNodes _ n
  | getRootNodes _ n => n

/-- The node arrays are there. -/
def fills : GraphQuery → Bool
  | getEdges fromNodes toNodes _ _ => fromNodes && toNodes
  | nodeGetDependencies nodes _ _ | nodeGetDependentNodes nodes _ _ | getNodes nodes _
  | getRootNodes nodes _ => nodes

/-- The edge data is asked for. -/
def wantEdge : GraphQuery → Bool
  | getEdges _ _ edge _ | nodeGetDependencies _ edge _ | nodeGetDependentNodes _ edge _ => edge
  | getNodes .. | getRootNodes .. => false

/-- The capacity that is sent. -/
def requested (q : GraphQuery) : ℕ := if q.fills then q.capacity else 0

def response (driver : GraphQueryDriver) (q : GraphQuery) : Option (List UInt8) :=
  match q with
  | getEdges .. => some (handleManualCuGraphGetEdges driver q.requested q.wantEdge)
  | nodeGetDependencies .. | nodeGetDependentNodes .. =>
    some (handleNodeDependencyQuery driver q.requested q.wantEdge)
  | getNodes nodes _ | getRootNodes nodes _ => handleCuGraphGetNodes driver q.requested nodes

def reader : GraphQuery → Reader UInt8 QueryOutcome
  | getEdges fromNodes toNodes edgeData _ => readGetEdges fromNodes toNodes edgeData
  | nodeGetDependencies nodes edgeData _ | nodeGetDependentNodes nodes edgeData _ =>
    readNodeDepQuery nodes edgeData
  | getNodes nodes _ | getRootNodes nodes _ => readGetNodes nodes

end GraphQuery

/-- The client stores no more entries than there is room for, and reports no more than that when it
was given arrays. -/
structure QueryOutcome.Fits (q : GraphQuery) (out : QueryOutcome) : Prop where
  stored_le : ∀ stored ∈ out.stored, stored.length ≤ 8 * q.capacity
  returned_le : q.fills = true → out.returned ≤ q.capacity

/-- The client reads the response and nothing else, and what it makes of it fits. -/
def QuerySound (driver : GraphQueryDriver) (q : GraphQuery) : Prop :=
  ∃ response out, q.response driver = some response ∧ q.reader.Reads response out ∧ out.Fits q

/-- The arrays that the caller gave are in its memory. -/
def GraphQuery.InMemory (q : GraphQuery) : Prop := q.fills → q.capacity * 8 < 2 ^ 64

instance (q : GraphQuery) : Decidable q.InMemory := inferInstanceAs (Decidable (_ → _))

/-- Arrays without room are given only where there is nothing to report, and the bytes of an array
that is returned have a number that `rpc_read` does not take for negative. -/
def QueryAnswerable (driver : GraphQueryDriver) (q : GraphQuery) : Prop :=
  q.fills → if q.capacity = 0 then (driver.query none).count = 0
    else 0 ≤ staticCastInt ((driver.query (some (q.capacity, q.wantEdge))).count.toNat * 8)

instance (driver : GraphQueryDriver) (q : GraphQuery) : Decidable (QueryAnswerable driver q) := by
  unfold QueryAnswerable
  infer_instance

/-! ## Reading the response

Server and client agree on whether an array is there, and its size is not taken for a failure. -/

section Arrays

variable {count : UInt64} {entries : ℕ → UInt64} {expected : Bool} {c : Prop} [Decidable c]

theorem length_queryArray : (queryArray count entries).length = count.toNat * 8 := by
  rw [queryArray, List.length_flatMap]
  simp only [length_leBytes, List.map_const', List.length_range, List.sum_replicate_nat]

theorem reads_count (count : UInt64) :
    (rpcReadWord 8).Reads (leBytes 8 count.toNat) count.toNat :=
  reads_rpcReadWord (by decide) count.toNat_lt

theorem reads_result (result : UInt32) :
    (rpcReadWord 4).Reads (leBytes 4 result.toNat) result.toNat :=
  reads_rpcReadWord (by decide) result.toNat_lt

/-- **One array.** Server and client agree on whether it is there, and its size is no failure. -/
theorem reads_queryArray (hc : c ↔ expected = true ∧ count ≠ 0)
    (hlt : expected = true → count.toNat * 8 < 2 ^ 64)
    (hcast : expected = true → 0 ≤ staticCastInt (count.toNat * 8)) :
    (readQueryArray expected count.toNat).Reads (if c then queryArray count entries else [])
      (if c then queryArray count entries else []) := by
  have hzero : count.toNat ≠ 0 ↔ count ≠ 0 := not_congr (UInt64.toNat_inj (b := 0))
  rw [readQueryArray]
  by_cases hsent : c
  · obtain ⟨hexpected, hcount⟩ := hc.mp hsent
    rw [if_pos ⟨hexpected, hzero.mpr hcount⟩, if_pos hsent, Nat.mod_eq_of_lt (hlt hexpected)]
    exact reads_rpcReadBytes length_queryArray (hcast hexpected)
  · rw [if_neg fun h ↦ hsent (hc.mpr ⟨h.1, hzero.mp h.2⟩), if_neg hsent]
    exact Reader.reads_pure []

end Arrays

/-! ## Decisions

What an answerable query says of the answer: it fits in the arrays, and server and client agree on
whether these are sent. The generated handler then does what a manual one would. -/

section Queries

variable {driver : GraphQueryDriver} {q : GraphQuery}

def GraphQuery.answer (driver : GraphQueryDriver) (q : GraphQuery) : QueryAnswer :=
  manualQuery driver q.requested q.wantEdge

theorem answer_of_capacity (hfills : q.fills = true) (hcapacity : q.capacity ≠ 0) :
    q.answer driver = driver.query (some (q.capacity, q.wantEdge)) := by
  rw [GraphQuery.answer, GraphQuery.requested, if_pos hfills, manualQuery, if_neg hcapacity]

theorem answer_of_no_capacity (hfills : q.fills = true) (hcapacity : q.capacity = 0) :
    q.answer driver = driver.query none := by
  rw [GraphQuery.answer, GraphQuery.requested, if_pos hfills, manualQuery, if_pos hcapacity]

/-- What an answerable query says of the answer: it fits in the arrays, and server and client agree
on whether these are sent. -/
theorem QueryAnswerable.count_le (h : QueryAnswerable driver q) (hfills : q.fills = true) :
    (q.answer driver).count.toNat ≤ q.capacity ∧
      0 ≤ staticCastInt ((q.answer driver).count.toNat * 8) := by
  have hif := h hfills
  split_ifs at hif with hcapacity
  · rw [answer_of_no_capacity hfills hcapacity, hif]
    exact ⟨Nat.zero_le _, staticCastInt_nonneg (by decide)⟩
  · rw [answer_of_capacity hfills hcapacity]
    exact ⟨driver.count_le _ _, hif⟩

theorem QueryAnswerable.sendArrays_iff (h : QueryAnswerable driver q) :
    (q.requested ≠ 0 ∧ (q.answer driver).count ≠ 0) ↔
      q.fills = true ∧ (q.answer driver).count ≠ 0 := by
  refine and_congr_left fun hcount ↦ ?_
  rw [GraphQuery.requested]
  constructor
  · intro hrequested
    by_contra hfills
    exact hrequested (if_neg hfills)
  · intro hfills hzero
    rw [if_pos hfills] at hzero
    have hif := h hfills
    rw [if_pos hzero, ← answer_of_no_capacity hfills hzero] at hif
    exact hcount hif

theorem QueryAnswerable.reads_array (h : QueryAnswerable driver q) (hmem : q.InMemory)
    {entries : ℕ → UInt64} {expected : Bool} {c : Prop} [Decidable c] (extra : Prop)
    (hexpected : expected = true ↔ q.fills = true ∧ extra)
    (hc : c ↔ (q.requested ≠ 0 ∧ (q.answer driver).count ≠ 0) ∧ extra) :
    (readQueryArray expected (q.answer driver).count.toNat).Reads
      (if c then queryArray (q.answer driver).count entries else [])
      (if c then queryArray (q.answer driver).count entries else []) := by
  refine reads_queryArray ?_ (fun he ↦ ?_) fun he ↦ (h.count_le (hexpected.mp he).1).2
  · rw [hc, h.sendArrays_iff, hexpected, and_right_comm]
  · have hfills := (hexpected.mp he).1
    have hle := (h.count_le hfills).1
    have hlt := hmem hfills
    omega

theorem QueryAnswerable.length_le (h : QueryAnswerable driver q) {entries : ℕ → UInt64} {c : Prop}
    [Decidable c] (hc : c → q.requested ≠ 0) :
    (if c then queryArray (q.answer driver).count entries else []).length ≤ 8 * q.capacity := by
  split_ifs with hsent
  · have hfills : q.fills = true := by
      by_contra hfills
      exact hc hsent (if_neg hfills)
    rw [length_queryArray, Nat.mul_comm]
    exact Nat.mul_le_mul_left 8 (h.count_le hfills).1
  · exact Nat.zero_le _

theorem allocated_iff {nodes : Bool} (hfills : q.fills = nodes) :
    (nodes = true ∧ q.requested ≠ 0) ↔ q.requested ≠ 0 := by
  refine and_iff_right_of_imp fun hrequested ↦ ?_
  rw [← hfills]
  by_contra hno
  exact hrequested (if_neg hno)

/-- It makes the call that a manual handler would. -/
theorem generated_answer {nodes : Bool} (hfills : q.fills = nodes) (hedge : q.wantEdge = false) :
    (if nodes = true ∧ q.requested ≠ 0 then driver.query (some (q.requested, false))
      else driver.query none) = q.answer driver := by
  rw [GraphQuery.answer, manualQuery, hedge]
  by_cases hrequested : q.requested = 0
  · rw [if_pos hrequested, if_neg fun h ↦ h.2 hrequested]
  · rw [if_neg hrequested, if_pos ((allocated_iff hfills).mpr hrequested)]

theorem QueryAnswerable.handleCuGraphGetNodes_eq {nodes : Bool} (h : QueryAnswerable driver q)
    (hfills : q.fills = nodes) (hedge : q.wantEdge = false) :
    handleCuGraphGetNodes driver q.requested nodes =
      some (leBytes 8 (q.answer driver).count.toNat ++
        ((if q.requested ≠ 0 ∧ (q.answer driver).count ≠ 0 then
            queryArray (q.answer driver).count (q.answer driver).fromNodes else []) ++
          leBytes 4 (q.answer driver).result.toNat)) := by
  have hsend := h.sendArrays_iff
  rw [hfills] at hsend
  rw [handleCuGraphGetNodes]
  simp only [generated_answer hfills hedge]
  by_cases hsent : nodes = true ∧ (q.answer driver).count ≠ 0
  · obtain ⟨hrequested, -⟩ := hsend.mpr hsent
    rw [if_pos hsent, if_pos ((allocated_iff hfills).mpr hrequested),
      if_pos ⟨hrequested, hsent.2⟩]
  · rw [if_neg hsent, if_neg (mt hsend.mp hsent), List.nil_append]

/-! ## The five calls

There are three kinds of responses, one for each shape of the arrays. -/

theorem QueryAnswerable.reads_dependencies {nodes : Bool} (h : QueryAnswerable driver q)
    (hmem : q.InMemory) (hfills : q.fills = nodes) :
    ∃ out, (readNodeDepQuery nodes q.wantEdge).Reads
      (handleNodeDependencyQuery driver q.requested q.wantEdge) out ∧ out.Fits q := by
  subst hfills
  refine ⟨⟨_, [_, _], _⟩, (reads_count _).bind ((h.reads_array hmem True ?_ ?_).bind
    ((h.reads_array hmem (q.wantEdge = true) ?_ Iff.rfl).bind
      (reads_result _).bind_pure)), fun stored hstored ↦ ?_, fun hfills ↦ (h.count_le hfills).1⟩
  · rw [and_true]
  · rw [and_true]
    rfl
  · rw [Bool.and_eq_true, and_comm]
  · rcases List.mem_pair.mp hstored with rfl | rfl
    · exact h.length_le And.left
    · exact h.length_le fun hc ↦ hc.1.1

theorem QueryAnswerable.reads_edges {fromNodes toNodes : Bool} (h : QueryAnswerable driver q)
    (hmem : q.InMemory) (hfills : q.fills = (fromNodes && toNodes)) :
    ∃ out, (readGetEdges fromNodes toNodes q.wantEdge).Reads
      (handleManualCuGraphGetEdges driver q.requested q.wantEdge) out ∧ out.Fits q := by
  refine ⟨⟨_, [_, _, _], _⟩, (reads_count _).bind ((h.reads_array hmem True ?_ ?_).bind
    ((h.reads_array hmem True ?_ ?_).bind
      ((h.reads_array hmem (q.wantEdge = true) ?_ Iff.rfl).bind
        (reads_result _).bind_pure))), fun stored hstored ↦ ?_, fun hfills ↦ (h.count_le hfills).1⟩
  · rw [and_true, hfills]
  · rw [and_true]
    rfl
  · rw [and_true, hfills]
  · rw [and_true]
    rfl
  · rw [hfills, Bool.and_assoc, Bool.and_eq_true, and_comm]
  · rcases List.mem_cons.mp hstored with rfl | hstored
    · exact h.length_le And.left
    rcases List.mem_pair.mp hstored with rfl | rfl
    · exact h.length_le And.left
    · exact h.length_le fun hc ↦ hc.1.1

theorem QueryAnswerable.reads_nodes {nodes : Bool} (h : QueryAnswerable driver q)
    (hmem : q.InMemory) (hfills : q.fills = nodes) (hedge : q.wantEdge = false) :
    ∃ response out, handleCuGraphGetNodes driver q.requested nodes = some response ∧
      (readGetNodes nodes).Reads response out ∧ out.Fits q := by
  refine ⟨_, ⟨_, [_], _⟩, h.handleCuGraphGetNodes_eq hfills hedge, (reads_count _).bind
    ((h.reads_array hmem True ?_ ?_).bind (reads_result _).bind_pure),
    fun stored hstored ↦ ?_, fun hfills ↦ (h.count_le hfills).1⟩
  · rw [and_true, hfills]
  · rw [and_true]
  · rw [List.mem_singleton.mp hstored]
    exact h.length_le And.left

/-- **An answerable query is sound.** -/
theorem QueryAnswerable.querySound (h : QueryAnswerable driver q) (hmem : q.InMemory) :
    QuerySound driver q := by
  cases q with
  | getEdges fromNodes toNodes edgeData n =>
    obtain ⟨out, hreads, hfits⟩ := h.reads_edges hmem rfl
    exact ⟨_, out, rfl, hreads, hfits⟩
  | nodeGetDependencies nodes edgeData n | nodeGetDependentNodes nodes edgeData n =>
    obtain ⟨out, hreads, hfits⟩ := h.reads_dependencies hmem rfl
    exact ⟨_, out, rfl, hreads, hfits⟩
  | getNodes nodes n | getRootNodes nodes n => exact h.reads_nodes hmem rfl rfl

/-! ## Queries that are not answerable

Every response begins with the count, so the client reports what it read, and fails when it expects
an array of a negative size. -/

theorem GraphQuery.returned_eq {tail : List UInt8} {out : QueryOutcome} {count : UInt64}
    (h : q.reader.Reads (leBytes 8 count.toNat ++ tail) out) : out.returned = count.toNat := by
  cases q with
  | getEdges fromNodes toNodes edgeData n =>
    refine ((reads_count count).bind_iff.mp h).of_always (P := fun out ↦ out.returned = _) ?_
    exact Reader.always_bind fun _ ↦ Reader.always_bind fun _ ↦ Reader.always_bind fun _ ↦
      Reader.always_bind fun _ ↦ Reader.always_pure rfl
  | nodeGetDependencies nodes edgeData n | nodeGetDependentNodes nodes edgeData n =>
    refine ((reads_count count).bind_iff.mp h).of_always (P := fun out ↦ out.returned = _) ?_
    exact Reader.always_bind fun _ ↦ Reader.always_bind fun _ ↦ Reader.always_bind fun _ ↦
      Reader.always_pure rfl
  | getNodes nodes n | getRootNodes nodes n =>
    refine ((reads_count count).bind_iff.mp h).of_always (P := fun out ↦ out.returned = _) ?_
    exact Reader.always_bind fun _ ↦ Reader.always_bind fun _ ↦ Reader.always_pure rfl

theorem handleCuGraphGetNodes_eq_append {nodes : Bool} {response : List UInt8}
    (h : handleCuGraphGetNodes driver q.requested nodes = some response) (hfills : q.fills = nodes)
    (hedge : q.wantEdge = false) :
    ∃ tail, response = leBytes 8 (q.answer driver).count.toNat ++ tail := by
  rw [handleCuGraphGetNodes] at h
  simp only [generated_answer hfills hedge] at h
  split_ifs at h <;> exact ⟨_, (Option.some.inj h).symm⟩

theorem GraphQuery.response_eq {response : List UInt8} (h : q.response driver = some response) :
    ∃ tail, response = leBytes 8 (q.answer driver).count.toNat ++ tail := by
  cases q with
  | getEdges fromNodes toNodes edgeData n => exact ⟨_, (Option.some.inj h).symm⟩
  | nodeGetDependencies nodes edgeData n | nodeGetDependentNodes nodes edgeData n =>
    exact ⟨_, (Option.some.inj h).symm⟩
  | getNodes nodes n => exact handleCuGraphGetNodes_eq_append (q := .getNodes nodes n) h rfl rfl
  | getRootNodes nodes n =>
    exact handleCuGraphGetNodes_eq_append (q := .getRootNodes nodes n) h rfl rfl

/-- A client that expects an array of a negative size fails. -/
theorem GraphQuery.not_reads_of_negative {tail : List UInt8} {out : QueryOutcome} {count : UInt64}
    (hfills : q.fills = true) (hlt : count.toNat * 8 < 2 ^ 64)
    (hneg : staticCastInt (count.toNat * 8) < 0) :
    ¬q.reader.Reads (leBytes 8 count.toNat ++ tail) out := by
  have hcount : count.toNat ≠ 0 := by
    intro hzero
    rw [hzero, Nat.zero_mul, staticCastInt_zero] at hneg
    exact lt_irrefl 0 hneg
  have harray : (readQueryArray q.fills count.toNat).run tail = none := by
    rw [readQueryArray, if_pos ⟨hfills, hcount⟩, Nat.mod_eq_of_lt hlt]
    exact run_rpcReadBytes_of_negative hneg tail
  intro h
  cases q with
  | getEdges fromNodes toNodes edgeData n =>
    exact Reader.not_reads_of_run (Reader.run_bind_of_none harray)
      ((reads_count count).bind_iff.mp h)
  | nodeGetDependencies nodes edgeData n | nodeGetDependentNodes nodes edgeData n =>
    exact Reader.not_reads_of_run (Reader.run_bind_of_none harray)
      ((reads_count count).bind_iff.mp h)
  | getNodes nodes n | getRootNodes nodes n =>
    exact Reader.not_reads_of_run (Reader.run_bind_of_none harray)
      ((reads_count count).bind_iff.mp h)

/-- **Queries of a graph.** A query is sound if and only if it is answerable. -/
theorem querySound_iff (hmem : q.InMemory) : QuerySound driver q ↔ QueryAnswerable driver q := by
  refine ⟨?_, fun h ↦ h.querySound hmem⟩
  rintro ⟨response, out, hresponse, hreads, hfits⟩ hfills
  obtain ⟨tail, rfl⟩ := GraphQuery.response_eq hresponse
  have hreturned := GraphQuery.returned_eq hreads
  have hle := hfits.returned_le hfills
  split_ifs with hcapacity
  · rw [hreturned, hcapacity, answer_of_no_capacity hfills hcapacity] at hle
    exact UInt64.toNat_inj.mp (Nat.le_zero.mp hle)
  · rw [answer_of_capacity hfills hcapacity] at hreads
    by_contra hneg
    have hcount := driver.count_le q.capacity q.wantEdge
    have hlt := hmem hfills
    exact GraphQuery.not_reads_of_negative hfills (by omega) (not_le.mp hneg) hreads

end Queries

/-- A graph with two nodes and the edge between them, asked for its nodes. -/
def twoNodes : GraphQueryDriver where
  query
    | none => ⟨0, 2, fun _ ↦ 0, fun _ ↦ 0, fun _ ↦ 0⟩
    | some (capacity, _) =>
      ⟨0, if 2 ≤ capacity then 2 else if capacity = 1 then 1 else 0, fun i ↦ .ofNat (i + 1),
        fun _ ↦ 0, fun _ ↦ 0⟩
  count_le capacity _ := by
    dsimp only
    split_ifs with htwo hone
    · exact htwo
    · exact hone.ge
    · exact Nat.zero_le _

theorem querySound_iff_twoNodes : (GraphQuery.getNodes true 2).InMemory ∧
    (QuerySound twoNodes (.getNodes true 2) ↔ QueryAnswerable twoNodes (.getNodes true 2)) :=
  ⟨by decide, querySound_iff (by decide)⟩

/-- An array without room: the client waits for the two entries behind the count, and for the edges
of the graph it does the same; the generated handler writes them from the null pointer. -/
theorem noRoom_unsound :
    ¬QuerySound twoNodes (.nodeGetDependencies true false 0) ∧
    ¬QuerySound twoNodes (.getEdges true true true 0) ∧
    ¬QuerySound twoNodes (.getNodes true 0) ∧ ¬QuerySound twoNodes (.getRootNodes true 0) := by
  refine ⟨?_, ?_, ?_, ?_⟩
  · rintro ⟨response, out, hresponse, hreads, -⟩
    obtain rfl := Option.some.inj hresponse
    exact Reader.not_reads_of_run (by decide +kernel) hreads
  · rintro ⟨response, out, hresponse, hreads, -⟩
    obtain rfl := Option.some.inj hresponse
    exact Reader.not_reads_of_run (by decide +kernel) hreads
  · rintro ⟨response, out, hresponse, -⟩
    have hnone : (GraphQuery.getNodes true 0).response twoNodes = none := by decide
    exact nomatch hnone.symm.trans hresponse
  · rintro ⟨response, out, hresponse, -⟩
    have hnone : (GraphQuery.getRootNodes true 0).response twoNodes = none := by decide
    exact nomatch hnone.symm.trans hresponse

end Lupine
