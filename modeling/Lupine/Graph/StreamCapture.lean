import Lupine.Foundation.Machine
import Lupine.Graph.Resources

/-!
# The copies of a stream capture

A capture that begins on a stream gets resources of its own, which the graph it ends with takes
over. Streams join a capture by waiting for an event recorded in it, and their copies have to reach
the same resources. The server hands the resources on beside CUDA: recording an event puts those of
the stream in a map of events, and waiting for the event puts those of the event in the map of
streams, unless the stream has some. The handlers look at their maps, never at the capture itself,
apart from the copies, which ask CUDA whether their stream is in a capture.

What CUDA does is modelled beside the server: which streams are in a capture, named by the stream it
began on, and which copies were issued in it. The result of every CUDA call is part of the step.

## Two invariants

A run may be asked for two things. Attribution says that the copies of a graph are those issued in
its capture: the resources of a capture under way are those of the entry of its origin, which no
other capture and no graph has. Clearing says that nothing is left when a capture is over: only the
entry of its origin refers to its resources. The second needs more of the steps than the first, and
is proved on top of it.
-/

namespace Lupine

open Foundation

/-! ## The server

The resources of a capture are an object of the heap, to which streams, events and graphs have
entries. The handlers follow the source, with the results of the CUDA calls as arguments. -/

/-- The maps of the server that captures use, and the copies that wait outside of graphs. -/
structure CaptureServer where
  heap : ResourceHeap := noResources
  streamCaptureResources : ResourceMap := ∅
  eventCaptureResources : ResourceMap := ∅
  graphResources : ResourceMap := ∅
  pending : List PendingDtohCopy := []

/-- The size of the scratch memory of a capture. -/
def scratchSize : ℕ := 128 * 1024 * 1024

/-- The scratch memory that a capture begins with, if `cuMemAllocHost` returned some. -/
def GraphResources.installScratch (scratch : Option HostPtr) (resources : GraphResources) :
    GraphResources :=
  match scratch with
  | some host => resources.installCaptureScratch host scratchSize
  | none => resources

theorem GraphResources.dtohCopySnapshot_installScratch (scratch : Option HostPtr)
    (resources : GraphResources) :
    (resources.installScratch scratch).dtohCopySnapshot = resources.dtohCopySnapshot := by
  cases scratch with
  | some host => exact dtohCopySnapshot_installCaptureScratch host scratchSize resources
  | none => rfl

namespace CaptureServer

/-- `lupine_get_stream_resources`. -/
def getStreamResources (server : CaptureServer) (stream : CUstream) :
    ResourcesPtr × CaptureServer :=
  let found := server.streamCaptureResources.upsert server.heap stream {}
  (found.1, { server with heap := found.2.1, streamCaptureResources := found.2.2 })

/-- `lupine_begin_stream_capture_resources`. -/
def beginStreamCaptureResources (server : CaptureServer) (stream : CUstream) :
    ResourcesPtr × CaptureServer :=
  (server.heap.next,
    { server with
      heap := server.heap.alloc {}
      streamCaptureResources := server.streamCaptureResources.insert stream server.heap.next })

/-- `handle_manual_cuStreamBeginCapture`, with the memory that `cuMemAllocHost` returns if it
succeeds and the results of `cuThreadExchangeStreamCaptureMode` and `cuStreamBeginCapture_v2`. -/
def streamBeginCapture (server : CaptureServer) (stream : CUstream) (scratch : Option HostPtr)
    (exchange result : CUresult) : CUresult × CaptureServer :=
  let begun := server.beginStreamCaptureResources stream
  let heap := begun.2.heap.modify begun.1 (GraphResources.installScratch scratch)
  (if exchange = .success then
      if (heap.get begun.1).hasCaptureScratch then result else .errorOutOfMemory
    else exchange,
    { begun.2 with heap })

theorem snapshot_streamBeginCapture (server : CaptureServer) (stream : CUstream)
    (scratch : Option HostPtr) (exchange result : CUresult) :
    (server.streamBeginCapture stream scratch exchange result).2.heap.snapshot server.heap.next
      = [] := by
  refine (congrFun (ResourceHeap.snapshot_modify ?_ _) _).trans
    (ResourceHeap.snapshot_alloc_next server.heap)
  exact fun x ↦ x.dtohCopySnapshot_installScratch scratch

/-- `handle_manual_cuEventRecord`. -/
def eventRecord (server : CaptureServer) (event : CUevent) (stream : CUstream) : CaptureServer :=
  match server.streamCaptureResources.lookup stream with
  | some resources =>
    { server with eventCaptureResources := server.eventCaptureResources.insert event resources }
  | none => server

/-- `handle_manual_cuStreamWaitEvent`. -/
def streamWaitEvent (server : CaptureServer) (stream : CUstream) (event : CUevent) :
    CaptureServer :=
  match server.eventCaptureResources.lookup event with
  | some resources =>
    { server with
      streamCaptureResources := server.streamCaptureResources.insertNew stream resources }
  | none => server

/-- `handle_manual_cuMemcpyDtoHAsync_v2` on a stream in a capture, with the result of the CUDA call
if it is made: the copy that CUDA captured, and the server afterwards. -/
def captureDtoh (server : CaptureServer) (dstHost : HostPtr) (byteCount : ℕ) (stream : CUstream)
    (result : CUresult) : Option GraphHostCopy × CaptureServer :=
  let found := server.getStreamResources stream
  let host := ((found.2.heap.get found.1).allocateCaptureScratch byteCount).1
  let heap := found.2.heap.modify found.1 fun resources ↦
    (resources.allocateCaptureScratch byteCount).2
  let copy : GraphHostCopy := ⟨dstHost, host.getD 0, byteCount⟩
  if (host = none ∧ byteCount ≠ 0) ∨ result ≠ .success then (none, { found.2 with heap })
  else (some copy,
    { found.2 with heap := heap.modify found.1 (GraphResources.addDtohCopy copy) })

/-- `handle_manual_cuMemcpyDtoHAsync_v2` on any other stream, with its buffer or zero. -/
def pendingDtoh (server : CaptureServer) (dstHost : HostPtr) (byteCount : ℕ) (stream : CUstream)
    (buffer : HostPtr) (pinned : Bool) (result : CUresult) : CaptureServer :=
  if byteCount ≠ 0 ∧ buffer ≠ 0 ∧ result = .success then
    { server with pending := server.pending ++ [⟨stream, dstHost, buffer, byteCount, pinned⟩] }
  else server

/-- `handle_manual_cuStreamEndCapture`. -/
def streamEndCapture (server : CaptureServer) (stream : CUstream) (graph : CUgraph)
    (result : CUresult) : CaptureServer :=
  if result = .success then
    match server.streamCaptureResources.lookup stream with
    | some resources =>
      { server with
        streamCaptureResources := server.streamCaptureResources.erase stream
        graphResources := server.graphResources.insert graph resources }
    | none => server
  else server

end CaptureServer

/-! ## CUDA

A capture goes by its origin. What is in a capture once another one is over was in it before, and a
wait changes nothing unless the stream joins the capture that the event was recorded in. -/

/-- The captures under way. A capture goes by the stream it began on, its origin. -/
structure StreamCaptures where
  /-- The capture that a stream is in. -/
  capturing : CUstream → Option CUstream := fun _ ↦ none
  /-- The capture that an event was last recorded in. -/
  recorded : CUevent → Option CUstream := fun _ ↦ none
  /-- The graph that a capture was begun to. -/
  graph : CUstream → Option CUgraph := fun _ ↦ none
  /-- The device-to-host copies issued in a capture, on all of its streams. -/
  issued : CUstream → List GraphHostCopy := fun _ ↦ []

namespace StreamCaptures

/-- A capture begins; the legacy stream cannot be captured. -/
def beginCapture (cuda : StreamCaptures) (stream : CUstream) (graph : Option CUgraph) :
    Option StreamCaptures :=
  if stream = 0 ∨ (cuda.capturing stream).isSome then none
  else some { cuda with
    capturing := Function.update cuda.capturing stream (some stream)
    graph := Function.update cuda.graph stream graph
    issued := Function.update cuda.issued stream [] }

def record (cuda : StreamCaptures) (event : CUevent) (stream : CUstream) : StreamCaptures :=
  { cuda with recorded := Function.update cuda.recorded event (cuda.capturing stream) }

/-- A stream waits for an event, and joins its capture. A stream in a capture cannot wait for what
is not in it. -/
def wait (cuda : StreamCaptures) (stream : CUstream) (event : CUevent) : Option StreamCaptures :=
  match cuda.recorded event, cuda.capturing stream with
  | some origin, none =>
    if stream = 0 then none
    else some { cuda with capturing := Function.update cuda.capturing stream (some origin) }
  | recorded, capturing => if recorded = capturing then some cuda else none

def issue (cuda : StreamCaptures) (origin : CUstream) (copy : GraphHostCopy) : StreamCaptures :=
  { cuda with issued := Function.update cuda.issued origin (cuda.issued origin ++ [copy]) }

/-- A capture is over: its streams are in no capture, nor are the events recorded in it. -/
def endCapture (cuda : StreamCaptures) (origin : CUstream) : StreamCaptures :=
  { cuda with
    capturing := fun s ↦ if cuda.capturing s = some origin then none else cuda.capturing s
    recorded := fun e ↦ if cuda.recorded e = some origin then none else cuda.recorded e }

theorem beginCapture_eq_some {cuda cuda' : StreamCaptures} {stream : CUstream}
    {graph : Option CUgraph} (h : cuda.beginCapture stream graph = some cuda') :
    cuda.capturing stream = none ∧ cuda' = { cuda with
      capturing := Function.update cuda.capturing stream (some stream)
      graph := Function.update cuda.graph stream graph
      issued := Function.update cuda.issued stream [] } := by
  rw [beginCapture, Option.ite_none_left_eq_some, not_or, Bool.not_eq_true,
    Option.isSome_eq_false_iff, Option.isNone_iff_eq_none] at h
  exact ⟨h.1.2, (Option.some.inj h.2).symm⟩

/-- A wait changes nothing, or its stream joins the capture the event was recorded in. -/
theorem wait_eq_some {cuda cuda' : StreamCaptures} {stream : CUstream} {event : CUevent}
    (h : cuda.wait stream event = some cuda') :
    cuda' = cuda ∨ ∃ origin, cuda.recorded event = some origin ∧ cuda.capturing stream = none ∧
      cuda' = { cuda with capturing := Function.update cuda.capturing stream (some origin) } := by
  rw [wait] at h
  split at h
  next origin hrecorded hnone =>
    rw [Option.ite_none_left_eq_some] at h
    exact Or.inr ⟨origin, hrecorded, hnone, (Option.some.inj h.2).symm⟩
  next =>
    rw [Option.ite_none_right_eq_some] at h
    exact Or.inl (Option.some.inj h.2).symm

theorem endCapture_eq_some {capture : Option CUstream} {origin o : CUstream}
    (h : (if capture = some origin then none else capture) = some o) :
    o ≠ origin ∧ capture = some o := by
  rw [Option.ite_none_left_eq_some] at h
  obtain ⟨hne, rfl⟩ := h
  exact ⟨fun heq ↦ hne (congrArg some heq), rfl⟩

theorem endCapture_of_ne {capture : Option CUstream} {origin o : CUstream}
    (h : capture = some o) (hne : o ≠ origin) :
    (if capture = some origin then none else capture) = some o := by
  rw [h, if_neg (Option.some_injective _ |>.ne hne)]

end StreamCaptures

/-! ## Steps

Beside the server and CUDA the state keeps what the results are about: which host functions were
launched, which captures are over, and which copies were issued in the capture of each graph. -/

/-- A host function that was launched: the resources whose copies it publishes when it runs, and
whether it was captured, so that it runs as a node of a graph. -/
structure LaunchedHostFunction where
  resources : ResourcesPtr
  captured : Bool
  deriving DecidableEq, Repr

/-- The server and CUDA, with the host functions launched, the resources of the captures that are
over and, for each graph a capture ended with, the copies that were issued in the last such
capture. -/
structure CaptureState where
  server : CaptureServer := {}
  cuda : StreamCaptures := {}
  hostFunctions : List LaunchedHostFunction := []
  finished : List ResourcesPtr := []
  captured : CUgraph → Option (List GraphHostCopy) := fun _ ↦ none

/-- A request with the results of the CUDA calls that serve it. -/
inductive CaptureStep where
  | beginCapture (stream : CUstream) (scratch : Option HostPtr) (exchange result : CUresult)
  | beginCaptureToGraph (stream : CUstream) (graph : CUgraph) (result : CUresult)
  | eventRecord (event : CUevent) (stream : CUstream) (result : CUresult)
  | waitEvent (stream : CUstream) (event : CUevent) (result : CUresult)
  | launchHostFunc (stream : CUstream) (result : CUresult)
  | memcpyDtoHAsync (dstHost : HostPtr) (byteCount : ℕ) (stream : CUstream) (buffer : HostPtr)
      (pinned : Bool) (result : CUresult)
  /-- Ending a capture can fail with the capture over, or still under way. -/
  | endCapture (stream : CUstream) (graph : CUgraph) (result : CUresult) (ended : Bool)
  deriving DecidableEq, Repr

/-- The capture that the server finds a stream in, by `cuStreamIsCapturing`. -/
def CaptureState.isCapturing (st : CaptureState) (stream : CUstream) : Option CUstream :=
  if stream = 0 then none else st.cuda.capturing stream

/-- The resources that a stream has an entry for. -/
def CaptureState.entry (st : CaptureState) (stream : CUstream) : Option ResourcesPtr :=
  st.server.streamCaptureResources.lookup stream

/-- The state once the capture that began on a stream is over. -/
def CaptureState.finish (st : CaptureState) (stream : CUstream) (server : CaptureServer) :
    CaptureState :=
  { st with
    server
    cuda := st.cuda.endCapture stream
    finished := st.finished ++ (st.entry stream).toList }

def captureStep (st : CaptureState) : CaptureStep → Option CaptureState
  | .beginCapture stream scratch exchange result =>
    let begun := st.server.streamBeginCapture stream scratch exchange result
    if begun.1 = .success then
      (st.cuda.beginCapture stream none).map fun cuda ↦ { st with server := begun.2, cuda }
    else some { st with server := begun.2 }
  | .beginCaptureToGraph stream graph result =>
    if result = .success then
      (st.cuda.beginCapture stream (some graph)).map fun cuda ↦ { st with cuda }
    else some st
  | .eventRecord event stream result =>
    some { st with
      server := st.server.eventRecord event stream
      cuda := if result = .success then st.cuda.record event stream else st.cuda }
  | .waitEvent stream event result =>
    let server := st.server.streamWaitEvent stream event
    if result = .success then
      (st.cuda.wait stream event).map fun cuda ↦ { st with server, cuda }
    else some { st with server }
  | .launchHostFunc stream result =>
    let found := st.server.getStreamResources stream
    some { st with
      server := found.2
      hostFunctions :=
        if result = .success then
          st.hostFunctions ++ [⟨found.1, (st.cuda.capturing stream).isSome⟩]
        else st.hostFunctions }
  | .memcpyDtoHAsync dstHost byteCount stream buffer pinned result =>
    match st.isCapturing stream with
    | some origin =>
      let copied := st.server.captureDtoh dstHost byteCount stream result
      some { st with server := copied.2, cuda := copied.1.elim st.cuda (st.cuda.issue origin) }
    | none =>
      some { st with
        server := st.server.pendingDtoh dstHost byteCount stream buffer pinned result }
  | .endCapture stream graph result ended =>
    if result = .success ∨ ended = true then
      if st.cuda.capturing stream = some stream ∧
          (∀ g, st.cuda.graph stream = some g → g = graph) then
        let server := st.server.streamEndCapture stream graph result
        if result = .success then
          some { st.finish stream server with
            captured := Function.update st.captured graph (some (st.cuda.issued stream)) }
        else some (st.finish stream server)
      else none
    else some st

def streamCapture : Machine CaptureState CaptureStep := ⟨captureStep⟩

/-! ## What is promised -/

/-- The copies of the resources attached to the graph of a capture are those issued in it. -/
def CaptureState.CopiesAttributed (st : CaptureState) : Prop :=
  ∀ graph copies, st.captured graph = some copies →
    attachedCopies st.server.heap st.server.graphResources graph = copies

/-- No entry refers to the resources of a capture that is over, and a host function launched outside
of captures publishes nothing. -/
def CaptureState.NothingLeft (st : CaptureState) : Prop :=
  (∀ r ∈ st.finished, (∀ stream, st.entry stream ≠ some r) ∧
      ∀ event, st.server.eventCaptureResources.lookup event ≠ some r) ∧
    ∀ f ∈ st.hostFunctions, f.captured = false → st.server.heap.snapshot f.resources = []

/-- Resources that nothing but the entry of one stream refers to and that have no copies. -/
def CaptureState.Unused (st : CaptureState) (stream : CUstream) (r : ResourcesPtr) : Prop :=
  (∀ s ∈ st.server.streamCaptureResources.holders r, s = stream) ∧
    st.server.eventCaptureResources.holders r = [] ∧ st.server.graphResources.holders r = [] ∧
      (∀ f ∈ st.hostFunctions, f.resources ≠ r) ∧ st.server.heap.snapshot r = []

/-- The step keeps the copies of captures apart. No capture begins on the origin of another one. One
that begins without resources of its own finds none of others at its stream, and gets none by
waiting for an event. Copies are issued on the origin, or on a stream with the same entry. A capture
that ends without an entry ends with a graph that has none. -/
def AttributesCopies (st : CaptureState) : CaptureStep → Prop
  | .beginCapture stream _ _ _ => st.cuda.capturing stream ≠ some stream
  | .beginCaptureToGraph stream _ result =>
    result = .success → ∀ r, st.entry stream = some r → st.Unused stream r
  | .waitEvent stream event _ =>
    st.cuda.capturing stream = some stream → st.entry stream = none →
      st.server.eventCaptureResources.lookup event = none
  | .memcpyDtoHAsync dstHost byteCount stream _ _ result =>
    ∀ origin, st.isCapturing stream = some origin →
      (st.server.captureDtoh dstHost byteCount stream result).1 = none ∨ stream = origin ∨
        (st.entry stream).isSome ∧ st.entry stream = st.entry origin
  | .endCapture stream graph result _ =>
    result = .success → (st.entry stream).isSome ∨ st.server.graphResources.lookup graph = none
  | _ => True

/-- The step leaves no entry behind. No event is recorded on the origin of a capture once that has
resources, and a capture that has resources is only over when it ends with success. -/
def ClearsEntries (st : CaptureState) : CaptureStep → Prop
  | .eventRecord _ stream _ => st.cuda.capturing stream = some stream → st.entry stream = none
  | .endCapture stream _ result ended =>
    result ≠ .success → ended = true → st.entry stream = none
  | _ => True

instance (st : CaptureState) (stream : CUstream) (r : ResourcesPtr) :
    Decidable (st.Unused stream r) := by
  unfold CaptureState.Unused; infer_instance

instance (st : CaptureState) (step : CaptureStep) : Decidable (AttributesCopies st step) := by
  cases step <;> unfold AttributesCopies <;> infer_instance

instance (st : CaptureState) (step : CaptureStep) : Decidable (ClearsEntries st step) := by
  cases step <;> unfold ClearsEntries <;> infer_instance

/-! ## Attribution

A stream that has no resources gets new ones, which is no loss unless a capture began on it and has
some. Waiting leaves the entries of origins alone, since an origin is in its own capture, and what
happens to resources besides their copies does not matter. -/

/-- The state between steps: the resources of a capture under way are those of the entry of its
origin, which no other capture and no graph has, and their copies are those issued in it. -/
structure AttributionInv (st : CaptureState) : Prop where
  streams_below : st.server.streamCaptureResources.Below st.server.heap.next
  events_below : st.server.eventCaptureResources.Below st.server.heap.next
  graphs_below : st.server.graphResources.Below st.server.heap.next
  capturing : ∀ s o, st.cuda.capturing s = some o → st.cuda.capturing o = some o
  recorded : ∀ e o, st.cuda.recorded e = some o → st.cuda.capturing o = some o
  issued : ∀ o, st.cuda.capturing o = some o →
    attachedCopies st.server.heap st.server.streamCaptureResources o = st.cuda.issued o
  origins : ∀ o o' r, st.cuda.capturing o = some o → st.cuda.capturing o' = some o' →
    st.entry o = some r → st.entry o' = some r → o = o'
  unattached : ∀ o r graph, st.cuda.capturing o = some o → st.entry o = some r →
    st.server.graphResources.lookup graph ≠ some r
  captured : st.CopiesAttributed

theorem attributionInv_init : AttributionInv {} where
  streams_below _ _ h := nomatch h
  events_below _ _ h := nomatch h
  graphs_below _ _ h := nomatch h
  capturing _ _ h := nomatch h
  recorded _ _ h := nomatch h
  issued _ h := nomatch h
  origins _ _ _ h := nomatch h
  unattached _ _ _ h := nomatch h
  captured _ _ h := nomatch h

/-- The state with other resources in the entry of a stream. -/
def CaptureState.setEntry (st : CaptureState) (heap : ResourceHeap) (stream : CUstream)
    (r : ResourcesPtr) : CaptureState :=
  { st with server := { st.server with
      heap
      streamCaptureResources := st.server.streamCaptureResources.insert stream r } }

def CaptureState.setHeap (st : CaptureState) (heap : ResourceHeap) : CaptureState :=
  { st with server := { st.server with heap } }

/-- The state once a copy is issued in a capture and added to resources. -/
def CaptureState.addCopy (st : CaptureState) (origin : CUstream) (r : ResourcesPtr)
    (copy : GraphHostCopy) : CaptureState :=
  { st with
    server := { st.server with
      heap := st.server.heap.modify r (GraphResources.addDtohCopy copy) }
    cuda := st.cuda.issue origin copy }

/-- The state after `lupine_get_stream_resources`. -/
def CaptureState.getStreamResources (st : CaptureState) (stream : CUstream) : CaptureState :=
  { st with server := (st.server.getStreamResources stream).2 }

theorem CaptureState.getStreamResources_cases (st : CaptureState) (stream : CUstream) :
    (∃ r, st.entry stream = some r ∧ (st.server.getStreamResources stream).1 = r ∧
        st.getStreamResources stream = st) ∨
      st.entry stream = none ∧
        (st.server.getStreamResources stream).1 = st.server.heap.next ∧
          st.getStreamResources stream
            = st.setEntry (st.server.heap.alloc {}) stream st.server.heap.next := by
  cases hr : st.entry stream with
  | some r =>
    have hfound : st.server.getStreamResources stream = (r, st.server) := by
      rw [CaptureServer.getStreamResources, PointerTable.upsert_of_some hr]
    refine Or.inl ⟨r, rfl, congrArg Prod.fst hfound, ?_⟩
    rw [CaptureState.getStreamResources, hfound]
  | none =>
    refine Or.inr ⟨rfl, ?_, ?_⟩
    · rw [CaptureServer.getStreamResources, PointerTable.upsert_of_none hr]
    · rw [CaptureState.getStreamResources, CaptureServer.getStreamResources,
        PointerTable.upsert_of_none hr]
      rfl

theorem CaptureState.entry_getStreamResources (st : CaptureState) (stream : CUstream) :
    (st.getStreamResources stream).entry stream
      = some (st.server.getStreamResources stream).1 :=
  PointerTable.lookup_upsert _ _ _ _

theorem CaptureState.captureDtoh_cases (st : CaptureState) (dstHost : HostPtr) (byteCount : ℕ)
    (stream : CUstream) (result : CUresult) :
    let copied := st.server.captureDtoh dstHost byteCount stream result
    ∃ heap : ResourceHeap, heap.next = (st.getStreamResources stream).server.heap.next ∧
      heap.snapshot = (st.getStreamResources stream).server.heap.snapshot ∧
      (copied.1 = none ∧
          { st with server := copied.2 } = (st.getStreamResources stream).setHeap heap ∨
        ∃ copy, copied.1 = some copy ∧ ∀ origin,
          { st with server := copied.2, cuda := st.cuda.issue origin copy }
            = ((st.getStreamResources stream).setHeap heap).addCopy origin
                (st.server.getStreamResources stream).1 copy) := by
  refine ⟨(st.getStreamResources stream).server.heap.modify
      (st.server.getStreamResources stream).1 fun resources ↦
        (resources.allocateCaptureScratch byteCount).2,
    Heap.next_modify _ _ _, ResourceHeap.snapshot_modify
      (fun x ↦ GraphResources.dtohCopySnapshot_allocateCaptureScratch byteCount x) _, ?_⟩
  rw [CaptureServer.captureDtoh]
  split_ifs with hfail
  · exact Or.inl ⟨rfl, rfl⟩
  · exact Or.inr ⟨_, rfl, fun _ ↦ rfl⟩

namespace AttributionInv

variable {st : CaptureState} (h : AttributionInv st)
include h

theorem setHeap {heap : ResourceHeap} (hnext : heap.next = st.server.heap.next)
    (hsnapshot : heap.snapshot = st.server.heap.snapshot) : AttributionInv (st.setHeap heap) where
  streams_below := hnext.symm ▸ h.streams_below
  events_below := hnext.symm ▸ h.events_below
  graphs_below := hnext.symm ▸ h.graphs_below
  capturing := h.capturing
  recorded := h.recorded
  issued o ho := (attachedCopies_congr rfl fun r _ ↦ congrFun hsnapshot r).trans (h.issued o ho)
  origins := h.origins
  unattached := h.unattached
  captured graph copies hcopies :=
    (attachedCopies_congr rfl fun r _ ↦ congrFun hsnapshot r).trans
      (h.captured graph copies hcopies)

theorem newEntry {stream : CUstream}
    (hfree : st.cuda.capturing stream = some stream → st.entry stream = none) :
    AttributionInv (st.setEntry (st.server.heap.alloc {}) stream st.server.heap.next) := by
  have hle : st.server.heap.next ≤ (st.server.heap.alloc {}).next := Nat.le_succ _
  have hsame : ∀ (map : ResourceMap) key, map.Below st.server.heap.next →
      attachedCopies (st.server.heap.alloc {}) map key = attachedCopies st.server.heap map key :=
    fun map key hbelow ↦ attachedCopies_congr rfl fun r hr ↦
      ResourceHeap.snapshot_alloc_of_lt (hbelow.lt hr)
  refine
    { streams_below := h.streams_below.insert_alloc _
      events_below := h.events_below.mono hle
      graphs_below := h.graphs_below.mono hle
      capturing := h.capturing
      recorded := h.recorded
      issued := ?_
      origins := ?_
      unattached := ?_
      captured := fun graph copies hcopies ↦ (hsame _ graph h.graphs_below).trans
        (h.captured graph copies hcopies) }
  · intro o ho
    rcases eq_or_ne o stream with rfl | hne
    · have hnew : attachedCopies (st.server.heap.alloc {})
          (st.server.streamCaptureResources.insert o st.server.heap.next) o = [] := by
        rw [attachedCopies_of_some (AList.lookup_insert _)]
        exact ResourceHeap.snapshot_alloc_next _
      have hold : attachedCopies st.server.heap st.server.streamCaptureResources o = [] :=
        attachedCopies_of_none (hfree ho)
      exact hnew.trans (hold.symm.trans (h.issued o ho))
    · refine Eq.trans ?_ ((hsame _ o h.streams_below).trans (h.issued o ho))
      exact attachedCopies_congr (AList.lookup_insert_ne hne) fun _ _ ↦ rfl
  · intro o o' r ho ho' hr hr'
    -- The new pointer is in no table yet, so it tells the stream from the others.
    rcases lookup_insert_eq_some.mp hr with ⟨hos, hrn⟩ | ⟨-, hr⟩ <;>
      rcases lookup_insert_eq_some.mp hr' with ⟨hos', hrn'⟩ | ⟨-, hr'⟩
    · exact hos.trans hos'.symm
    · exact absurd (hrn ▸ hr') (h.streams_below.lookup_ne o')
    · exact absurd (hrn' ▸ hr) (h.streams_below.lookup_ne o)
    · exact h.origins o o' r ho ho' hr hr'
  · intro o r graph ho hr
    rcases lookup_insert_eq_some.mp hr with ⟨-, rfl⟩ | ⟨-, hr⟩
    · exact h.graphs_below.lookup_ne graph
    · exact h.unattached o r graph ho hr

theorem streamBeginCapture {stream : CUstream} (scratch : Option HostPtr)
    (exchange result : CUresult) (hok : st.cuda.capturing stream ≠ some stream) :
    AttributionInv
      { st with server := (st.server.streamBeginCapture stream scratch exchange result).2 } :=
  (h.newEntry fun hcapturing ↦ absurd hcapturing hok).setHeap (Heap.next_modify _ _ _)
    (ResourceHeap.snapshot_modify (fun x ↦ x.dtohCopySnapshot_installScratch scratch) _)

theorem getStreamResources (stream : CUstream) : AttributionInv (st.getStreamResources stream) := by
  rcases st.getStreamResources_cases stream with ⟨-, -, -, heq⟩ | ⟨hnone, -, heq⟩
  · exact heq.symm ▸ h
  · exact heq.symm ▸ h.newEntry fun _ ↦ hnone

theorem eventRecord (event : CUevent) (stream : CUstream) :
    AttributionInv { st with server := st.server.eventRecord event stream } := by
  rw [CaptureServer.eventRecord]
  cases hr : st.server.streamCaptureResources.lookup stream with
  | none => exact h
  | some r => exact { h with events_below := h.events_below.insert (h.streams_below stream r hr) }

theorem streamWaitEvent {stream : CUstream} {event : CUevent}
    (hok : st.cuda.capturing stream = some stream → st.entry stream = none →
      st.server.eventCaptureResources.lookup event = none) :
    AttributionInv { st with server := st.server.streamWaitEvent stream event } := by
  rw [CaptureServer.streamWaitEvent]
  cases hr : st.server.eventCaptureResources.lookup event with
  | none => exact h
  | some r =>
    -- An origin with an entry keeps it, and one without does not wait for an event that has one.
    have hkeep : ∀ o, st.cuda.capturing o = some o →
        (st.server.streamCaptureResources.insertNew stream r).lookup o
          = st.server.streamCaptureResources.lookup o := by
      intro o ho
      refine PointerTable.lookup_insertNew_of_imp fun hos hnone ↦ ?_
      subst hos
      rw [hok ho hnone] at hr
      exact nomatch hr
    refine
      { h with
        streams_below := h.streams_below.insertNew (h.events_below event r hr)
        issued := fun o ho ↦ (attachedCopies_congr (hkeep o ho) fun _ _ ↦ rfl).trans (h.issued o ho)
        origins := fun o o' q ho ho' hq hq' ↦
          h.origins o o' q ho ho' ((hkeep o ho).symm.trans hq) ((hkeep o' ho').symm.trans hq')
        unattached := fun o q graph ho hq ↦
          h.unattached o q graph ho ((hkeep o ho).symm.trans hq) }

/-- A capture begins on a stream whose entry, if it has one, has no copies and is not shared. -/
theorem beginCapture {stream : CUstream} {graph : Option CUgraph} {cuda : StreamCaptures}
    (hbegin : st.cuda.beginCapture stream graph = some cuda)
    (hunused : ∀ r, st.entry stream = some r → st.server.heap.snapshot r = [] ∧
      (∀ s, st.entry s = some r → s = stream) ∧
        ∀ g, st.server.graphResources.lookup g ≠ some r) :
    AttributionInv { st with cuda } := by
  obtain ⟨hnone, rfl⟩ := StreamCaptures.beginCapture_eq_some hbegin
  -- The only stream in the new capture is its origin, which was in none before.
  have hold : ∀ o s, Function.update st.cuda.capturing stream (some stream) s = some o →
      s = stream ∧ o = stream ∨ s ≠ stream ∧ o ≠ stream ∧ st.cuda.capturing s = some o := by
    intro o s hs
    rcases eq_or_of_update hs with ⟨rfl, heq⟩ | ⟨hne, hs'⟩
    · exact Or.inl ⟨rfl, (Option.some.inj heq).symm⟩
    · refine Or.inr ⟨hne, ?_, hs'⟩
      rintro rfl
      exact nomatch hnone.symm.trans (h.capturing s o hs')
  have hnew : ∀ o, st.cuda.capturing o = some o →
      Function.update st.cuda.capturing stream (some stream) o = some o := by
    intro o ho
    rcases eq_or_ne o stream with rfl | hne
    · rw [Function.update_self]
    · rw [Function.update_of_ne hne, ho]
  refine
    { h with
      capturing := ?_
      recorded := fun e o he ↦ hnew o (h.recorded e o he)
      issued := ?_
      origins := ?_
      unattached := ?_ }
  · intro s o hs
    rcases hold o s hs with ⟨-, rfl⟩ | ⟨-, -, hs⟩
    · exact Function.update_self _ _ _
    · exact hnew o (h.capturing s o hs)
  · intro o ho
    rcases hold o o ho with ⟨rfl, -⟩ | ⟨hne, -, ho⟩
    · show attachedCopies _ _ o = Function.update st.cuda.issued o [] o
      rw [Function.update_self, attachedCopies]
      cases hr : st.server.streamCaptureResources.lookup o with
      | none => rfl
      | some r => exact (hunused r hr).1
    · exact (h.issued o ho).trans (Function.update_of_ne hne _ _).symm
  · intro o o' r ho ho' hr hr'
    rcases hold o o ho with ⟨rfl, -⟩ | ⟨-, -, ho⟩ <;>
      rcases hold o' o' ho' with ⟨rfl, -⟩ | ⟨-, -, ho'⟩
    · rfl
    · exact ((hunused r hr).2.1 o' hr').symm
    · exact (hunused r hr').2.1 o hr
    · exact h.origins o o' r ho ho' hr hr'
  · intro o r g ho hr
    rcases hold o o ho with ⟨rfl, -⟩ | ⟨-, -, ho⟩
    · exact (hunused r hr).2.2 g
    · exact h.unattached o r g ho hr

theorem record (event : CUevent) (stream : CUstream) :
    AttributionInv { st with cuda := st.cuda.record event stream } where
  __ := h
  recorded e o he := by
    rcases eq_or_of_update he with ⟨-, heq⟩ | ⟨-, he⟩
    · exact h.capturing stream o heq
    · exact h.recorded e o he

/-- A stream that joins a capture is the origin of none, before and after. -/
theorem wait_origin_iff {stream : CUstream} {event : CUevent} {cuda : StreamCaptures}
    (hwait : st.cuda.wait stream event = some cuda) {o : CUstream} :
    cuda.capturing o = some o ↔ st.cuda.capturing o = some o := by
  rcases StreamCaptures.wait_eq_some hwait with rfl | ⟨origin, hrecorded, hnone, rfl⟩
  · exact Iff.rfl
  · rcases eq_or_ne o stream with rfl | hne
    · have hother : origin ≠ o := by
        rintro rfl
        exact nomatch hnone.symm.trans (h.recorded event origin hrecorded)
      show Function.update st.cuda.capturing o (some origin) o = some o ↔ _
      rw [Function.update_self, hnone]
      simp [hother]
    · exact iff_of_eq (congrArg (· = some o) (Function.update_of_ne hne _ _))

theorem wait {stream : CUstream} {event : CUevent} {cuda : StreamCaptures}
    (hwait : st.cuda.wait stream event = some cuda) : AttributionInv { st with cuda } := by
  have horigin : ∀ o, cuda.capturing o = some o ↔ st.cuda.capturing o = some o :=
    fun o ↦ h.wait_origin_iff hwait
  have hrest : cuda.recorded = st.cuda.recorded ∧ cuda.issued = st.cuda.issued := by
    rcases StreamCaptures.wait_eq_some hwait with rfl | ⟨-, -, -, rfl⟩ <;> exact ⟨rfl, rfl⟩
  refine
    { h with
      capturing := ?_
      recorded := fun e o he ↦ (horigin o).mpr (h.recorded e o (hrest.1 ▸ he))
      issued := fun o ho ↦ (h.issued o ((horigin o).mp ho)).trans (congrFun hrest.2.symm o)
      origins := fun o o' r ho ho' ↦ h.origins o o' r ((horigin o).mp ho) ((horigin o').mp ho')
      unattached := fun o r g ho ↦ h.unattached o r g ((horigin o).mp ho) }
  intro s o hs
  rw [horigin]
  rcases StreamCaptures.wait_eq_some hwait with rfl | ⟨origin, hrecorded, -, rfl⟩
  · exact h.capturing s o hs
  · rcases eq_or_of_update hs with ⟨-, heq⟩ | ⟨-, hs⟩
    · exact Option.some.inj heq ▸ h.recorded event origin hrecorded
    · exact h.capturing s o hs

theorem addCopy {origin : CUstream} {r : ResourcesPtr} (copy : GraphHostCopy)
    (hcapturing : st.cuda.capturing origin = some origin) (hr : st.entry origin = some r) :
    AttributionInv (st.addCopy origin r copy) where
  __ := h
  issued o ho := by
    show attachedCopies _ st.server.streamCaptureResources o
      = Function.update st.cuda.issued origin _ o
    rcases eq_or_ne o origin with rfl | hne
    · rw [Function.update_self, ← h.issued o ho, attachedCopies_of_some hr,
        attachedCopies_of_some hr]
      exact ResourceHeap.snapshot_addDtohCopy_self _ _ _
    · rw [Function.update_of_ne hne, ← h.issued o ho]
      refine attachedCopies_congr rfl fun q hq ↦ ResourceHeap.snapshot_addDtohCopy_of_ne ?_ copy
      rintro rfl
      exact hne (h.origins o origin q ho hcapturing hq hr)
  captured graph copies hcopies := by
    rw [← h.captured graph copies hcopies]
    refine attachedCopies_congr rfl fun q hq ↦ ResourceHeap.snapshot_addDtohCopy_of_ne ?_ copy
    rintro rfl
    exact h.unattached origin q graph hcapturing hr hq

theorem endCapture (origin : CUstream) :
    AttributionInv { st with cuda := st.cuda.endCapture origin } where
  __ := h
  capturing s o hs := by
    obtain ⟨hne, hs⟩ := StreamCaptures.endCapture_eq_some hs
    exact StreamCaptures.endCapture_of_ne (h.capturing s o hs) hne
  recorded e o he := by
    obtain ⟨hne, he⟩ := StreamCaptures.endCapture_eq_some he
    exact StreamCaptures.endCapture_of_ne (h.recorded e o he) hne
  issued o ho := h.issued o (StreamCaptures.endCapture_eq_some ho).2
  origins o o' r ho ho' :=
    h.origins o o' r (StreamCaptures.endCapture_eq_some ho).2
      (StreamCaptures.endCapture_eq_some ho').2
  unattached o r g ho := h.unattached o r g (StreamCaptures.endCapture_eq_some ho).2

theorem streamEndCapture {stream : CUstream} {graph : CUgraph}
    (hcapturing : st.cuda.capturing stream = some stream)
    (hok : (st.entry stream).isSome ∨ st.server.graphResources.lookup graph = none) :
    AttributionInv { st.finish stream (st.server.streamEndCapture stream graph .success) with
      captured := Function.update st.captured graph (some (st.cuda.issued stream)) } := by
  have hissued := h.issued stream hcapturing
  have hend := h.endCapture stream
  rw [CaptureServer.streamEndCapture, if_pos rfl]
  cases hr : st.server.streamCaptureResources.lookup stream with
  | none =>
    -- the capture has no block, so by the condition the graph has none either: no copies, no entry
    have hgraph : st.server.graphResources.lookup graph = none := by
      refine hok.resolve_left fun hsome ↦ ?_
      rw [CaptureState.entry, hr] at hsome
      exact nomatch hsome
    refine { hend with captured := ?_ }
    intro g copies hcopies
    rcases eq_or_of_update hcopies with ⟨rfl, heq⟩ | ⟨-, hcopies⟩
    · rw [← Option.some.inj heq, ← hissued, attachedCopies_of_none hr]
      exact attachedCopies_of_none hgraph
    · exact h.captured g copies hcopies
  | some r =>
    have hkeep : ∀ o, o ≠ stream → (st.server.streamCaptureResources.erase stream).lookup o
        = st.server.streamCaptureResources.lookup o := fun o hne ↦ AList.lookup_erase_ne hne
    refine
      { hend with
        streams_below := h.streams_below.erase
        graphs_below := h.graphs_below.insert (h.streams_below stream r hr)
        issued := ?_
        origins := ?_
        unattached := ?_
        captured := ?_ }
    · intro o ho
      obtain ⟨hne, ho⟩ := StreamCaptures.endCapture_eq_some ho
      exact (attachedCopies_congr (hkeep o hne) fun _ _ ↦ rfl).trans (h.issued o ho)
    · intro o o' q ho ho' hq hq'
      exact h.origins o o' q (StreamCaptures.endCapture_eq_some ho).2
        (StreamCaptures.endCapture_eq_some ho').2 (lookup_erase_eq_some.mp hq).2
        (lookup_erase_eq_some.mp hq').2
    · intro o q g ho hq hg
      obtain ⟨hne, ho⟩ := StreamCaptures.endCapture_eq_some ho
      have hq := (lookup_erase_eq_some.mp hq).2
      -- the block goes to the graph, and no other capture has it
      rcases lookup_insert_eq_some.mp hg with ⟨-, rfl⟩ | ⟨-, hg⟩
      · exact hne (h.origins o stream r ho hcapturing hq hr)
      · exact h.unattached o q g ho hq hg
    · intro g copies hcopies
      rcases eq_or_of_update hcopies with ⟨rfl, heq⟩ | ⟨hne, hcopies⟩
      · rw [← Option.some.inj heq, ← hissued, attachedCopies_of_some hr]
        exact attachedCopies_of_some (AList.lookup_insert _)
      · refine Eq.trans ?_ (h.captured g copies hcopies)
        exact attachedCopies_congr (AList.lookup_insert_ne hne) fun _ _ ↦ rfl

end AttributionInv

/-! ## Nothing left behind

The resources of entries other than that of an origin have no copies, so a host function that is
launched outside of captures has none to publish. -/

/-- The state between steps when no entry is left behind: only the entry of its origin refers to the
resources of a capture, and the resources of the other entries have no copies. -/
structure ClearInv (st : CaptureState) : Prop where
  live : ∀ o r, st.cuda.capturing o = some o → st.entry o = some r →
    (∀ s, st.entry s = some r → s = o) ∧
      (∀ e, st.server.eventCaptureResources.lookup e ≠ some r) ∧
        ∀ f ∈ st.hostFunctions, f.captured = false → f.resources ≠ r
  streams : ∀ s r, st.entry s = some r → st.cuda.capturing s ≠ some s →
    st.server.heap.snapshot r = []
  events : ∀ e r, st.server.eventCaptureResources.lookup e = some r →
    st.server.heap.snapshot r = []
  functions : ∀ f ∈ st.hostFunctions, f.captured = false → st.server.heap.snapshot f.resources = []
  finished : ∀ r ∈ st.finished, (∀ s, st.entry s ≠ some r) ∧
    ∀ e, st.server.eventCaptureResources.lookup e ≠ some r
  finished_below : ∀ r ∈ st.finished, r < st.server.heap.next
  functions_below : ∀ f ∈ st.hostFunctions, f.resources < st.server.heap.next

theorem clearInv_init : ClearInv {} where
  live _ _ h := nomatch h
  streams _ _ h := nomatch h
  events _ _ h := nomatch h
  functions _ h := absurd h List.not_mem_nil
  finished _ h := absurd h List.not_mem_nil
  finished_below _ h := absurd h List.not_mem_nil
  functions_below _ h := absurd h List.not_mem_nil

namespace ClearInv

variable {st : CaptureState} (hc : ClearInv st) (h : AttributionInv st)
include hc

theorem nothingLeft : st.NothingLeft := ⟨hc.finished, hc.functions⟩

theorem setHeap {heap : ResourceHeap} (hnext : heap.next = st.server.heap.next)
    (hsnapshot : heap.snapshot = st.server.heap.snapshot) : ClearInv (st.setHeap heap) where
  live := hc.live
  streams s r hr hs := (congrFun hsnapshot r).trans (hc.streams s r hr hs)
  events e r hr := (congrFun hsnapshot r).trans (hc.events e r hr)
  functions f hf hcaptured := (congrFun hsnapshot _).trans (hc.functions f hf hcaptured)
  finished := hc.finished
  finished_below r hr := hnext.symm ▸ hc.finished_below r hr
  functions_below f hf := hnext.symm ▸ hc.functions_below f hf

theorem launch {stream : CUstream} {r : ResourcesPtr} (hr : st.entry stream = some r)
    (hbelow : r < st.server.heap.next) :
    ClearInv { st with
      hostFunctions := st.hostFunctions ++ [⟨r, (st.cuda.capturing stream).isSome⟩] } := by
  have hnot : (st.cuda.capturing stream).isSome = false →
      st.cuda.capturing stream ≠ some stream := by
    intro hnone hsome
    rw [hsome] at hnone
    exact nomatch hnone
  refine
    { hc with
      live := fun o q ho hq ↦
        ⟨(hc.live o q ho hq).1, (hc.live o q ho hq).2.1, fun f hf hcaptured ↦ ?_⟩
      functions := fun f hf hcaptured ↦ ?_
      functions_below := fun f hf ↦ ?_ }
  all_goals
    rcases List.mem_append.mp hf with hf | hf
  · exact (hc.live o q ho hq).2.2 f hf hcaptured
  · obtain rfl := List.mem_singleton.mp hf
    rintro rfl
    obtain rfl := (hc.live o r ho hq).1 stream hr
    exact hnot hcaptured ho
  · exact hc.functions f hf hcaptured
  · obtain rfl := List.mem_singleton.mp hf
    exact hc.streams stream r hr (hnot hcaptured)
  · exact hc.functions_below f hf
  · obtain rfl := List.mem_singleton.mp hf
    exact hbelow

theorem record (event : CUevent) (stream : CUstream) :
    ClearInv { st with cuda := st.cuda.record event stream } := { hc with }

include h

theorem newEntry (stream : CUstream) :
    ClearInv (st.setEntry (st.server.heap.alloc {}) stream st.server.heap.next) := by
  have hold : ∀ s r, r < st.server.heap.next →
      (st.server.streamCaptureResources.insert stream st.server.heap.next).lookup s = some r →
        st.entry s = some r := by
    intro s r hlt hs
    rcases lookup_insert_eq_some.mp hs with ⟨-, rfl⟩ | ⟨-, hs⟩
    · exact absurd hlt (lt_irrefl _)
    · exact hs
  refine
    { live := ?_
      streams := ?_
      events := fun e r hr ↦ (ResourceHeap.snapshot_alloc_of_lt (h.events_below.lt hr)).trans
        (hc.events e r hr)
      functions := fun f hf hcaptured ↦ (ResourceHeap.snapshot_alloc_of_lt
        (hc.functions_below f hf)).trans (hc.functions f hf hcaptured)
      finished := fun r hr ↦ ⟨fun s hs ↦
        (hc.finished r hr).1 s (hold s r (hc.finished_below r hr) hs), (hc.finished r hr).2⟩
      finished_below := fun r hr ↦ Nat.lt_succ_of_lt (hc.finished_below r hr)
      functions_below := fun f hf ↦ Nat.lt_succ_of_lt (hc.functions_below f hf) }
  · intro o r ho hr
    rcases lookup_insert_eq_some.mp hr with ⟨rfl, rfl⟩ | ⟨-, hr⟩
    · refine ⟨fun s hs ↦ ?_, h.events_below.lookup_ne,
        fun f hf _ ↦ Nat.ne_of_lt (hc.functions_below f hf)⟩
      rcases lookup_insert_eq_some.mp hs with ⟨hs, -⟩ | ⟨-, hs⟩
      · exact hs
      · exact absurd hs (h.streams_below.lookup_ne s)
    · obtain ⟨hstreams, hrest⟩ := hc.live o r ho hr
      exact ⟨fun s hs ↦ hstreams s (hold s r (h.streams_below.lt hr) hs), hrest⟩
  · intro s r hr hs
    rcases lookup_insert_eq_some.mp hr with ⟨-, rfl⟩ | ⟨-, hr⟩
    · exact ResourceHeap.snapshot_alloc_next _
    · exact (ResourceHeap.snapshot_alloc_of_lt (h.streams_below.lt hr)).trans (hc.streams s r hr hs)

theorem getStreamResources (stream : CUstream) : ClearInv (st.getStreamResources stream) := by
  rcases st.getStreamResources_cases stream with ⟨-, -, -, heq⟩ | ⟨-, -, heq⟩
  · exact heq.symm ▸ hc
  · exact heq.symm ▸ hc.newEntry h stream

omit h in
theorem eventRecord (event : CUevent) {stream : CUstream}
    (hok : st.cuda.capturing stream = some stream → st.entry stream = none) :
    ClearInv { st with server := st.server.eventRecord event stream } := by
  rw [CaptureServer.eventRecord]
  cases hr : st.server.streamCaptureResources.lookup stream with
  | none => exact hc
  | some r =>
    have hstream : st.cuda.capturing stream ≠ some stream :=
      fun ho ↦ nomatch (hok ho).symm.trans hr
    refine
      { hc with
        live := fun o q ho hq ↦
          ⟨(hc.live o q ho hq).1, fun e he ↦ ?_, (hc.live o q ho hq).2.2⟩
        events := fun e q he ↦ ?_
        finished := fun q hq ↦ ⟨(hc.finished q hq).1, fun e he ↦ ?_⟩ }
    all_goals
      rcases lookup_insert_eq_some.mp he with ⟨-, rfl⟩ | ⟨-, he⟩
    · exact hstream ((hc.live o r ho hq).1 stream hr ▸ ho)
    · exact (hc.live o q ho hq).2.1 e he
    · exact hc.streams stream r hr hstream
    · exact hc.events e q he
    · exact (hc.finished r hq).1 stream hr
    · exact (hc.finished q hq).2 e he

omit h in
theorem streamWaitEvent {stream : CUstream} {event : CUevent}
    (hok : st.cuda.capturing stream = some stream → st.entry stream = none →
      st.server.eventCaptureResources.lookup event = none) :
    ClearInv { st with server := st.server.streamWaitEvent stream event } := by
  rw [CaptureServer.streamWaitEvent]
  cases hr : st.server.eventCaptureResources.lookup event with
  | none => exact hc
  | some r =>
    refine
      { hc with
        live := fun o q ho hq ↦ ?_
        streams := fun s q hs hcapturing ↦ ?_
        finished := fun q hq ↦ ⟨fun s hs ↦ ?_, (hc.finished q hq).2⟩ }
    · rcases PointerTable.lookup_insertNew_eq_some.mp hq with hq | ⟨rfl, hnone, rfl⟩
      · obtain ⟨hstreams, hevents, hfunctions⟩ := hc.live o q ho hq
        refine ⟨fun s hs ↦ ?_, hevents, hfunctions⟩
        rcases PointerTable.lookup_insertNew_eq_some.mp hs with hs | ⟨-, -, rfl⟩
        · exact hstreams s hs
        · exact absurd hr (hevents event)
      · exact nomatch (hok ho hnone).symm.trans hr
    · rcases PointerTable.lookup_insertNew_eq_some.mp hs with hs | ⟨-, -, rfl⟩
      · exact hc.streams s q hs hcapturing
      · exact hc.events event r hr
    · rcases PointerTable.lookup_insertNew_eq_some.mp hs with hs | ⟨-, -, rfl⟩
      · exact (hc.finished q hq).1 s hs
      · exact (hc.finished r hq).2 event hr

omit h in
theorem beginCapture {stream : CUstream} {graph : Option CUgraph} {cuda : StreamCaptures}
    (hbegin : st.cuda.beginCapture stream graph = some cuda)
    (hunused : ∀ r, st.entry stream = some r → (∀ s, st.entry s = some r → s = stream) ∧
      (∀ e, st.server.eventCaptureResources.lookup e ≠ some r) ∧
        ∀ f ∈ st.hostFunctions, f.resources ≠ r) :
    ClearInv { st with cuda } := by
  obtain ⟨-, rfl⟩ := StreamCaptures.beginCapture_eq_some hbegin
  refine { hc with live := ?_, streams := ?_ }
  · intro o r ho hr
    rcases eq_or_of_update ho with ⟨rfl, -⟩ | ⟨-, ho⟩
    · obtain ⟨hstreams, hevents, hfunctions⟩ := hunused r hr
      exact ⟨hstreams, hevents, fun f hf _ ↦ hfunctions f hf⟩
    · exact hc.live o r ho hr
  · intro s r hr hs
    refine hc.streams s r hr fun hcapturing ↦ hs ?_
    rcases eq_or_ne s stream with rfl | hne
    · exact Function.update_self _ _ _
    · exact (Function.update_of_ne hne _ _).trans hcapturing

theorem wait {stream : CUstream} {event : CUevent} {cuda : StreamCaptures}
    (hwait : st.cuda.wait stream event = some cuda) : ClearInv { st with cuda } :=
  { hc with
    live := fun o r ho ↦ hc.live o r ((h.wait_origin_iff hwait).mp ho)
    streams := fun s r hr hs ↦ hc.streams s r hr fun ho ↦ hs ((h.wait_origin_iff hwait).mpr ho) }

omit h in
theorem addCopy {origin : CUstream} {r : ResourcesPtr} (copy : GraphHostCopy)
    (hcapturing : st.cuda.capturing origin = some origin) (hr : st.entry origin = some r) :
    ClearInv (st.addCopy origin r copy) := by
  obtain ⟨hstreams, hevents, hfunctions⟩ := hc.live origin r hcapturing hr
  have hsame : ∀ q, q ≠ r → (st.addCopy origin r copy).server.heap.snapshot q
      = st.server.heap.snapshot q :=
    fun q hne ↦ ResourceHeap.snapshot_addDtohCopy_of_ne hne copy
  exact
    { hc with
      streams := fun s q hq hs ↦
        (hsame q (by rintro rfl; exact hs (hstreams s hq ▸ hcapturing))).trans
          (hc.streams s q hq hs)
      events := fun e q hq ↦ (hsame q (by rintro rfl; exact hevents e hq)).trans (hc.events e q hq)
      functions := fun f hf hcaptured ↦
        (hsame _ (hfunctions f hf hcaptured)).trans (hc.functions f hf hcaptured) }

/-- A capture is over and leaves no entry: it has none, or its graph takes the entry. -/
theorem finish {stream : CUstream} {graph : CUgraph} {result : CUresult}
    (hcapturing : st.cuda.capturing stream = some stream)
    (hok : result ≠ .success → st.entry stream = none) :
    ClearInv (st.finish stream (st.server.streamEndCapture stream graph result)) := by
  have hlive : ∀ o r, (st.cuda.endCapture stream).capturing o = some o → st.entry o = some r → _ :=
    fun o r ho hr ↦ hc.live o r (StreamCaptures.endCapture_eq_some ho).2 hr
  have horigin : ∀ s, s ≠ stream → (st.cuda.endCapture stream).capturing s ≠ some s →
      st.cuda.capturing s ≠ some s :=
    fun s hne hs ho ↦ hs (StreamCaptures.endCapture_of_ne ho hne)
  cases hr : st.entry stream with
  | none =>
    have hserver : st.server.streamEndCapture stream graph result = st.server := by
      rw [CaptureServer.streamEndCapture, show st.server.streamCaptureResources.lookup stream = none
        from hr]
      exact ite_self _
    have hfinished : st.finished ++ (st.entry stream).toList = st.finished := by
      rw [hr]
      exact List.append_nil _
    rw [CaptureState.finish, hserver, hfinished]
    refine { hc with live := hlive, streams := fun s r hs ho ↦ hc.streams s r hs (horigin s ?_ ho) }
    rintro rfl
    exact nomatch hr.symm.trans hs
  | some r =>
    -- The entry moves from the stream to the graph.
    have hresult : result = .success := by
      by_contra hne
      exact nomatch (hok hne).symm.trans hr
    obtain ⟨hstreams, hevents, -⟩ := hc.live stream r hcapturing hr
    have hserver : st.server.streamEndCapture stream graph result = { st.server with
        streamCaptureResources := st.server.streamCaptureResources.erase stream
        graphResources := st.server.graphResources.insert graph r } := by
      rw [CaptureServer.streamEndCapture, if_pos hresult,
        show st.server.streamCaptureResources.lookup stream = some r from hr]
    rw [CaptureState.finish, hserver, hr]
    refine
      { hc with
        live := fun o q ho hq ↦ ?_
        streams := fun s q hs ho ↦ ?_
        finished := fun q hq ↦ ?_
        finished_below := fun q hq ↦ ?_ }
    · obtain ⟨hold, hrest⟩ := hlive o q ho (lookup_erase_eq_some.mp hq).2
      exact ⟨fun s hs ↦ hold s (lookup_erase_eq_some.mp hs).2, hrest⟩
    · obtain ⟨hne, hs⟩ := lookup_erase_eq_some.mp hs
      exact hc.streams s q hs (horigin s hne ho)
    · rcases List.mem_append.mp hq with hq | hq
      · obtain ⟨hnone, hevents⟩ := hc.finished q hq
        exact ⟨fun s hs ↦ hnone s (lookup_erase_eq_some.mp hs).2, hevents⟩
      · obtain rfl := List.mem_singleton.mp hq
        refine ⟨fun s hs ↦ ?_, hevents⟩
        obtain ⟨hne, hs⟩ := lookup_erase_eq_some.mp hs
        exact hne (hstreams s hs)
    · rcases List.mem_append.mp hq with hq | hq
      · exact hc.finished_below q hq
      · obtain rfl := List.mem_singleton.mp hq
        exact h.streams_below.lt hr

end ClearInv

/-! ## Steps keep the invariants

A copy is the step that both invariants have most to say about; every other request changes entries
or the captures, and not both at once. -/

theorem AttributionInv.memcpyDtoHAsync {st : CaptureState} (h : AttributionInv st)
    {dstHost : HostPtr} {byteCount : ℕ} {stream origin : CUstream} {result : CUresult}
    (hcapturing : st.cuda.capturing stream = some origin)
    (hok : (st.server.captureDtoh dstHost byteCount stream result).1 = none ∨ stream = origin ∨
      (st.entry stream).isSome ∧ st.entry stream = st.entry origin) :
    let copied := st.server.captureDtoh dstHost byteCount stream result
    let st' : CaptureState :=
      { st with server := copied.2, cuda := copied.1.elim st.cuda (st.cuda.issue origin) }
    AttributionInv st' ∧ (ClearInv st → ClearInv st') := by
  intro copied st'
  have horigin := h.capturing stream origin hcapturing
  -- if a copy is captured, the origin and the stream lead to one block
  have hentry : copied.1 ≠ none →
      (st.getStreamResources stream).entry origin
        = some (st.server.getStreamResources stream).1 := by
    intro hcopied
    rcases hok with hnone | rfl | ⟨hentry, hsame⟩
    · exact absurd hnone hcopied
    · exact st.entry_getStreamResources stream
    · obtain ⟨r, hr⟩ := Option.isSome_iff_exists.mp hentry
      rcases st.getStreamResources_cases stream with ⟨q, hq, hfound, hst⟩ | ⟨hnone, -⟩
      · rw [hst, hfound, ← hq, hsame]
      · exact nomatch hnone.symm.trans hr
  obtain ⟨heap, hnext, hsnapshot, hcopied⟩ :=
    st.captureDtoh_cases dstHost byteCount stream result
  -- the block of the stream gets scratch memory, whether a copy follows or not
  have hscratch := (h.getStreamResources stream).setHeap hnext hsnapshot
  have hclear : ClearInv st → ClearInv ((st.getStreamResources stream).setHeap heap) :=
    fun hc ↦ (hc.getStreamResources h stream).setHeap hnext hsnapshot
  rcases hcopied with ⟨hnone, heq⟩ | ⟨copy, hsome, heq⟩
  · have hst' : st' = (st.getStreamResources stream).setHeap heap := by
      rw [← heq]
      show CaptureState.mk _ (copied.1.elim _ _) _ _ _ = _
      rw [show copied.1 = none from hnone]
      rfl
    exact hst' ▸ ⟨hscratch, hclear⟩
  · have hst' : st' = ((st.getStreamResources stream).setHeap heap).addCopy origin
        (st.server.getStreamResources stream).1 copy := by
      rw [← heq]
      show CaptureState.mk _ (copied.1.elim _ _) _ _ _ = _
      rw [show copied.1 = some copy from hsome]
      rfl
    -- CUDA lists the copy under the origin, the server in the block of the stream
    have hr := hentry (by rw [show copied.1 = some copy from hsome]; exact Option.some_ne_none _)
    exact hst' ▸ ⟨hscratch.addCopy copy horigin hr, fun hc ↦ (hclear hc).addCopy copy horigin hr⟩

/-- What a step is made of, for a state between steps: if the steps attribute copies so far they do
after it, and if besides they leave nothing behind then neither does this one. -/
theorem captureStep_invariant {st st' : CaptureState} {step : CaptureStep} (h : AttributionInv st)
    (hok : AttributesCopies st step) (hstep : captureStep st step = some st') :
    AttributionInv st' ∧ (ClearInv st → ClearsEntries st step → ClearInv st') := by
  cases step with
  | beginCapture stream scratch exchange result =>
    have hbegun := h.streamBeginCapture scratch exchange result hok
    have hclear : ClearInv st → ClearInv { st with
        server := (st.server.streamBeginCapture stream scratch exchange result).2 } :=
      fun hc ↦ (hc.newEntry h stream).setHeap (Heap.next_modify _ _ _)
        (ResourceHeap.snapshot_modify (fun x ↦ x.dtohCopySnapshot_installScratch scratch) _)
    rcases ite_eq_iff.mp hstep with ⟨-, hstep⟩ | ⟨-, hstep⟩
    · obtain ⟨cuda, hcuda, rfl⟩ := Option.map_eq_some_iff.mp hstep
      -- the block of the new capture is fresh, so only this stream leads to it
      have hnew : ∀ s, (st.server.streamCaptureResources.insert stream st.server.heap.next).lookup s
          = some st.server.heap.next → s = stream := by
        intro s hs
        rcases lookup_insert_eq_some.mp hs with ⟨heq, -⟩ | ⟨-, hs⟩
        · exact heq
        · exact absurd hs (h.streams_below.lookup_ne s)
      have hentry : ∀ r, (st.server.streamCaptureResources.insert stream st.server.heap.next).lookup
          stream = some r → r = st.server.heap.next :=
        fun r hr ↦ Option.some.inj (hr.symm.trans (AList.lookup_insert _))
      refine ⟨hbegun.beginCapture hcuda fun r hr ↦ ?_,
        fun hc _ ↦ (hclear hc).beginCapture hcuda fun r hr ↦ ?_⟩
      · rw [hentry r hr]
        exact ⟨st.server.snapshot_streamBeginCapture stream scratch exchange result, hnew,
          h.graphs_below.lookup_ne⟩
      · rw [hentry r hr]
        exact ⟨hnew, h.events_below.lookup_ne, fun f hf ↦ Nat.ne_of_lt (hc.functions_below f hf)⟩
    · exact Option.some.inj hstep ▸ ⟨hbegun, fun hc _ ↦ hclear hc⟩
  | beginCaptureToGraph stream graph result =>
    rcases ite_eq_iff.mp hstep with ⟨hresult, hstep⟩ | ⟨-, hstep⟩
    · obtain ⟨cuda, hcuda, rfl⟩ := Option.map_eq_some_iff.mp hstep
      refine ⟨h.beginCapture hcuda fun r hr ↦ ?_, fun hc _ ↦ hc.beginCapture hcuda fun r hr ↦ ?_⟩
      -- nothing else leads to the block of the graph, by the condition on the step
      all_goals
        obtain ⟨hstreams, hevents, hgraphs, hfunctions, hcopies⟩ := hok hresult r hr
      · exact ⟨hcopies, fun s hs ↦ hstreams s (PointerTable.mem_holders.mpr hs),
          PointerTable.holders_eq_nil_iff.mp hgraphs⟩
      · exact ⟨fun s hs ↦ hstreams s (PointerTable.mem_holders.mpr hs),
          PointerTable.holders_eq_nil_iff.mp hevents, hfunctions⟩
    · exact Option.some.inj hstep ▸ ⟨h, fun hc _ ↦ hc⟩
  -- the handler enters the event whatever the result of the record was
  | eventRecord event stream result =>
    obtain rfl := Option.some.inj hstep
    have hserver := h.eventRecord event stream
    by_cases hresult : result = .success
    · rw [if_pos hresult]
      exact ⟨hserver.record event stream,
        fun hc hclears ↦ (hc.eventRecord event hclears).record event stream⟩
    · rw [if_neg hresult]
      exact ⟨hserver, fun hc hclears ↦ hc.eventRecord event hclears⟩
  | waitEvent stream event result =>
    have hserver := h.streamWaitEvent hok
    rcases ite_eq_iff.mp hstep with ⟨-, hstep⟩ | ⟨-, hstep⟩
    · obtain ⟨cuda, hcuda, rfl⟩ := Option.map_eq_some_iff.mp hstep
      exact ⟨hserver.wait hcuda, fun hc _ ↦ (hc.streamWaitEvent hok).wait hserver hcuda⟩
    · exact Option.some.inj hstep ▸ ⟨hserver, fun hc _ ↦ hc.streamWaitEvent hok⟩
  | launchHostFunc stream result =>
    obtain rfl := Option.some.inj hstep
    have hserver := h.getStreamResources stream
    refine ⟨{ hserver with }, fun hc _ ↦ ?_⟩
    have hclear := hc.getStreamResources h stream
    have hentry := st.entry_getStreamResources stream
    by_cases hresult : result = .success
    · rw [if_pos hresult]
      exact hclear.launch hentry (hserver.streams_below.lt hentry)
    · rw [if_neg hresult]
      exact hclear
  | memcpyDtoHAsync dstHost byteCount stream buffer pinned result =>
    change (match st.isCapturing stream with | some origin => _ | none => _) = _ at hstep
    cases hcapturing : st.isCapturing stream with
    -- a copy of a capturing stream goes into the block of its origin; any other is run at once
    | some origin =>
      rw [hcapturing] at hstep
      obtain rfl := Option.some.inj hstep
      obtain ⟨hnext, hclear⟩ := h.memcpyDtoHAsync (Option.ite_none_left_eq_some.mp hcapturing).2
        (hok origin hcapturing)
      exact ⟨hnext, fun hc _ ↦ hclear hc⟩
    | none =>
      rw [hcapturing] at hstep
      obtain rfl := Option.some.inj hstep
      rw [CaptureServer.pendingDtoh]
      split_ifs
      · exact ⟨{ h with }, fun hc _ ↦ { hc with }⟩
      · exact ⟨h, fun hc _ ↦ hc⟩
  | endCapture stream graph result ended =>
    rcases ite_eq_iff.mp hstep with ⟨hover, hstep⟩ | ⟨-, hstep⟩
    · obtain ⟨⟨hcapturing, -⟩, hstep⟩ := Option.ite_none_right_eq_some.mp hstep
      -- the entries of the origin are cleared, those of the forked streams are not
      have hclear : ClearInv st → ClearsEntries st (.endCapture stream graph result ended) →
          ClearInv (st.finish stream (st.server.streamEndCapture stream graph result)) :=
        fun hc hclears ↦ hc.finish h hcapturing fun hresult ↦
          hclears hresult (hover.resolve_left hresult)
      rcases ite_eq_iff.mp hstep with ⟨rfl, hstep⟩ | ⟨hresult, hstep⟩
      · obtain rfl := Option.some.inj hstep
        exact ⟨h.streamEndCapture hcapturing (hok rfl), fun hc hclears ↦ { hclear hc hclears with }⟩
      · obtain rfl := Option.some.inj hstep
        refine ⟨?_, hclear⟩
        rw [CaptureServer.streamEndCapture, if_neg hresult]
        exact { h.endCapture stream with }
    · exact Option.some.inj hstep ▸ ⟨h, fun hc _ ↦ hc⟩

/-- **Copies are attributed.** In a run all of whose steps keep the copies of captures apart, the
graph of each capture has the copies issued in it. If besides no step leaves an entry behind, no
entry refers to a capture that is over. -/
theorem captureCopies_attributed {steps : List CaptureStep} {st : CaptureState}
    (hrun : (streamCapture.restrict AttributesCopies).run {} steps = some st) :
    st.CopiesAttributed ∧
      (((streamCapture.restrict fun st step ↦ AttributesCopies st step ∧ ClearsEntries st step).run
          {} steps).isSome → st.NothingLeft) := by
  have hattributed : AttributionInv st := by
    refine Machine.run_invariant _ ?_ attributionInv_init hrun
    intro s step s' h hstep
    obtain ⟨hok, hstep⟩ := Machine.step_restrict.mp hstep
    exact (captureStep_invariant h hok hstep).1
  refine ⟨hattributed.captured, fun hclears ↦ ?_⟩
  obtain ⟨st', hrun'⟩ := Option.isSome_iff_exists.mp hclears
  obtain rfl : st = st' := by
    rw [Machine.run_restrict_mono (fun _ _ hok ↦ hok.1) hrun'] at hrun
    exact (Option.some.inj hrun).symm
  have hclear : AttributionInv st ∧ ClearInv st := by
    refine Machine.run_invariant (I := fun st ↦ AttributionInv st ∧ ClearInv st) _ ?_
      ⟨attributionInv_init, clearInv_init⟩ hrun'
    intro s step s' h hstep
    obtain ⟨⟨hok, hclears⟩, hstep⟩ := Machine.step_restrict.mp hstep
    obtain ⟨hnext, hclear⟩ := captureStep_invariant h.1 hok hstep
    exact ⟨hnext, hclear h.2 hclears⟩
  exact hclear.2.nothingLeft

/-- A capture on stream 1 that stream 2 joins, copies on, and is joined back from. -/
def forkedCapture (scratch dstHost : HostPtr) (graph : CUgraph) : List CaptureStep :=
  [.beginCapture 1 (some scratch) .success .success, .eventRecord 7 1 .success,
    .waitEvent 2 7 .success, .memcpyDtoHAsync dstHost 8 2 0 false .success,
    .eventRecord 8 2 .success, .waitEvent 1 8 .success, .endCapture 1 graph .success true]

/-- A capture on stream 1 alone, and a host function on the stream when it is over. -/
def plainCapture : List CaptureStep :=
  [.beginCapture 1 (some 4096) .success .success, .memcpyDtoHAsync 100 8 1 0 false .success,
    .launchHostFunc 1 .success, .endCapture 1 50 .success true, .launchHostFunc 1 .success]

theorem captureCopies_attributed_captures :
    (∃ st, (streamCapture.restrict AttributesCopies).run {} (forkedCapture 4096 100 50) = some st ∧
        st.CopiesAttributed) ∧
      ∃ st, (streamCapture.restrict AttributesCopies).run {} plainCapture = some st ∧
        st.CopiesAttributed ∧ st.NothingLeft := by
  have hforked : ((streamCapture.restrict AttributesCopies).run {}
      (forkedCapture 4096 100 50)).isSome = true := by decide +kernel
  have hplain : ((streamCapture.restrict AttributesCopies).run {} plainCapture).isSome = true := by
    decide +kernel
  obtain ⟨st, hrun⟩ := Option.isSome_iff_exists.mp hforked
  obtain ⟨st', hrun'⟩ := Option.isSome_iff_exists.mp hplain
  obtain ⟨hcopies, hleft⟩ := captureCopies_attributed hrun'
  exact ⟨⟨st, hrun, (captureCopies_attributed hrun).1⟩, st', hrun', hcopies,
    hleft (by decide +kernel)⟩

/-- Two captures that fork to the same stream: it keeps the resources of the first, which get the
copies of the second. -/
theorem refork_misattributes :
    ∃ st, streamCapture.run {} (forkedCapture 4096 100 50 ++ forkedCapture 8192 200 51) = some st ∧
      ¬st.CopiesAttributed ∧ ¬st.NothingLeft := by
  have hfacts : (streamCapture.run {}
        (forkedCapture 4096 100 50 ++ forkedCapture 8192 200 51)).map (fun st ↦
          (st.captured 51, attachedCopies st.server.heap st.server.graphResources 51,
            st.finished, st.entry 2))
      = some (some [⟨200, 4352, 8⟩], [], [1, 2], some 1) := by decide +kernel
  obtain ⟨st, hrun, heq⟩ := Option.map_eq_some_iff.mp hfacts
  simp only [Prod.mk.injEq] at heq
  obtain ⟨hcaptured, hattached, hfinished, hentry⟩ := heq
  refine ⟨st, hrun, fun hcopies ↦ ?_, fun hleft ↦ ?_⟩
  · exact nomatch hattached.symm.trans (hcopies 51 _ hcaptured)
  · exact (hleft.1 1 (hfinished ▸ List.mem_cons_self)).1 2 hentry

end Lupine
