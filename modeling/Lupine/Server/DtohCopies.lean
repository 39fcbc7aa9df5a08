import Lupine.Cuda
import Lupine.Foundation.Patches

/-!
# Deferred device-to-host copies

An asynchronous copy to the host lands in a server buffer first and travels to the client in the
response of a later synchronization. Two containers remember what is still to travel: the pending
copies of a connection, by stream, and the resources of the graphs launched since the last
synchronization, again by stream, each of which lists the copies of its graph.

Both containers are hash maps from streams to vectors. Here each is one list in the order of
insertion, whose entries name their stream; a vector is what the list has for a stream. The order in
which a map is walked when every stream is taken is unspecified, and nothing below depends on it.
-/

namespace Lupine

open Foundation

/-- `lupine_graph_host_copy`. -/
structure GraphHostCopy where
  clientDst : HostPtr
  serverSrc : HostPtr
  bytes : ℕ
  deriving DecidableEq, Repr

/-- `lupine_pending_dtoh_copy`. -/
structure PendingDtohCopy where
  stream : CUstream
  clientDst : HostPtr
  serverSrc : HostPtr
  bytes : ℕ
  pinned : Bool
  deriving DecidableEq, Repr

/-- The address of a `lupine_graph_resources`; zero is `nullptr`. -/
abbrev ResourcesPtr := ℕ

/-- The launched-graph resource map. -/
abbrev LaunchedGraphResources (α : Type) := List (CUstream × α)

/-- The copies of a `lupine_graph_resources`, by address, in the order they were added: what
`dtoh_copy_snapshot` returns. -/
abbrev DtohCopySnapshot := ResourcesPtr → List GraphHostCopy

/-! ## Launched graphs

What is noted under a stream is taken as a whole. -/

/-- `lupine_note_launched_graph_resources`; what is noted may carry more than the resources. -/
def noteLaunchedGraphResources {α : Type} (launched : LaunchedGraphResources α)
    (stream : CUstream) (resources : α) : LaunchedGraphResources α :=
  launched ++ [(stream, resources)]

/-- What was noted for a stream, and the map without it. -/
def takeLaunchedGraphResources {α : Type} (launched : LaunchedGraphResources α)
    (stream : CUstream) : List α × LaunchedGraphResources α :=
  ((launched.filter fun entry ↦ entry.1 == stream).map Prod.snd,
    launched.filter fun entry ↦ entry.1 != stream)

/-- What was noted for all streams, and the empty map. -/
def takeAllLaunchedGraphResources {α : Type} (launched : LaunchedGraphResources α) :
    List α × LaunchedGraphResources α :=
  (launched.map Prod.snd, [])

/-- `lupine_graph_host_copies_for`. -/
def graphHostCopiesFor (snapshot : DtohCopySnapshot) (resources : List ResourcesPtr) :
    List GraphHostCopy :=
  resources.flatMap fun resource ↦ if resource = 0 then [] else snapshot resource

theorem mem_graphHostCopiesFor {snapshot : DtohCopySnapshot} {resources : List ResourcesPtr}
    {copy : GraphHostCopy} :
    copy ∈ graphHostCopiesFor snapshot resources ↔
      ∃ r ∈ resources, r ≠ 0 ∧ copy ∈ snapshot r := by
  rw [graphHostCopiesFor, List.mem_flatMap]
  refine exists_congr fun r ↦ and_congr_right fun _ ↦ ?_
  split_ifs with hr <;> simp [hr]

theorem graphHostCopiesFor_append (snapshot : DtohCopySnapshot) (rs rs' : List ResourcesPtr) :
    graphHostCopiesFor snapshot (rs ++ rs')
      = graphHostCopiesFor snapshot rs ++ graphHostCopiesFor snapshot rs' :=
  List.flatMap_append

/-- `lupine_take_launched_graph_host_copies`: the copies and what is left in the map. -/
def takeLaunchedGraphHostCopies (snapshot : DtohCopySnapshot)
    (launched : LaunchedGraphResources ResourcesPtr) (stream : CUstream) :
    List GraphHostCopy × LaunchedGraphResources ResourcesPtr :=
  let taken := takeLaunchedGraphResources launched stream
  (graphHostCopiesFor snapshot taken.1, taken.2)

/-! ## Pending copies -/

/-- `lupine_detach_pending_dtoh_copies`: the copies detached and those that stay. The entries may
carry more than the copy itself. -/
def detachPendingDtohCopies {α : Type*} (copyOf : α → PendingDtohCopy) (pending : List α)
    (stream : CUstream) (allStreams : Bool) : List α × List α :=
  if allStreams then (pending, [])
  else (pending.filter fun entry ↦ (copyOf entry).stream == stream,
    pending.filter fun entry ↦ (copyOf entry).stream != stream)

/-! ## Responses

Graph copies come first and pending copies behind them, with one count for both. The client reads as
many as are announced. -/

/-- What a server buffer holds, by address. A buffer is one allocation and is only read from its
start. -/
abbrev HostBuffers := HostPtr → Memory UInt8

/-- The first `n` bytes of a buffer, as they are sent. -/
def payload (buffer : Memory UInt8) (n : ℕ) : List UInt8 := (List.range n).map buffer

/-- A graph copy on the wire: the client destination and the bytes its buffer holds. -/
def GraphHostCopy.patch (buffers : HostBuffers) (copy : GraphHostCopy) : Patch UInt8 :=
  ⟨copy.clientDst, payload (buffers copy.serverSrc) copy.bytes⟩

def PendingDtohCopy.patch (buffers : HostBuffers) (copy : PendingDtohCopy) : Patch UInt8 :=
  ⟨copy.clientDst, payload (buffers copy.serverSrc) copy.bytes⟩

theorem GraphHostCopy.covers_patch {buffers : HostBuffers} {copy : GraphHostCopy} {x : ℕ} :
    (copy.patch buffers).Covers x ↔
      copy.clientDst ≤ x ∧ x < copy.clientDst + copy.bytes := by
  rw [Patch.Covers, GraphHostCopy.patch, payload, List.length_map, List.length_range]

/-- The copies of a response behind the 32-bit count that announces them. -/
structure DtohResponse where
  copyCount : ℕ
  copies : List (Patch UInt8)

/-- The copies of a response that carries graph copies and pending copies: first the former, by
`lupine_write_graph_host_copies`, then the latter, by `lupine_write_pending_dtoh_copies`. -/
def writeDtohCopies (buffers : HostBuffers) (graphCopies : List GraphHostCopy)
    (pending : List PendingDtohCopy) : DtohResponse where
  copyCount := (graphCopies.length % 2 ^ 32 + pending.length % 2 ^ 32) % 2 ^ 32
  copies := graphCopies.map (GraphHostCopy.patch buffers) ++
    pending.map (PendingDtohCopy.patch buffers)

/-- `lupine_read_deferred_dtoh_copies`: the client's memory once it has read what was announced. -/
def readDeferredDtohCopies (client : Memory UInt8) (response : DtohResponse) : Memory UInt8 :=
  applyPatches client (response.copies.take response.copyCount)

/-- A response whose count fits its field is read as a whole. -/
theorem readDeferredDtohCopies_writeDtohCopies (client : Memory UInt8) (buffers : HostBuffers)
    {graphCopies : List GraphHostCopy} {pending : List PendingDtohCopy}
    (h : graphCopies.length + pending.length < 2 ^ 32) :
    readDeferredDtohCopies client (writeDtohCopies buffers graphCopies pending)
      = applyPatches (applyPatches client (graphCopies.map (GraphHostCopy.patch buffers)))
          (pending.map (PendingDtohCopy.patch buffers)) := by
  have hcount : (writeDtohCopies buffers graphCopies pending).copyCount
      = graphCopies.length + pending.length := by
    rw [writeDtohCopies, ← Nat.add_mod, Nat.mod_eq_of_lt h]
  rw [readDeferredDtohCopies, hcount, writeDtohCopies, ← applyPatches_append,
    List.take_of_length_le]
  simp

end Lupine
