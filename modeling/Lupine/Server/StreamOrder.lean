import Lupine.Server.DtohCopies
import Mathlib.Algebra.Order.Group.Nat

/-!
# The order of deferred copies on one stream

Copies and graph launches issued on one stream write their host buffers in the order of issue. The
response of the synchronization that ends the batch lists the outputs of all launched graphs before
all plain copies, so the client applies them in another order. This file says when that shows.

## Buffers

A plain copy has a buffer of its own until it is delivered. The buffers of a graph belong to its
resources and are written again by every launch, so a launch that is followed by another launch of
the same graph is delivered with the later one's outputs. That never shows: the later launch covers
the same client bytes.

## The last value of a byte

Two orders of the same writes agree on a byte exactly when the last write that covers it has the
same value in both. In the response the graphs come first, so only a byte of a plain copy can end
differently, and it does when a launch behind the copy leaves another value there.
-/

namespace Lupine

open Foundation

/-! ## The stream

The buffers are looked at when the stream is synchronized; a copy may be taken to run when it is
issued. -/

/-- The copies of the graph resources, whose buffers belong to one resource each. -/
structure GraphBuffers where
  copies : DtohCopySnapshot
  /-- The resource a buffer belongs to, if it belongs to one. -/
  owner : HostPtr → Option ResourcesPtr
  owner_eq : ∀ r, ∀ copy ∈ copies r, owner copy.serverSrc = some r

/-- A call on the stream, with what the driver answers and what the device writes. -/
inductive CopyOp where
  /-- `cuMemcpyDtoHAsync_v2`: the buffer the server allocates (zero when it cannot), and the bytes
  the copy writes to it. -/
  | memcpyDtoHAsync (dstHost host : HostPtr) (byteCount : ℕ) (pinned : Bool) (result : CUresult)
      (data : Memory UInt8)
  /-- `cuGraphLaunch`: the resources of the executable graph, if it has any, and what the launch
  writes to each of their buffers. -/
  | graphLaunch (resources : Option ResourcesPtr) (result : CUresult) (outputs : HostBuffers)

structure StreamState where
  buffers : HostBuffers
  pending : List PendingDtohCopy := []
  launched : LaunchedGraphResources ResourcesPtr := []
  client : Memory UInt8

variable (graphs : GraphBuffers) (stream : CUstream)

def runGraph (r : ResourcesPtr) (outputs buffers : HostBuffers) : HostBuffers :=
  fun host ↦ if graphs.owner host = some r then outputs host else buffers host

/-- `handle_manual_cuMemcpyDtoHAsync_v2`, outside captures, and `handle_manual_cuGraphLaunch`. The
buffers are only looked at once the stream is synchronized, so that a copy may be taken to run when
it is issued. -/
def CopyOp.handle (st : StreamState) : CopyOp → StreamState
  | .memcpyDtoHAsync dstHost host byteCount pinned result data =>
    if byteCount ≠ 0 ∧ host = 0 then st
    else if result = .success ∧ byteCount ≠ 0 then
      { st with
        buffers := Function.update st.buffers host data
        pending := st.pending ++ [⟨stream, dstHost, host, byteCount, pinned⟩] }
    else st
  | .graphLaunch resources result outputs =>
    if result = .success then
      match resources with
      | some r =>
        { st with
          buffers := runGraph graphs r outputs st.buffers
          launched := noteLaunchedGraphResources st.launched stream r }
      | none => st
    else st

/-- `handle_manual_cuStreamSynchronize`, once the driver has reported success, and the client that
reads its response. -/
def handleManualCuStreamSynchronize (st : StreamState) : StreamState :=
  let graphCopies := takeLaunchedGraphHostCopies graphs.copies st.launched stream
  let pending := detachPendingDtohCopies id st.pending stream (stream == 0)
  { st with
    pending := pending.2
    launched := graphCopies.2
    client :=
      readDeferredDtohCopies st.client (writeDtohCopies st.buffers graphCopies.1 pending.1) }

/-! ## What was issued

A call that the driver rejects has issued nothing. -/

/-- What a plain copy that was accepted writes to the client. -/
def CopyOp.plainPatches : CopyOp → List (Patch UInt8)
  | .memcpyDtoHAsync dstHost host byteCount _ result data =>
    if byteCount ≠ 0 ∧ host ≠ 0 ∧ result = .success then [⟨dstHost, payload data byteCount⟩] else []
  | .graphLaunch .. => []

/-- What a launch that was accepted writes to the client. -/
def CopyOp.graphPatches : CopyOp → List (Patch UInt8)
  | .memcpyDtoHAsync .. => []
  | .graphLaunch resources result outputs =>
    if result = .success then
      (graphHostCopiesFor graphs.copies resources.toList).map (GraphHostCopy.patch outputs)
    else []

/-- What a call writes to the client, in stream order. -/
def CopyOp.patches (op : CopyOp) : List (Patch UInt8) := op.plainPatches ++ op.graphPatches graphs

def CopyOp.hosts : CopyOp → List HostPtr
  | .memcpyDtoHAsync _ host byteCount _ result _ =>
    if byteCount ≠ 0 ∧ host ≠ 0 ∧ result = .success then [host] else []
  | .graphLaunch .. => []

/-- The calls between two synchronizations. The allocator hands out no buffer that is in use, and
the response has room for the count. -/
structure StreamBatch where
  ops : List CopyOp
  hosts_nodup : (ops.flatMap CopyOp.hosts).Nodup
  hosts_free : ∀ host ∈ ops.flatMap CopyOp.hosts, graphs.owner host = none
  count_lt : (ops.flatMap (CopyOp.patches graphs)).length < 2 ^ 32

variable {graphs}

def StreamBatch.issued (batch : StreamBatch graphs) : List (Patch UInt8) :=
  batch.ops.flatMap (CopyOp.patches graphs)

def StreamBatch.run (st : StreamState) (batch : StreamBatch graphs) : StreamState :=
  handleManualCuStreamSynchronize graphs stream
    (batch.ops.foldl (CopyOp.handle graphs stream) st)

/-! ## A batch before its synchronization

The invariant speaks of the response that would be sent now: the plain copies as they were issued,
and graph copies which end every byte with the value the launches ended it with. -/

variable (graphs)

/-- What a batch leaves for the response: the plain copies as they were issued, and graph copies
that end every byte with the value the launches ended it with. -/
structure BatchInv (ops : List CopyOp) (client : Memory UInt8) (st : StreamState) : Prop where
  hosts : st.pending.map PendingDtohCopy.serverSrc = ops.flatMap CopyOp.hosts
  pending : st.pending.map (PendingDtohCopy.patch st.buffers) = ops.flatMap CopyOp.plainPatches
  pending_stream : ∀ copy ∈ st.pending, copy.stream = stream
  launched_stream : ∀ entry ∈ st.launched, entry.1 = stream
  graphCount : (graphHostCopiesFor graphs.copies (st.launched.map Prod.snd)).length
    = (ops.flatMap (CopyOp.graphPatches graphs)).length
  graphValue : ∀ x, lastValue
      ((graphHostCopiesFor graphs.copies (st.launched.map Prod.snd)).map
        (GraphHostCopy.patch st.buffers)) x
    = lastValue (ops.flatMap (CopyOp.graphPatches graphs)) x
  client : st.client = client

theorem batchInv_nil (buffers : HostBuffers) (client : Memory UInt8) :
    BatchInv graphs stream [] client { buffers := buffers, client := client } where
  hosts := rfl
  pending := rfl
  pending_stream _ h := absurd h List.not_mem_nil
  launched_stream _ h := absurd h List.not_mem_nil
  graphCount := rfl
  graphValue _ := rfl
  client := rfl

variable {graphs stream} {ops : List CopyOp} {client : Memory UInt8} {st : StreamState}

theorem BatchInv.rejected (h : BatchInv graphs stream ops client st) {op : CopyOp}
    (hhosts : op.hosts = []) (hplain : op.plainPatches = [])
    (hgraph : op.graphPatches graphs = []) :
    BatchInv graphs stream (ops ++ [op]) client st where
  hosts := by simpa [hhosts] using h.hosts
  pending := by simpa [hplain] using h.pending
  pending_stream := h.pending_stream
  launched_stream := h.launched_stream
  graphCount := by simpa [hgraph] using h.graphCount
  graphValue x := by simpa [hgraph] using h.graphValue x
  client := h.client

theorem BatchInv.memcpyDtoHAsync (h : BatchInv graphs stream ops client st) {host : HostPtr}
    (hnew : host ∉ ops.flatMap CopyOp.hosts) (hfree : graphs.owner host = none)
    (dstHost : HostPtr) {byteCount : ℕ} (pinned : Bool) (data : Memory UInt8)
    (hbytes : byteCount ≠ 0) (hhost : host ≠ 0) :
    BatchInv graphs stream
      (ops ++ [.memcpyDtoHAsync dstHost host byteCount pinned .success data]) client
      { st with
        buffers := Function.update st.buffers host data
        pending := st.pending ++ [⟨stream, dstHost, host, byteCount, pinned⟩] } := by
  -- The buffer was just handed out, so no pending copy reads it.
  have hkeep : ∀ copy ∈ st.pending, copy.serverSrc ≠ host := by
    rintro copy hcopy rfl
    exact hnew (h.hosts ▸ List.mem_map_of_mem hcopy)
  refine ⟨?_, ?_, ?_, h.launched_stream, ?_, fun x ↦ ?_, h.client⟩
  · simp [h.hosts, CopyOp.hosts, hbytes, hhost]
  · have hold : st.pending.map (PendingDtohCopy.patch (Function.update st.buffers host data))
        = st.pending.map (PendingDtohCopy.patch st.buffers) := by
      refine List.map_congr_left fun copy hcopy ↦ ?_
      rw [PendingDtohCopy.patch, PendingDtohCopy.patch, Function.update_of_ne (hkeep copy hcopy)]
    rw [List.map_append, hold, h.pending]
    simp [CopyOp.plainPatches, hbytes, hhost, PendingDtohCopy.patch]
  · intro copy hcopy
    rcases List.mem_append.mp hcopy with hold | hlast
    · exact h.pending_stream copy hold
    · rw [List.mem_singleton.mp hlast]
  · simpa [CopyOp.graphPatches] using h.graphCount
  · have hgraph : lastValue ((graphHostCopiesFor graphs.copies (st.launched.map Prod.snd)).map
          (GraphHostCopy.patch (Function.update st.buffers host data))) x
        = lastValue ((graphHostCopiesFor graphs.copies (st.launched.map Prod.snd)).map
          (GraphHostCopy.patch st.buffers)) x := by
      refine lastValue_map_congr fun copy hcopy ↦ ?_
      obtain ⟨r, -, -, hmem⟩ := mem_graphHostCopiesFor.mp hcopy
      have hne : copy.serverSrc ≠ host := by
        intro heq
        have howner := graphs.owner_eq r copy hmem
        rw [heq, hfree] at howner
        exact absurd howner (by simp)
      rw [GraphHostCopy.patch, GraphHostCopy.patch, Function.update_of_ne hne]
    rw [hgraph, h.graphValue x]
    simp [CopyOp.graphPatches]

/-- A launch writes the buffers of its resources again. Earlier launches of the same resources are
delivered with what it wrote, to bytes it covers itself. -/
theorem BatchInv.graphLaunch (h : BatchInv graphs stream ops client st)
    (hfree : ∀ host ∈ ops.flatMap CopyOp.hosts, graphs.owner host = none) (r : ResourcesPtr)
    (outputs : HostBuffers) :
    BatchInv graphs stream (ops ++ [.graphLaunch (some r) .success outputs]) client
      { st with
        buffers := runGraph graphs r outputs st.buffers
        launched := noteLaunchedGraphResources st.launched stream r } := by
  -- Plain copies have buffers that no graph owns; the launch leaves them alone.
  have hplain : ∀ copy ∈ st.pending,
      runGraph graphs r outputs st.buffers copy.serverSrc = st.buffers copy.serverSrc := by
    intro copy hcopy
    have howner := hfree copy.serverSrc (h.hosts ▸ List.mem_map_of_mem hcopy)
    rw [runGraph, howner, if_neg (by simp)]
  have hown : ∀ copy ∈ graphHostCopiesFor graphs.copies [r],
      copy.patch (runGraph graphs r outputs st.buffers) = copy.patch outputs := by
    intro copy hcopy
    obtain ⟨r', hr', -, hmem⟩ := mem_graphHostCopiesFor.mp hcopy
    obtain rfl := List.mem_singleton.mp hr'
    rw [GraphHostCopy.patch, GraphHostCopy.patch, runGraph, if_pos (graphs.owner_eq _ copy hmem)]
  have hlaunched : (noteLaunchedGraphResources st.launched stream r).map Prod.snd
      = st.launched.map Prod.snd ++ [r] := by
    rw [noteLaunchedGraphResources, List.map_append]
    rfl
  have hissued : (CopyOp.graphLaunch (some r) .success outputs).graphPatches graphs
      = (graphHostCopiesFor graphs.copies [r]).map (GraphHostCopy.patch outputs) := by
    rw [CopyOp.graphPatches, if_pos rfl, Option.toList_some]
  refine ⟨?_, ?_, h.pending_stream, ?_, ?_, fun x ↦ ?_, h.client⟩
  · simpa [CopyOp.hosts] using h.hosts
  · have hold : st.pending.map (PendingDtohCopy.patch (runGraph graphs r outputs st.buffers))
        = st.pending.map (PendingDtohCopy.patch st.buffers) := by
      refine List.map_congr_left fun copy hcopy ↦ ?_
      rw [PendingDtohCopy.patch, PendingDtohCopy.patch, hplain copy hcopy]
    rw [hold, h.pending]
    simp [CopyOp.plainPatches]
  · intro entry hentry
    rcases List.mem_append.mp hentry with hold | hlast
    · exact h.launched_stream entry hold
    · rw [List.mem_singleton.mp hlast]
  · rw [hlaunched, graphHostCopiesFor_append, List.length_append, h.graphCount]
    simp [hissued]
  · rw [hlaunched, graphHostCopiesFor_append, List.map_append, lastValue_append,
      List.map_congr_left hown, List.flatMap_append, List.flatMap_singleton, hissued,
      lastValue_append, ← h.graphValue x]
    cases hlast : lastValue ((graphHostCopiesFor graphs.copies [r]).map
        (GraphHostCopy.patch outputs)) x with
    | some v => rfl
    | none =>
      rw [Option.none_or, Option.none_or]
      refine lastValue_map_congr fun copy hcopy ↦ ?_
      obtain ⟨r', -, hr', hmem⟩ := mem_graphHostCopiesFor.mp hcopy
      have howner := graphs.owner_eq r' copy hmem
      by_cases hsame : r' = r
      · -- the launch has no value for the address, so neither has an earlier launch of its graph
        subst hsame
        have hnot : ¬ (copy.patch outputs).Covers x :=
          lastValue_eq_none_iff.mp hlast _ (List.mem_map_of_mem
            (mem_graphHostCopiesFor.mpr ⟨r', List.mem_singleton_self r', hr', hmem⟩))
        rw [GraphHostCopy.covers_patch] at hnot
        rw [Patch.get?_eq_none_iff.mpr (by rwa [GraphHostCopy.covers_patch]),
          Patch.get?_eq_none_iff.mpr (by rwa [GraphHostCopy.covers_patch])]
      · have hbuffer : runGraph graphs r outputs st.buffers copy.serverSrc
            = st.buffers copy.serverSrc := by
          rw [runGraph, howner, if_neg (fun heq ↦ hsame (Option.some.inj heq))]
        exact congrArg (fun b ↦ Patch.get? ⟨copy.clientDst, payload b copy.bytes⟩ x) hbuffer

/-- **Every call keeps the invariant.** -/
theorem BatchInv.handle (h : BatchInv graphs stream ops client st) {op : CopyOp}
    (hnodup : ((ops ++ [op]).flatMap CopyOp.hosts).Nodup)
    (hfree : ∀ host ∈ (ops ++ [op]).flatMap CopyOp.hosts, graphs.owner host = none) :
    BatchInv graphs stream (ops ++ [op]) client (op.handle graphs stream st) := by
  rw [List.flatMap_append, List.flatMap_singleton] at hnodup hfree
  cases op with
  | memcpyDtoHAsync dstHost host byteCount pinned result data =>
    rw [CopyOp.handle]
    by_cases hnone : byteCount ≠ 0 ∧ host = 0
    · rw [if_pos hnone]
      exact h.rejected (if_neg (by simp [hnone])) (if_neg (by simp [hnone])) rfl
    rw [if_neg hnone]
    by_cases haccepted : result = .success ∧ byteCount ≠ 0
    · obtain ⟨rfl, hbytes⟩ := haccepted
      have hhost : host ≠ 0 := fun heq ↦ hnone ⟨hbytes, heq⟩
      have hhosts : (CopyOp.memcpyDtoHAsync dstHost host byteCount pinned .success data).hosts
          = [host] := if_pos ⟨hbytes, hhost, rfl⟩
      rw [hhosts] at hnodup hfree
      rw [if_pos ⟨rfl, hbytes⟩]
      refine h.memcpyDtoHAsync ?_ (hfree host (by simp)) dstHost pinned data hbytes hhost
      intro hmem
      exact (List.nodup_append.mp hnodup).2.2 host hmem host (List.mem_singleton_self host) rfl
    · rw [if_neg haccepted]
      have hno : ¬ (byteCount ≠ 0 ∧ host ≠ 0 ∧ result = .success) :=
        fun hall ↦ haccepted ⟨hall.2.2, hall.1⟩
      exact h.rejected (if_neg hno) (if_neg hno) rfl
  | graphLaunch resources result outputs =>
    simp only [CopyOp.handle]
    by_cases hresult : result = .success
    · subst hresult
      rw [if_pos rfl]
      cases resources with
      | none => exact h.rejected rfl rfl (by simp [CopyOp.graphPatches, graphHostCopiesFor])
      | some r =>
        exact h.graphLaunch (fun host hmem ↦ hfree host (List.mem_append_left _ hmem)) r outputs
    · rw [if_neg hresult]
      exact h.rejected rfl rfl (if_neg hresult)

theorem batchInv_foldl (stream : CUstream) (buffers : HostBuffers) (client : Memory UInt8)
    {ops : List CopyOp}
    (hnodup : (ops.flatMap CopyOp.hosts).Nodup)
    (hfree : ∀ host ∈ ops.flatMap CopyOp.hosts, graphs.owner host = none) :
    BatchInv graphs stream ops client
      (ops.foldl (CopyOp.handle graphs stream) { buffers := buffers, client := client }) := by
  induction ops using List.reverseRecOn with
  | nil => exact batchInv_nil graphs stream buffers client
  | append_singleton ops op ih =>
    rw [List.foldl_append]
    refine (ih ?_ ?_).handle hnodup hfree
    · rw [List.flatMap_append] at hnodup
      exact (List.nodup_append.mp hnodup).1
    · intro host hmem
      rw [List.flatMap_append] at hfree
      exact hfree host (List.mem_append_left _ hmem)

/-! ## A batch and its synchronization

The plain copies and the graph copies are each in the order of issue among themselves. -/

/-- Of the copies of a list of calls, the plain ones and the graph ones. Both are in the order of
issue among themselves, and one of them has the last value of every byte. -/
theorem lastValue_patches (ops : List CopyOp) (x : ℕ) :
    (lastValue (ops.flatMap CopyOp.plainPatches) x = none →
        lastValue (ops.flatMap (CopyOp.patches graphs)) x
          = lastValue (ops.flatMap (CopyOp.graphPatches graphs)) x) ∧
      (lastValue (ops.flatMap CopyOp.plainPatches) x ≠ none →
        lastValue (ops.flatMap (CopyOp.patches graphs)) x ≠ none) := by
  induction ops using List.reverseRecOn with
  | nil => exact ⟨fun _ ↦ rfl, fun h ↦ absurd rfl h⟩
  | append_singleton ops op ih =>
    simp only [List.flatMap_append, List.flatMap_singleton, lastValue_append, CopyOp.patches]
    cases lastValue op.plainPatches x with
    | some v => cases lastValue (op.graphPatches graphs) x <;> simp
    | none =>
      rw [Option.none_or, Option.or_none]
      constructor
      · intro hnone
        rw [ih.1 hnone]
      · intro hsome
        cases lastValue (op.graphPatches graphs) x with
        | some w => simp
        | none => exact ih.2 hsome

namespace StreamBatch

variable (batch : StreamBatch graphs)

/-- The order of delivery does not show: a byte that a plain copy of the batch writes ends, in the
order of issue, with the value of the last plain copy: no launch issued behind that copy leaves
another value in it. -/
def OrderKept : Prop :=
  ∀ x v, lastValue (batch.ops.flatMap CopyOp.plainPatches) x = some v →
    lastValue batch.issued x = some v

variable {batch}

theorem length_issued : batch.issued.length
    = (batch.ops.flatMap (CopyOp.graphPatches graphs)).length
      + (batch.ops.flatMap CopyOp.plainPatches).length := by
  rw [issued]
  induction batch.ops with
  | nil => rfl
  | cons op ops ih =>
    simp only [List.flatMap_cons, List.length_append, CopyOp.patches, ih]
    omega

theorem run_spec (stream : CUstream) (batch : StreamBatch graphs) (buffers : HostBuffers)
    (client : Memory UInt8) :
    ∃ buffers' client', batch.run stream { buffers := buffers, client := client }
        = { buffers := buffers', client := client' } ∧
      ∀ x, client' x = ((lastValue (batch.ops.flatMap CopyOp.plainPatches) x).or
        (lastValue (batch.ops.flatMap (CopyOp.graphPatches graphs)) x)).getD (client x) := by
  have hinv := batchInv_foldl stream buffers client batch.hosts_nodup batch.hosts_free
  set st := batch.ops.foldl (CopyOp.handle graphs stream) { buffers := buffers, client := client }
  have htake : takeLaunchedGraphHostCopies graphs.copies st.launched stream
      = (graphHostCopiesFor graphs.copies (st.launched.map Prod.snd), []) := by
    have hall : st.launched.filter (fun entry ↦ entry.1 == stream) = st.launched :=
      List.filter_eq_self.mpr fun entry h ↦ by simp [hinv.launched_stream entry h]
    have hnone : st.launched.filter (fun entry ↦ entry.1 != stream) = [] :=
      List.filter_eq_nil_iff.mpr fun entry h ↦ by simp [hinv.launched_stream entry h]
    rw [takeLaunchedGraphHostCopies, takeLaunchedGraphResources, hall, hnone]
  have hdetach : detachPendingDtohCopies id st.pending stream (stream == 0)
      = (st.pending, []) := by
    have hall : st.pending.filter (fun copy ↦ (id copy).stream == stream) = st.pending :=
      List.filter_eq_self.mpr fun copy h ↦ by simp [hinv.pending_stream copy h]
    have hnone : st.pending.filter (fun copy ↦ (id copy).stream != stream) = [] :=
      List.filter_eq_nil_iff.mpr fun copy h ↦ by simp [hinv.pending_stream copy h]
    rw [detachPendingDtohCopies, hall, hnone, ite_self]
  have hcount : (graphHostCopiesFor graphs.copies (st.launched.map Prod.snd)).length
      + st.pending.length < 2 ^ 32 := by
    have hplain := congrArg List.length hinv.pending
    rw [List.length_map] at hplain
    have hlt := batch.count_lt
    rw [← issued, length_issued] at hlt
    rw [hinv.graphCount, hplain]
    exact hlt
  refine ⟨st.buffers, readDeferredDtohCopies st.client (writeDtohCopies st.buffers
    (graphHostCopiesFor graphs.copies (st.launched.map Prod.snd)) st.pending), ?_, fun x ↦ ?_⟩
  · show handleManualCuStreamSynchronize graphs stream st = _
    simp only [handleManualCuStreamSynchronize, htake, hdetach]
  · rw [readDeferredDtohCopies_writeDtohCopies _ _ hcount, ← applyPatches_append,
      applyPatches_apply, lastValue_append, hinv.pending, hinv.graphValue x, hinv.client]

theorem run_eq_iff (stream : CUstream) (batch : StreamBatch graphs) (buffers : HostBuffers)
    (client : Memory UInt8) :
    (batch.run stream { buffers := buffers, client := client }).client
        = applyPatches client batch.issued ↔ batch.OrderKept := by
  obtain ⟨buffers', client', hrun, hclient⟩ := batch.run_spec stream buffers client
  rw [hrun]
  dsimp only
  constructor
  · intro heq x v hplain
    have hissued := congrFun heq x
    rw [hclient x, hplain, applyPatches_apply] at hissued
    have hcovered : lastValue batch.issued x ≠ none :=
      (lastValue_patches batch.ops x).2 (by simp [hplain])
    obtain ⟨w, hw⟩ := Option.ne_none_iff_exists'.mp hcovered
    rw [hw] at hissued ⊢
    exact congrArg some hissued.symm
  · intro hkept
    funext x
    rw [hclient x, applyPatches_apply]
    cases hplain : lastValue (batch.ops.flatMap CopyOp.plainPatches) x with
    | some v =>
      rw [hkept x v hplain]
      rfl
    | none => rw [Option.none_or, issued, (lastValue_patches batch.ops x).1 hplain]

end StreamBatch

/-- **When a stream's copies arrive in order.** For every sequence of batches of copies and graph
launches on one stream, each ended by a successful synchronization: after every synchronization the
client's memory is that of applying all copies so far in the order of issue, if and only if in
every batch no launch leaves a byte that an earlier plain copy of the batch wrote with a value other
than that of the last plain copy to write it. -/
theorem streamSynchronize_inOrder_iff (graphs : GraphBuffers) (stream : CUstream)
    (batches : List (StreamBatch graphs)) (buffers : HostBuffers) (client : Memory UInt8) :
    (∀ k ≤ batches.length,
      ((batches.take k).foldl (StreamBatch.run stream)
          { buffers := buffers, client := client }).client
        = applyPatches client ((batches.take k).flatMap StreamBatch.issued))
      ↔ ∀ batch ∈ batches, batch.OrderKept := by
  induction batches generalizing buffers client with
  | nil => simp
  | cons batch batches ih =>
    obtain ⟨buffers', client', hrun, -⟩ := batch.run_spec stream buffers client
    have hiff := StreamBatch.run_eq_iff stream batch buffers client
    rw [hrun] at hiff
    constructor
    · intro hall
      have hfirst : client' = applyPatches client batch.issued := by
        have hone := hall 1 (by simp)
        simpa [hrun] using hone
      have hrest : ∀ b ∈ batches, b.OrderKept := by
        rw [← ih buffers' client']
        intro k hk
        have hnext := hall (k + 1) (by simpa using hk)
        simpa [hrun, applyPatches_append, ← hfirst] using hnext
      intro b hb
      rcases List.mem_cons.mp hb with rfl | hb
      · exact hiff.mp hfirst
      · exact hrest b hb
    · intro hall k hk
      cases k with
      | zero => rfl
      | succ k =>
        have hfirst : client' = applyPatches client batch.issued :=
          hiff.mpr (hall batch List.mem_cons_self)
        have hrest := (ih buffers' client').mpr (fun b hb ↦ hall b (List.mem_cons_of_mem _ hb)) k
          (by simpa using hk)
        simpa [hrun, applyPatches_append, ← hfirst] using hrest

/-- One graph with one copy, of one byte, to the client address 4096. -/
def oneCopyGraph : GraphBuffers where
  copies r := if r = 1 then [⟨4096, 7, 1⟩] else []
  owner host := if host = 7 then some 1 else none
  owner_eq := by
    intro r copy hcopy
    split_ifs at hcopy with hr
    · rw [List.mem_singleton.mp hcopy, hr]
      rfl
    · exact absurd hcopy List.not_mem_nil

/-- A plain copy of a one to the client address 4096, and behind it a launch that copies a two
there. -/
def copyThenLaunch : StreamBatch oneCopyGraph where
  ops :=
    [.memcpyDtoHAsync 4096 8 1 true .success fun _ ↦ 1, .graphLaunch (some 1) .success fun _ _ ↦ 2]
  hosts_nodup := by decide
  hosts_free := by decide
  count_lt := by decide

/-- The copy and the launch arrive the other way round. -/
theorem copyThenLaunch_reordered :
    (copyThenLaunch.run 3 { buffers := fun _ _ ↦ 0, client := fun _ ↦ 0 }).client 4096 = 1 ∧
      applyPatches (fun _ ↦ 0) copyThenLaunch.issued 4096 = 2 := by
  decide

end Lupine
