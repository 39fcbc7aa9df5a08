import Lupine.Foundation.Machine
import Lupine.Graph.Resources

/-!
# The copies of explicitly built graphs

A graph that is built node by node gets resources with its first node that needs any, and its
device-to-host copies are added to them. A clone, and an executable graph, refer to the resources of
the graph they were made from: one object, which the graph may still change. A launch notes the
resources that the executable graph has then, and a synchronization later delivers the copies they
have by that time. A host node delivers the copies of the resources its graph had when it was added.

What CUDA does is modelled beside the server: a table of the graphs and one of the executable
graphs, with the nodes they contain. These are copied where the server shares. The result of every
CUDA call is part of the step.

## Shared and copied

The tables of CUDA and the entries of the server are related by `Matches`: the entry of a graph has
the copies that CUDA has in its nodes. For a table of graphs this is kept by each request on its own
account. What could break it is a change of shared resources, so the condition asks that a copy is
added only to resources that nothing else refers to, and then the entries of all other graphs are
unaffected.
-/

namespace Lupine

open Foundation

/-! ## The server

Resources are objects of a heap. Graphs, executable graphs and launches refer to them. -/

/-- The maps of the server that graphs use, and the map of launches. -/
structure GraphServer where
  heap : ResourceHeap := noResources
  graphResources : ResourceMap := ∅
  execResources : ResourceMap := ∅
  launched : LaunchedGraphResources (ℕ × ResourcesPtr) := []

namespace GraphServer

/-- `lupine_get_graph_resources`. -/
def getGraphResources (server : GraphServer) (graph : CUgraph) : ResourcesPtr × GraphServer :=
  let found := server.graphResources.upsert server.heap graph {}
  (found.1, { server with heap := found.2.1, graphResources := found.2.2 })

/-- `handle_manual_cuGraphAddMemcpyNode` up to the CUDA call, for a copy to the host or another one.
The copy names the buffer that was allocated for it. -/
def graphAddMemcpyNode (server : GraphServer) (graph : CUgraph) (dst : Option GraphHostCopy) :
    GraphServer :=
  let found := server.getGraphResources graph
  match dst with
  | some copy =>
    { found.2 with heap := found.2.heap.modify found.1 (GraphResources.addDtohCopy copy) }
  | none => found.2

/-- `handle_manual_cuGraphClone`. -/
def graphClone (server : GraphServer) (clone original : CUgraph) (result : CUresult) :
    GraphServer :=
  match server.graphResources.lookup original with
  | some resources =>
    if result = .success then
      { server with graphResources := server.graphResources.insert clone resources }
    else server
  | none => server

/-- An executable graph refers to the resources of a graph, if the graph has some. -/
def shareWithExec (server : GraphServer) (exec : CUgraphExec) (graph : CUgraph) : GraphServer :=
  match server.graphResources.lookup graph with
  | some resources =>
    { server with execResources := server.execResources.insert exec resources }
  | none => server

/-- `handle_manual_cuGraphInstantiateWithFlags`. -/
def graphInstantiateWithFlags (server : GraphServer) (exec : CUgraphExec) (graph : CUgraph)
    (result : CUresult) : GraphServer :=
  if result = .success then server.shareWithExec exec graph else server

/-- `handle_manual_cuGraphInstantiateWithParams`. -/
def graphInstantiateWithParams (server : GraphServer) (exec : CUgraphExec) (graph : CUgraph)
    (result : CUresult) : GraphServer :=
  if result = .success then server.shareWithExec exec graph else server

/-- `handle_manual_cuGraphExecUpdate`; `updated` is that of `result_info`. -/
def graphExecUpdate (server : GraphServer) (exec : CUgraphExec) (graph : CUgraph)
    (result : CUresult) (updated : Bool) : GraphServer :=
  if result = .success ∧ updated = true then server.shareWithExec exec graph else server

/-- `handle_manual_cuGraphExecDestroy`, whatever the result of the CUDA call. -/
def graphExecDestroy (server : GraphServer) (exec : CUgraphExec) : GraphServer :=
  { server with execResources := server.execResources.erase exec }

/-- `handle_manual_cuGraphDestroy`, whatever the result of the CUDA call. -/
def graphDestroy (server : GraphServer) (graph : CUgraph) : GraphServer :=
  { server with graphResources := server.graphResources.erase graph }

/-- `handle_manual_cuGraphLaunch` once the driver has accepted the launch. -/
def graphLaunch (server : GraphServer) (exec : CUgraphExec) (stream : CUstream) (launch : ℕ) :
    GraphServer :=
  match server.execResources.lookup exec with
  | some resources =>
    { server with
      launched := noteLaunchedGraphResources server.launched stream (launch, resources) }
  | none => server

end GraphServer

/-! ## CUDA

A graph is its copies and its host nodes; an executable graph has those of the graph at the time it
was made, or updated. -/

/-- The nodes of a graph that reach the client: the copies of its device-to-host nodes and, for each
host node, the resources whose copies its callback publishes. -/
structure GraphNodes where
  copies : List GraphHostCopy := []
  callbacks : List ResourcesPtr := []
  deriving DecidableEq, Repr

/-- The graphs, or the executable graphs, that exist. -/
abbrev GraphTable := AList fun _ : ℕ ↦ GraphNodes

/-- The device-to-host copies of a graph, of which one that does not exist has none. -/
def GraphTable.copies (table : GraphTable) (graph : ℕ) : List GraphHostCopy :=
  ((table.lookup graph).map GraphNodes.copies).getD []

/-! ## Steps

A request is a step with the results of its CUDA calls. The device takes the steps that complete a
launch and run a host node. -/

/-- The server and CUDA: the graphs, the launches in the order of issue with the nodes they were
launched with, those that are complete, and the copies delivered for each. -/
structure GraphsState where
  server : GraphServer := {}
  graphs : GraphTable := ∅
  execs : GraphTable := ∅
  launches : List GraphNodes := []
  complete : List ℕ := []
  delivered : ℕ → List GraphHostCopy := fun _ ↦ []

/-- A request with the results of the CUDA calls that serve it, or a step of the device. -/
inductive GraphStep where
  | graphCreate (graph : CUgraph) (result : CUresult)
  /-- `dst` is the copy to the host, with its buffer, when the node makes one. -/
  | addMemcpyNode (graph : CUgraph) (dst : Option GraphHostCopy) (result : CUresult)
  | addHostNode (graph : CUgraph) (result : CUresult)
  | clone (clone original : CUgraph) (result : CUresult)
  | instantiateWithFlags (exec : CUgraphExec) (graph : CUgraph) (result : CUresult)
  | instantiateWithParams (exec : CUgraphExec) (graph : CUgraph) (result : CUresult)
  | execUpdate (exec : CUgraphExec) (graph : CUgraph) (result : CUresult) (updated : Bool)
  | execDestroy (exec : CUgraphExec) (result : CUresult)
  | graphDestroy (graph : CUgraph) (result : CUresult)
  | launch (exec : CUgraphExec) (stream : CUstream) (result : CUresult)
  /-- A host node of a running launch publishes the copies of the resources of its callback. -/
  | hostCallback (launch : ℕ) (resources : ResourcesPtr)
  | complete (launch : ℕ)
  | streamSynchronize (stream : CUstream)
  | ctxSynchronize
  deriving DecidableEq, Repr

/-- A new executable graph, or one that is updated, has the nodes of a graph. -/
def GraphsState.setExec (st : GraphsState) (server : GraphServer) (exec : CUgraphExec)
    (graph : CUgraph) : Option GraphsState :=
  (st.graphs.lookup graph).map fun nodes ↦ { st with server, execs := st.execs.insert exec nodes }

/-- A call succeeds on what exists: a graph, or an executable graph. -/
def whenExists (table : GraphTable) (graph : ℕ) (st : GraphsState) : Option GraphsState :=
  if (table.lookup graph).isSome then some st else none

/-- A call makes a handle that did not exist. -/
def whenNew (table : GraphTable) (graph : ℕ) (st : Option GraphsState) : Option GraphsState :=
  if (table.lookup graph).isSome then none else st

/-- What was taken from the map is delivered, for the launches it was noted for. -/
def GraphsState.deliver (st : GraphsState)
    (taken : List (ℕ × ResourcesPtr) × LaunchedGraphResources (ℕ × ResourcesPtr)) : GraphsState :=
  { st with
    server := { st.server with launched := taken.2 }
    delivered := fun i ↦ st.delivered i ++ graphHostCopiesFor st.server.heap.snapshot
      ((taken.1.filter fun noted ↦ noted.1 == i).map Prod.snd) }

def graphStep (st : GraphsState) : GraphStep → Option GraphsState
  | .graphCreate graph result =>
    if result = .success then
      whenNew st.graphs graph (some { st with graphs := st.graphs.insert graph {} })
    else some st
  | .addMemcpyNode graph dst result =>
    let server := st.server.graphAddMemcpyNode graph dst
    if result = .success then
      (st.graphs.lookup graph).map fun nodes ↦
        { st with
          server
          graphs := st.graphs.insert graph { nodes with copies := nodes.copies ++ dst.toList } }
    else some { st with server }
  | .addHostNode graph result =>
    let found := st.server.getGraphResources graph
    if result = .success then
      (st.graphs.lookup graph).map fun nodes ↦
        { st with
          server := found.2
          graphs :=
            st.graphs.insert graph { nodes with callbacks := nodes.callbacks ++ [found.1] } }
    else some { st with server := found.2 }
  | .clone clone original result =>
    let server := st.server.graphClone clone original result
    if result = .success then
      whenNew st.graphs clone <| (st.graphs.lookup original).map fun nodes ↦
        { st with server, graphs := st.graphs.insert clone nodes }
    else some { st with server }
  | .instantiateWithFlags exec graph result =>
    let server := st.server.graphInstantiateWithFlags exec graph result
    if result = .success then whenNew st.execs exec (st.setExec server exec graph)
    else some { st with server }
  | .instantiateWithParams exec graph result =>
    let server := st.server.graphInstantiateWithParams exec graph result
    if result = .success then whenNew st.execs exec (st.setExec server exec graph)
    else some { st with server }
  | .execUpdate exec graph result updated =>
    let server := st.server.graphExecUpdate exec graph result updated
    if result = .success ∧ updated = true then
      (st.setExec server exec graph).bind (whenExists st.execs exec)
    else some { st with server }
  | .execDestroy exec result =>
    let server := st.server.graphExecDestroy exec
    if result = .success then
      whenExists st.execs exec { st with server, execs := st.execs.erase exec }
    else some { st with server }
  | .graphDestroy graph result =>
    let server := st.server.graphDestroy graph
    if result = .success then
      whenExists st.graphs graph { st with server, graphs := st.graphs.erase graph }
    else some { st with server }
  | .launch exec stream result =>
    if result = .success then
      (st.execs.lookup exec).map fun nodes ↦
        { st with
          server := st.server.graphLaunch exec stream st.launches.length
          launches := st.launches ++ [nodes] }
    else some st
  | .hostCallback launch resources =>
    match st.launches[launch]? with
    | some nodes =>
      if launch ∉ st.complete ∧ resources ∈ nodes.callbacks then
        some { st with
          delivered := Function.update st.delivered launch
            (st.delivered launch ++ st.server.heap.snapshot resources) }
      else none
    | none => none
  | .complete launch =>
    if launch < st.launches.length then some { st with complete := launch :: st.complete } else none
  | .streamSynchronize stream =>
    some (st.deliver (takeLaunchedGraphResources st.server.launched stream))
  | .ctxSynchronize => some (st.deliver (takeAllLaunchedGraphResources st.server.launched))

def explicitGraphs : Machine GraphsState GraphStep := ⟨graphStep⟩

/-! ## What is promised -/

/-- What is delivered for a launch are copies of the graph that was launched, and once the map of
launches no longer has an entry for it they are all of them. -/
def GraphsState.DeliversNodes (st : GraphsState) : Prop :=
  ∀ i nodes, st.launches[i]? = some nodes →
    (∀ copy ∈ st.delivered i, copy ∈ nodes.copies) ∧
      ((∀ entry ∈ st.server.launched, entry.2.1 ≠ i) → ∀ copy ∈ nodes.copies, copy ∈ st.delivered i)

/-- Nothing but a graph, and the host nodes of that graph, refers to resources. -/
def GraphsState.HeldOnlyBy (st : GraphsState) (graph : CUgraph) (r : ResourcesPtr) : Prop :=
  (∀ g ∈ st.server.graphResources.holders r, g = graph) ∧ st.server.execResources.holders r = [] ∧
    (∀ entry ∈ st.server.launched, entry.2.2 ≠ r) ∧
      (∀ entry ∈ st.graphs.entries, entry.1 ≠ graph → r ∉ entry.2.callbacks) ∧
        (∀ entry ∈ st.execs.entries, r ∉ entry.2.callbacks) ∧
          ∀ entry ∈ st.launches.zipIdx, entry.2 ∉ st.complete → r ∉ entry.1.callbacks

/-- The step keeps the copies of graphs apart. A device-to-host node is added with success, to a
graph that shares its resources with nothing. An executable graph is updated from a graph that has
resources, unless it has no copies itself. What CUDA does not destroy has no copies. -/
def KeepsCopiesApart (st : GraphsState) : GraphStep → Prop
  | .addMemcpyNode graph dst result =>
    dst ≠ none → result = .success ∧
      ∀ r, st.server.graphResources.lookup graph = some r → st.HeldOnlyBy graph r
  | .execUpdate exec graph result updated =>
    result = .success → updated = true → (st.server.graphResources.lookup graph).isSome ∨
      attachedCopies st.server.heap st.server.execResources exec = []
  | .execDestroy exec result =>
    result ≠ .success → attachedCopies st.server.heap st.server.execResources exec = []
  | .graphDestroy graph result =>
    result ≠ .success → attachedCopies st.server.heap st.server.graphResources graph = []
  | _ => True

instance (st : GraphsState) (graph : CUgraph) (r : ResourcesPtr) :
    Decidable (st.HeldOnlyBy graph r) := by
  unfold GraphsState.HeldOnlyBy; infer_instance

instance (st : GraphsState) (step : GraphStep) : Decidable (KeepsCopiesApart st step) := by
  cases step <;> unfold KeepsCopiesApart <;> infer_instance

/-! ## Entries and nodes

An insertion gives a graph the nodes that its entry already has, or new resources where it has no
entry. An erased entry is one of a graph that is gone, or of one without copies, which can do
without. -/

/-- The entries of a map have the copies of the nodes that CUDA has in the graphs. -/
def Matches (heap : ResourceHeap) (map : ResourceMap) (table : GraphTable) : Prop :=
  ∀ k, attachedCopies heap map k = table.copies k

namespace Matches

variable {heap : ResourceHeap} {map : ResourceMap} {table : GraphTable} {k : ℕ} {r : ResourcesPtr}
  {nodes : GraphNodes}

theorem copies_of_lookup (h : table.lookup k = some nodes) : table.copies k = nodes.copies := by
  rw [GraphTable.copies, h]
  rfl

theorem copies_of_none (h : table.lookup k = none) : table.copies k = [] := by
  rw [GraphTable.copies, h]
  rfl

theorem copies_insert_of_ne {k' : ℕ} (h : k' ≠ k) :
    GraphTable.copies (table.insert k nodes) k' = table.copies k' := by
  rw [GraphTable.copies, AList.lookup_insert_ne h, GraphTable.copies]

theorem snapshot_eq (h : Matches heap map table) (hr : map.lookup k = some r)
    (hnodes : table.lookup k = some nodes) : heap.snapshot r = nodes.copies := by
  rw [← attachedCopies_of_some hr, h k, copies_of_lookup hnodes]

theorem insert_nodes (h : Matches heap map table) (hk : attachedCopies heap map k = nodes.copies) :
    Matches heap map (table.insert k nodes) := by
  intro k'
  rcases eq_or_ne k' k with rfl | hne
  · rw [hk, copies_of_lookup (AList.lookup_insert _)]
  · rw [copies_insert_of_ne hne, h k']

theorem insert (h : Matches heap map table) (hr : heap.snapshot r = nodes.copies) :
    Matches heap (map.insert k r) (table.insert k nodes) := by
  intro k'
  rcases eq_or_ne k' k with rfl | hne
  · rw [attachedCopies_of_some (AList.lookup_insert _),
      copies_of_lookup (AList.lookup_insert _), hr]
  · rw [copies_insert_of_ne hne, ← h k']
    exact attachedCopies_congr (AList.lookup_insert_ne hne) fun _ _ ↦ rfl

theorem erase_entry (h : Matches heap map table) (hk : table.copies k = []) :
    Matches heap (map.erase k) table := by
  intro k'
  rcases eq_or_ne k' k with rfl | hne
  · rw [attachedCopies_of_none (AList.lookup_erase _ _), hk]
  · rw [← h k']
    exact attachedCopies_congr (AList.lookup_erase_ne hne) fun _ _ ↦ rfl

theorem erase (h : Matches heap map table) : Matches heap (map.erase k) (table.erase k) := by
  intro k'
  rcases eq_or_ne k' k with rfl | hne
  · rw [attachedCopies_of_none (AList.lookup_erase _ _), copies_of_none (AList.lookup_erase _ _)]
  · rw [GraphTable.copies, AList.lookup_erase_ne hne, ← GraphTable.copies, ← h k']
    exact attachedCopies_congr (AList.lookup_erase_ne hne) fun _ _ ↦ rfl

theorem alloc (h : Matches heap map table) (hbelow : map.Below heap.next) :
    Matches (heap.alloc {}) map table := fun k ↦
  (attachedCopies_congr rfl fun _ hr ↦ ResourceHeap.snapshot_alloc_of_lt (hbelow.lt hr)).trans (h k)

/-- A graph without an entry gets new resources. -/
theorem insert_alloc (h : Matches heap map table) (hbelow : map.Below heap.next)
    (hk : map.lookup k = none) : Matches (heap.alloc {}) (map.insert k heap.next) table := by
  intro k'
  rcases eq_or_ne k' k with rfl | hne
  · rw [attachedCopies_of_some (AList.lookup_insert _), ← h k', attachedCopies_of_none hk]
    exact ResourceHeap.snapshot_alloc_next heap
  · rw [← h.alloc hbelow k']
    exact attachedCopies_congr (AList.lookup_insert_ne hne) fun _ _ ↦ rfl

theorem addCopy (h : Matches heap map table) (copy : GraphHostCopy)
    (hr : ∀ k, map.lookup k ≠ some r) :
    Matches (heap.modify r (GraphResources.addDtohCopy copy)) map table := by
  intro k
  rw [← h k]
  refine attachedCopies_congr rfl fun q hq ↦ ResourceHeap.snapshot_addDtohCopy_of_ne ?_ copy
  rintro rfl
  exact hr k hq

/-- The resources of one graph get a copy, and the graph its node. -/
theorem addNode (h : Matches heap map table) (copy : GraphHostCopy) (hr : map.lookup k = some r)
    (hnodes : table.lookup k = some nodes) (honly : ∀ k', map.lookup k' = some r → k' = k) :
    Matches (heap.modify r (GraphResources.addDtohCopy copy)) map
      (table.insert k { nodes with copies := nodes.copies ++ [copy] }) := by
  intro k'
  rcases eq_or_ne k' k with rfl | hne
  · rw [attachedCopies_of_some hr, copies_of_lookup (AList.lookup_insert _),
      ResourceHeap.snapshot_addDtohCopy_self, h.snapshot_eq hr hnodes]
  · rw [copies_insert_of_ne hne, ← h k']
    refine attachedCopies_congr rfl fun q hq ↦ ResourceHeap.snapshot_addDtohCopy_of_ne ?_ copy
    rintro rfl
    exact hne (honly k' hq)

end Matches

/-- The host nodes of a graph publish only copies of the graph. -/
def GraphNodes.Sound (heap : ResourceHeap) (nodes : GraphNodes) : Prop :=
  ∀ r ∈ nodes.callbacks, r < heap.next ∧ ∀ copy ∈ heap.snapshot r, copy ∈ nodes.copies

namespace GraphNodes.Sound

variable {heap : ResourceHeap} {nodes : GraphNodes} {r : ResourcesPtr}

theorem alloc (h : nodes.Sound heap) : nodes.Sound (heap.alloc {}) := by
  intro q hq
  obtain ⟨hlt, hcopies⟩ := h q hq
  refine ⟨Nat.lt_succ_of_lt hlt, fun copy hcopy ↦ hcopies copy ?_⟩
  rwa [ResourceHeap.snapshot_alloc_of_lt hlt] at hcopy

theorem addCopy (h : nodes.Sound heap) (copy : GraphHostCopy) (hr : r ∉ nodes.callbacks) :
    nodes.Sound (heap.modify r (GraphResources.addDtohCopy copy)) := by
  intro q hq
  obtain ⟨hlt, hcopies⟩ := h q hq
  refine ⟨hlt, fun c hc ↦ hcopies c ?_⟩
  rwa [ResourceHeap.snapshot_addDtohCopy_of_ne (ne_of_mem_of_not_mem hq hr)] at hc

/-- A node is added to a graph, and its copy to the resources of the graph. -/
theorem addNode (h : nodes.Sound heap) (copy : GraphHostCopy)
    (hr : heap.snapshot r = nodes.copies) :
    Sound (heap.modify r (GraphResources.addDtohCopy copy))
      { nodes with copies := nodes.copies ++ [copy] } := by
  intro q hq
  obtain ⟨hlt, hcopies⟩ := h q hq
  refine ⟨hlt, fun c hc ↦ ?_⟩
  rcases eq_or_ne q r with rfl | hne
  · rwa [ResourceHeap.snapshot_addDtohCopy_self, hr] at hc
  · rw [ResourceHeap.snapshot_addDtohCopy_of_ne hne] at hc
    exact List.mem_append_left _ (hcopies c hc)

theorem addCallback (h : nodes.Sound heap) (hlt : r < heap.next)
    (hr : heap.snapshot r = nodes.copies) :
    Sound heap { nodes with callbacks := nodes.callbacks ++ [r] } := by
  intro q hq
  rcases List.mem_append.mp hq with hq | hq
  · exact h q hq
  · obtain rfl := List.mem_singleton.mp hq
    exact ⟨hlt, fun c hc ↦ hr ▸ hc⟩

end GraphNodes.Sound

/-- Every graph of a table is sound. -/
def GraphTable.Sound (heap : ResourceHeap) (table : GraphTable) : Prop :=
  ∀ k nodes, table.lookup k = some nodes → nodes.Sound heap

theorem GraphTable.Sound.insert {heap : ResourceHeap} {table : GraphTable} {k : ℕ}
    {nodes : GraphNodes} (h : table.Sound heap) (hnodes : nodes.Sound heap) :
    GraphTable.Sound heap (table.insert k nodes) := by
  intro k' nodes' hk'
  rcases lookup_insert_eq_some.mp hk' with ⟨-, rfl⟩ | ⟨-, hk'⟩
  · exact hnodes
  · exact h k' nodes' hk'

theorem GraphTable.Sound.erase {heap : ResourceHeap} {table : GraphTable} {k : ℕ}
    (h : table.Sound heap) : GraphTable.Sound heap (table.erase k) :=
  fun k' nodes hk' ↦ h k' nodes (lookup_erase_eq_some.mp hk').2

/-! ## The invariant

Both tables match their entries, host nodes publish only copies of their own graph, and the map of
launches has what the launches were made with. -/

structure GraphsInv (st : GraphsState) : Prop where
  graphs_below : st.server.graphResources.Below st.server.heap.next
  execs_below : st.server.execResources.Below st.server.heap.next
  launched_below : ∀ entry ∈ st.server.launched,
    0 < entry.2.2 ∧ entry.2.2 < st.server.heap.next
  graphs : Matches st.server.heap st.server.graphResources st.graphs
  execs : Matches st.server.heap st.server.execResources st.execs
  graphs_sound : st.graphs.Sound st.server.heap
  execs_sound : st.execs.Sound st.server.heap
  launches_sound : ∀ i nodes, st.launches[i]? = some nodes → i ∉ st.complete →
    nodes.Sound st.server.heap
  /-- What was noted for a launch has the copies of its nodes. -/
  launched : ∀ entry ∈ st.server.launched, ∃ nodes, st.launches[entry.2.1]? = some nodes ∧
    st.server.heap.snapshot entry.2.2 = nodes.copies
  fresh : ∀ i, st.launches.length ≤ i → st.delivered i = []
  delivers : st.DeliversNodes

theorem graphsInv_init : GraphsInv {} where
  graphs_below _ _ h := nomatch h
  execs_below _ _ h := nomatch h
  launched_below _ h := absurd h List.not_mem_nil
  graphs _ := rfl
  execs _ := rfl
  graphs_sound _ _ h := nomatch h
  execs_sound _ _ h := nomatch h
  launches_sound _ _ h := nomatch h
  launched _ h := absurd h List.not_mem_nil
  fresh _ _ := rfl
  delivers _ _ h := nomatch h

theorem GraphServer.lookup_getGraphResources (server : GraphServer) (graph : CUgraph) :
    (server.getGraphResources graph).2.graphResources.lookup graph
      = some (server.getGraphResources graph).1 :=
  PointerTable.lookup_upsert _ _ _ _

namespace GraphsInv

variable {st : GraphsState} (h : GraphsInv st)
include h

theorem getGraphResources (graph : CUgraph) :
    GraphsInv { st with server := (st.server.getGraphResources graph).2 } := by
  rw [GraphServer.getGraphResources]
  cases hr : st.server.graphResources.lookup graph with
  | some r =>
    rw [PointerTable.upsert_of_some hr]
    exact h
  | none =>
    rw [PointerTable.upsert_of_none hr]
    exact
      { graphs_below := h.graphs_below.insert_alloc _
        execs_below := h.execs_below.mono (Nat.le_succ _)
        launched_below := fun entry hentry ↦ ⟨(h.launched_below entry hentry).1,
          Nat.lt_succ_of_lt (h.launched_below entry hentry).2⟩
        graphs := h.graphs.insert_alloc h.graphs_below hr
        execs := h.execs.alloc h.execs_below
        graphs_sound := fun g nodes hnodes ↦ (h.graphs_sound g nodes hnodes).alloc
        execs_sound := fun e nodes hnodes ↦ (h.execs_sound e nodes hnodes).alloc
        launches_sound := fun i nodes hi hrunning ↦ (h.launches_sound i nodes hi hrunning).alloc
        launched := fun entry hentry ↦ by
          obtain ⟨nodes, hnodes, hcopies⟩ := h.launched entry hentry
          exact ⟨nodes, hnodes, (ResourceHeap.snapshot_alloc_of_lt
            (h.launched_below entry hentry).2).trans hcopies⟩
        fresh := h.fresh
        delivers := h.delivers }

/-- A device-to-host node is added to a graph that alone refers to its resources. -/
theorem addNode {graph : CUgraph} {r : ResourcesPtr} {nodes : GraphNodes} (copy : GraphHostCopy)
    (hr : st.server.graphResources.lookup graph = some r)
    (hnodes : st.graphs.lookup graph = some nodes) (hheld : st.HeldOnlyBy graph r) :
    GraphsInv { st with
      server := { st.server with
        heap := st.server.heap.modify r (GraphResources.addDtohCopy copy) }
      graphs := st.graphs.insert graph { nodes with copies := nodes.copies ++ [copy] } } := by
  obtain ⟨hgraphs, hexecs, hlaunched, hgraphNodes, hexecNodes, hrunning⟩ := hheld
  refine
    { h with
      graphs := h.graphs.addNode copy hr hnodes fun k hk ↦
        hgraphs k (PointerTable.mem_holders.mpr hk)
      execs := h.execs.addCopy copy (PointerTable.holders_eq_nil_iff.mp hexecs)
      graphs_sound := ?_
      execs_sound := ?_
      launches_sound := ?_
      launched := ?_ }
  · intro g nodes' hnodes'
    rcases lookup_insert_eq_some.mp hnodes' with ⟨-, rfl⟩ | ⟨hne, hnodes'⟩
    · exact (h.graphs_sound graph nodes hnodes).addNode copy (h.graphs.snapshot_eq hr hnodes)
    · exact (h.graphs_sound g nodes' hnodes').addCopy copy
        (hgraphNodes ⟨g, nodes'⟩ (AList.mem_lookup_iff.mp hnodes') hne)
  · intro e nodes' hnodes'
    exact (h.execs_sound e nodes' hnodes').addCopy copy
      (hexecNodes ⟨e, nodes'⟩ (AList.mem_lookup_iff.mp hnodes'))
  · intro i nodes' hi hi'
    refine (h.launches_sound i nodes' hi hi').addCopy copy (hrunning (nodes', i) ?_ hi')
    exact List.mk_mem_zipIdx_iff_getElem?.mpr hi
  · intro entry hentry
    obtain ⟨nodes', hnodes', hcopies⟩ := h.launched entry hentry
    exact ⟨nodes', hnodes',
      (ResourceHeap.snapshot_addDtohCopy_of_ne (hlaunched entry hentry) copy).trans hcopies⟩

theorem insertGraph {graph : CUgraph} {nodes : GraphNodes}
    (hcopies : attachedCopies st.server.heap st.server.graphResources graph = nodes.copies)
    (hsound : nodes.Sound st.server.heap) :
    GraphsInv { st with graphs := st.graphs.insert graph nodes } :=
  { h with
    graphs := h.graphs.insert_nodes hcopies
    graphs_sound := h.graphs_sound.insert hsound }

theorem graphClone {clone original : CUgraph} {nodes : GraphNodes}
    (hnew : st.graphs.lookup clone = none) (hnodes : st.graphs.lookup original = some nodes) :
    GraphsInv { st with
      server := st.server.graphClone clone original .success
      graphs := st.graphs.insert clone nodes } := by
  have hsound := h.graphs_sound original nodes hnodes
  rw [GraphServer.graphClone]
  cases hr : st.server.graphResources.lookup original with
  | some r =>
    exact
      { h with
        graphs_below := h.graphs_below.insert (h.graphs_below original r hr)
        graphs := h.graphs.insert (h.graphs.snapshot_eq hr hnodes)
        graphs_sound := h.graphs_sound.insert hsound }
  | none =>
    refine h.insertGraph ?_ hsound
    rw [h.graphs clone, Matches.copies_of_none hnew, ← Matches.copies_of_lookup hnodes,
      ← h.graphs original, attachedCopies_of_none hr]

theorem shareWithExec {exec : CUgraphExec} {graph : CUgraph} {nodes : GraphNodes}
    (hnodes : st.graphs.lookup graph = some nodes)
    (hstale : st.server.graphResources.lookup graph = none →
      attachedCopies st.server.heap st.server.execResources exec = []) :
    GraphsInv { st with
      server := st.server.shareWithExec exec graph
      execs := st.execs.insert exec nodes } := by
  have hsound := h.graphs_sound graph nodes hnodes
  rw [GraphServer.shareWithExec]
  cases hr : st.server.graphResources.lookup graph with
  | some r =>
    exact
      { h with
        execs_below := h.execs_below.insert (h.graphs_below graph r hr)
        execs := h.execs.insert (h.graphs.snapshot_eq hr hnodes)
        execs_sound := h.execs_sound.insert hsound }
  | none =>
    refine { h with execs := h.execs.insert_nodes ?_, execs_sound := h.execs_sound.insert hsound }
    rw [hstale hr, ← Matches.copies_of_lookup hnodes, ← h.graphs graph, attachedCopies_of_none hr]

theorem graphLaunch {exec : CUgraphExec} {nodes : GraphNodes} (stream : CUstream)
    (hnodes : st.execs.lookup exec = some nodes) :
    GraphsInv { st with
      server := st.server.graphLaunch exec stream st.launches.length
      launches := st.launches ++ [nodes] } := by
  have hnew : ∀ (i : ℕ) nodes', (st.launches ++ [nodes])[i]? = some nodes' →
      st.launches[i]? = some nodes' ∨ i = st.launches.length ∧ nodes' = nodes := by
    intro i nodes' hi
    rcases lt_or_ge i st.launches.length with hlt | hge
    · exact Or.inl ((List.getElem?_append_left hlt).symm.trans hi)
    · rw [List.getElem?_append_right hge, List.getElem?_singleton] at hi
      obtain ⟨hi, heq⟩ := Option.ite_none_right_eq_some.mp hi
      exact Or.inr ⟨le_antisymm (Nat.sub_eq_zero_iff_le.mp hi) hge, (Option.some.inj heq).symm⟩
  have hold : ∀ (i : ℕ) nodes', st.launches[i]? = some nodes' →
      (st.launches ++ [nodes])[i]? = some nodes' := by
    intro i nodes' hi
    exact (List.getElem?_append_left (List.getElem?_eq_some_iff.mp hi).1).trans hi
  have hlaunched : ∀ entry ∈ st.server.launched,
      ∃ nodes', (st.launches ++ [nodes])[entry.2.1]? = some nodes' ∧
        st.server.heap.snapshot entry.2.2 = nodes'.copies := by
    intro entry hentry
    obtain ⟨nodes', hnodes', hcopies⟩ := h.launched entry hentry
    exact ⟨nodes', hold _ _ hnodes', hcopies⟩
  -- Nothing was delivered for launches that are still to come, the new one among them.
  have hfresh : ∀ i, (st.launches ++ [nodes]).length ≤ i → st.delivered i = [] := by
    intro i hi
    rw [List.length_append] at hi
    exact h.fresh i (le_trans (Nat.le_add_right _ _) hi)
  have hsound : ∀ i nodes', (st.launches ++ [nodes])[i]? = some nodes' → i ∉ st.complete →
      nodes'.Sound st.server.heap := by
    intro i nodes' hi hrunning
    rcases hnew i nodes' hi with hi | ⟨-, rfl⟩
    · exact h.launches_sound i nodes' hi hrunning
    · exact h.execs_sound exec nodes' hnodes
  have hnone := h.fresh st.launches.length le_rfl
  rw [GraphServer.graphLaunch]
  cases hr : st.server.execResources.lookup exec with
  | some r =>
    refine
      { h with
        launched_below := ?_
        launches_sound := hsound
        launched := ?_
        fresh := hfresh
        delivers := ?_ }
    · intro entry hentry
      rcases List.mem_append.mp hentry with hentry | hentry
      · exact h.launched_below entry hentry
      · obtain rfl := List.mem_singleton.mp hentry
        exact h.execs_below exec r hr
    · intro entry hentry
      rcases List.mem_append.mp hentry with hentry | hentry
      · exact hlaunched entry hentry
      · obtain rfl := List.mem_singleton.mp hentry
        exact ⟨nodes, List.getElem?_concat_length, h.execs.snapshot_eq hr hnodes⟩
    · intro i nodes' hi
      rcases hnew i nodes' hi with hi | ⟨rfl, rfl⟩
      · obtain ⟨hsub, hall⟩ := h.delivers i nodes' hi
        exact ⟨hsub, fun hwait ↦ hall fun entry hentry ↦
          hwait entry (List.mem_append_left _ hentry)⟩
      · refine ⟨fun copy hcopy ↦ ?_, fun hwait ↦ ?_⟩
        · rw [hnone] at hcopy
          exact absurd hcopy List.not_mem_nil
        -- The new launch waits in the map, so nothing is promised for it yet.
        · exact absurd rfl (hwait (stream, st.launches.length, r)
            (List.mem_append_right _ (List.mem_singleton_self _)))
  | none =>
    have hempty : nodes.copies = [] := by
      rw [← Matches.copies_of_lookup hnodes, ← h.execs exec, attachedCopies_of_none hr]
    refine
      { h with
        launches_sound := hsound
        launched := hlaunched
        fresh := hfresh
        delivers := ?_ }
    intro i nodes' hi
    rcases hnew i nodes' hi with hi | ⟨rfl, rfl⟩
    · exact h.delivers i nodes' hi
    · rw [show st.delivered st.launches.length = [] from hnone, hempty]
      exact ⟨fun _ hcopy ↦ absurd hcopy List.not_mem_nil,
        fun _ _ hcopy ↦ absurd hcopy List.not_mem_nil⟩

theorem hostCallback {launch : ℕ} {nodes : GraphNodes} {r : ResourcesPtr}
    (hnodes : st.launches[launch]? = some nodes) (hrunning : launch ∉ st.complete)
    (hr : r ∈ nodes.callbacks) :
    GraphsInv { st with
      delivered := Function.update st.delivered launch
        (st.delivered launch ++ st.server.heap.snapshot r) } := by
  refine { h with fresh := fun i hi ↦ ?_, delivers := fun i nodes' hi ↦ ?_ }
  · have hlt := (List.getElem?_eq_some_iff.mp hnodes).1
    have hne : i ≠ launch := Nat.ne_of_gt (lt_of_lt_of_le hlt hi)
    exact (Function.update_of_ne hne _ _).trans (h.fresh i hi)
  · have hmem : ∀ copy, copy ∈ Function.update st.delivered launch
        (st.delivered launch ++ st.server.heap.snapshot r) i ↔
          copy ∈ st.delivered i ∨ i = launch ∧ copy ∈ st.server.heap.snapshot r := by
      intro copy
      rcases eq_or_ne i launch with rfl | hne
      · rw [Function.update_self, List.mem_append]
        simp
      · rw [Function.update_of_ne hne]
        simp [hne]
    obtain ⟨hsub, hall⟩ := h.delivers i nodes' hi
    refine ⟨fun copy hcopy ↦ ?_, fun hwait copy hcopy ↦
      (hmem copy).mpr (Or.inl (hall hwait copy hcopy))⟩
    rcases (hmem copy).mp hcopy with hold | ⟨rfl, hnew⟩
    · exact hsub copy hold
    · obtain rfl := Option.some.inj (hnodes.symm.trans hi)
      exact (h.launches_sound i nodes hnodes hrunning r hr).2 copy hnew

/-- What is taken from the map of launches is delivered, and the rest stays. -/
theorem deliver {taken : List (ℕ × ResourcesPtr) × LaunchedGraphResources (ℕ × ResourcesPtr)}
    (htaken : ∀ noted, noted ∈ taken.1 → ∃ entry ∈ st.server.launched, entry.2 = noted)
    (hrest : ∀ entry ∈ taken.2, entry ∈ st.server.launched)
    (hall : ∀ entry ∈ st.server.launched, entry ∈ taken.2 ∨ entry.2 ∈ taken.1) :
    GraphsInv (st.deliver taken) := by
  have hmem : ∀ i copy, copy ∈ (st.deliver taken).delivered i ↔ copy ∈ st.delivered i ∨
      ∃ noted ∈ taken.1, noted.1 = i ∧ copy ∈ st.server.heap.snapshot noted.2 := by
    intro i copy
    show copy ∈ st.delivered i ++ _ ↔ _
    rw [List.mem_append, mem_graphHostCopiesFor]
    refine or_congr_right ⟨?_, ?_⟩
    · rintro ⟨r, hr, -, hcopy⟩
      obtain ⟨noted, hnoted, rfl⟩ := List.mem_map.mp hr
      obtain ⟨hnoted, hi⟩ := List.mem_filter.mp hnoted
      exact ⟨noted, hnoted, beq_iff_eq.mp hi, hcopy⟩
    · rintro ⟨noted, hnoted, hi, hcopy⟩
      obtain ⟨entry, hentry, rfl⟩ := htaken noted hnoted
      exact ⟨entry.2.2, List.mem_map.mpr ⟨entry.2,
        List.mem_filter.mpr ⟨hnoted, beq_iff_eq.mpr hi⟩, rfl⟩,
        Nat.ne_of_gt (h.launched_below entry hentry).1, hcopy⟩
  have hnodes : ∀ noted ∈ taken.1, ∀ nodes, st.launches[noted.1]? = some nodes →
      st.server.heap.snapshot noted.2 = nodes.copies := by
    intro noted hnoted nodes hi
    obtain ⟨entry, hentry, rfl⟩ := htaken noted hnoted
    obtain ⟨nodes', hi', hcopies⟩ := h.launched entry hentry
    rw [hcopies, Option.some.inj (hi'.symm.trans hi)]
  refine
    { h with
      launched_below := fun entry hentry ↦ h.launched_below entry (hrest entry hentry)
      launched := fun entry hentry ↦ h.launched entry (hrest entry hentry)
      fresh := ?_
      delivers := ?_ }
  · intro i hi
    refine List.eq_nil_iff_forall_not_mem.mpr fun copy hcopy ↦ ?_
    rcases (hmem i copy).mp hcopy with hcopy | ⟨noted, hnoted, rfl, -⟩
    · rw [h.fresh i hi] at hcopy
      exact List.not_mem_nil hcopy
    · obtain ⟨entry, hentry, rfl⟩ := htaken noted hnoted
      obtain ⟨nodes, hnodes, -⟩ := h.launched entry hentry
      exact absurd (List.getElem?_eq_some_iff.mp hnodes).1 (not_lt.mpr hi)
  · intro i nodes hi
    obtain ⟨hsub, hdelivered⟩ := h.delivers i nodes hi
    refine ⟨fun copy hcopy ↦ ?_, fun hwait copy hcopy ↦ (hmem i copy).mpr ?_⟩
    · rcases (hmem i copy).mp hcopy with hold | ⟨noted, hnoted, rfl, hnew⟩
      · exact hsub copy hold
      · exact hnodes noted hnoted nodes hi ▸ hnew
    · by_cases hnoted : ∃ entry ∈ st.server.launched, entry.2.1 = i
      -- A launch that no longer waits was taken, or had been delivered before.
      · obtain ⟨entry, hentry, rfl⟩ := hnoted
        have htook := (hall entry hentry).resolve_left fun hstays ↦ hwait entry hstays rfl
        exact Or.inr ⟨entry.2, htook, rfl, (hnodes entry.2 htook nodes hi).symm ▸ hcopy⟩
      · exact Or.inl (hdelivered (fun entry hentry hi ↦ hnoted ⟨entry, hentry, hi⟩) copy hcopy)

end GraphsInv

/-! ## Steps and runs

After `lupine_get_graph_resources`, what only the graph held before, or what is new, only it holds.
The other requests are insertions and erasures in one of the two tables. -/

theorem whenNew_eq_some {table : GraphTable} {graph : ℕ} {st : Option GraphsState}
    {st' : GraphsState} (h : whenNew table graph st = some st') :
    table.lookup graph = none ∧ st = some st' := by
  rw [whenNew, Option.ite_none_left_eq_some, Bool.not_eq_true, Option.isSome_eq_false_iff,
    Option.isNone_iff_eq_none] at h
  exact h

namespace GraphsInv

variable {st st' : GraphsState} (h : GraphsInv st)
include h

/-- After `lupine_get_graph_resources`, what only a graph held before or is new only it holds. -/
theorem heldOnlyBy_getGraphResources {graph : CUgraph}
    (hheld : ∀ r, st.server.graphResources.lookup graph = some r → st.HeldOnlyBy graph r) :
    GraphsState.HeldOnlyBy { st with server := (st.server.getGraphResources graph).2 } graph
      (st.server.getGraphResources graph).1 := by
  rw [GraphServer.getGraphResources]
  cases hr : st.server.graphResources.lookup graph with
  | some r =>
    rw [PointerTable.upsert_of_some hr]
    exact hheld r hr
  | none =>
    rw [PointerTable.upsert_of_none hr]
    have hcallbacks : ∀ nodes : GraphNodes, nodes.Sound st.server.heap →
        st.server.heap.next ∉ nodes.callbacks :=
      fun nodes hsound hmem ↦ lt_irrefl _ (hsound _ hmem).1
    refine ⟨fun g hg ↦ ?_, PointerTable.holders_eq_nil_iff.mpr h.execs_below.lookup_ne,
      fun entry hentry ↦ Nat.ne_of_lt (h.launched_below entry hentry).2,
      fun entry hentry _ ↦ hcallbacks _ (h.graphs_sound _ _ (AList.mem_lookup_iff.mpr hentry)),
      fun entry hentry ↦ hcallbacks _ (h.execs_sound _ _ (AList.mem_lookup_iff.mpr hentry)),
      fun entry hentry hrunning ↦ hcallbacks _
        (h.launches_sound _ _ (List.mk_mem_zipIdx_iff_getElem?.mp hentry) hrunning)⟩
    rcases lookup_insert_eq_some.mp (PointerTable.mem_holders.mp hg) with ⟨heq, -⟩ | ⟨-, hg⟩
    · exact heq
    · exact absurd hg (h.graphs_below.lookup_ne g)

theorem addMemcpyNode {graph : CUgraph} {dst : Option GraphHostCopy} {result : CUresult}
    (hok : KeepsCopiesApart st (.addMemcpyNode graph dst result))
    (hstep : graphStep st (.addMemcpyNode graph dst result) = some st') : GraphsInv st' := by
  have hfound := h.getGraphResources graph
  have hr := st.server.lookup_getGraphResources graph
  cases dst with
  | none =>
    rcases ite_eq_iff.mp hstep with ⟨-, hstep⟩ | ⟨-, hstep⟩
    · obtain ⟨nodes, hnodes, rfl⟩ := Option.map_eq_some_iff.mp hstep
      have hsame : { nodes with copies := nodes.copies ++ [] } = nodes := by rw [List.append_nil]
      show GraphsInv { st with
        server := _
        graphs := st.graphs.insert graph { nodes with copies := nodes.copies ++ [] } }
      rw [hsame]
      exact hfound.insertGraph ((hfound.graphs graph).trans (Matches.copies_of_lookup hnodes))
        (hfound.graphs_sound graph nodes hnodes)
    · exact Option.some.inj hstep ▸ hfound
  | some copy =>
    obtain ⟨hresult, hheld⟩ := hok (Option.some_ne_none copy)
    rcases ite_eq_iff.mp hstep with ⟨-, hstep⟩ | ⟨hfail, -⟩
    · obtain ⟨nodes, hnodes, rfl⟩ := Option.map_eq_some_iff.mp hstep
      exact hfound.addNode copy hr hnodes (h.heldOnlyBy_getGraphResources hheld)
    · exact absurd hresult hfail

theorem addHostNode {graph : CUgraph} {result : CUresult}
    (hstep : graphStep st (.addHostNode graph result) = some st') : GraphsInv st' := by
  have hfound := h.getGraphResources graph
  have hr := st.server.lookup_getGraphResources graph
  rcases ite_eq_iff.mp hstep with ⟨-, hstep⟩ | ⟨-, hstep⟩
  · obtain ⟨nodes, hnodes, rfl⟩ := Option.map_eq_some_iff.mp hstep
    refine hfound.insertGraph ?_ ?_
    · have hcopies : st.graphs.copies graph = nodes.copies := Matches.copies_of_lookup hnodes
      exact (hfound.graphs graph).trans hcopies
    · exact (hfound.graphs_sound graph nodes hnodes).addCallback (hfound.graphs_below.lt hr)
        (hfound.graphs.snapshot_eq hr hnodes)
  · exact Option.some.inj hstep ▸ hfound

theorem instantiate {exec : CUgraphExec} {graph : CUgraph}
    (hstep : whenNew st.execs exec (st.setExec (st.server.shareWithExec exec graph) exec graph)
      = some st') : GraphsInv st' := by
  obtain ⟨hnew, hstep⟩ := whenNew_eq_some hstep
  obtain ⟨nodes, hnodes, rfl⟩ := Option.map_eq_some_iff.mp hstep
  refine h.shareWithExec hnodes fun _ ↦ ?_
  rw [h.execs exec, Matches.copies_of_none hnew]

theorem execUpdate {exec : CUgraphExec} {graph : CUgraph} {result : CUresult} {updated : Bool}
    (hok : KeepsCopiesApart st (.execUpdate exec graph result updated))
    (hstep : graphStep st (.execUpdate exec graph result updated) = some st') :
    GraphsInv st' := by
  rcases ite_eq_iff.mp hstep with ⟨hresult, hstep⟩ | ⟨hresult, hstep⟩
  · obtain ⟨st₁, hst₁, hstep⟩ := Option.bind_eq_some_iff.mp hstep
    obtain ⟨-, heq⟩ := Option.ite_none_right_eq_some.mp hstep
    obtain ⟨nodes, hnodes, rfl⟩ := Option.map_eq_some_iff.mp hst₁
    obtain rfl := Option.some.inj heq
    rw [GraphServer.graphExecUpdate, if_pos hresult]
    refine h.shareWithExec hnodes fun hnone ↦ ?_
    refine (hok hresult.1 hresult.2).resolve_left fun hsome ↦ ?_
    rw [hnone] at hsome
    exact nomatch hsome
  · obtain rfl := Option.some.inj hstep
    rw [GraphServer.graphExecUpdate, if_neg hresult]
    exact h

theorem execDestroy {exec : CUgraphExec} {result : CUresult}
    (hok : KeepsCopiesApart st (.execDestroy exec result))
    (hstep : graphStep st (.execDestroy exec result) = some st') : GraphsInv st' := by
  have hbelow := h.execs_below.erase (k := exec)
  rcases ite_eq_iff.mp hstep with ⟨-, hstep⟩ | ⟨hresult, hstep⟩
  · obtain ⟨-, heq⟩ := Option.ite_none_right_eq_some.mp hstep
    obtain rfl := Option.some.inj heq
    exact { h with
      execs_below := hbelow
      execs := h.execs.erase
      execs_sound := h.execs_sound.erase }
  · obtain rfl := Option.some.inj hstep
    exact { h with
      execs_below := hbelow
      execs := h.execs.erase_entry ((h.execs exec).symm.trans (hok hresult)) }

theorem graphDestroy {graph : CUgraph} {result : CUresult}
    (hok : KeepsCopiesApart st (.graphDestroy graph result))
    (hstep : graphStep st (.graphDestroy graph result) = some st') : GraphsInv st' := by
  have hbelow := h.graphs_below.erase (k := graph)
  rcases ite_eq_iff.mp hstep with ⟨-, hstep⟩ | ⟨hresult, hstep⟩
  · obtain ⟨-, heq⟩ := Option.ite_none_right_eq_some.mp hstep
    obtain rfl := Option.some.inj heq
    exact { h with
      graphs_below := hbelow
      graphs := h.graphs.erase
      graphs_sound := h.graphs_sound.erase }
  · obtain rfl := Option.some.inj hstep
    exact { h with
      graphs_below := hbelow
      graphs := h.graphs.erase_entry ((h.graphs graph).symm.trans (hok hresult)) }

theorem streamSynchronize (stream : CUstream) :
    GraphsInv (st.deliver (takeLaunchedGraphResources st.server.launched stream)) := by
  refine h.deliver (fun noted hnoted ↦ ?_) (fun entry hentry ↦ List.mem_of_mem_filter hentry)
    fun entry hentry ↦ ?_
  · obtain ⟨entry, hentry, rfl⟩ := List.mem_map.mp hnoted
    exact ⟨entry, List.mem_of_mem_filter hentry, rfl⟩
  · by_cases hstream : entry.1 = stream
    · refine Or.inr (List.mem_map_of_mem (List.mem_filter.mpr ⟨hentry, ?_⟩))
      exact beq_iff_eq.mpr hstream
    · exact Or.inl (List.mem_filter.mpr ⟨hentry, bne_iff_ne.mpr hstream⟩)

theorem ctxSynchronize :
    GraphsInv (st.deliver (takeAllLaunchedGraphResources st.server.launched)) :=
  h.deliver (fun _ hnoted ↦ List.mem_map.mp hnoted) (fun _ hentry ↦ absurd hentry List.not_mem_nil)
    fun _ hentry ↦ Or.inr (List.mem_map_of_mem hentry)

/-- **Steps keep the invariant.** -/
theorem step {step : GraphStep} (hok : KeepsCopiesApart st step)
    (hstep : graphStep st step = some st') : GraphsInv st' := by
  cases step with
  | graphCreate graph result =>
    rcases ite_eq_iff.mp hstep with ⟨-, hstep⟩ | ⟨-, hstep⟩
    · obtain ⟨hnew, hstep⟩ := whenNew_eq_some hstep
      obtain rfl := Option.some.inj hstep
      refine h.insertGraph ?_ fun r hr ↦ absurd hr List.not_mem_nil
      rw [h.graphs graph, Matches.copies_of_none hnew]
    · exact Option.some.inj hstep ▸ h
  | addMemcpyNode graph dst result => exact h.addMemcpyNode hok hstep
  | addHostNode graph result => exact h.addHostNode hstep
  | clone clone original result =>
    rcases ite_eq_iff.mp hstep with ⟨rfl, hstep⟩ | ⟨hresult, hstep⟩
    · obtain ⟨hnew, hstep⟩ := whenNew_eq_some hstep
      obtain ⟨nodes, hnodes, rfl⟩ := Option.map_eq_some_iff.mp hstep
      exact h.graphClone hnew hnodes
    · obtain rfl := Option.some.inj hstep
      -- a clone that failed has shared nothing
      have hserver : st.server.graphClone clone original result = st.server := by
        rw [GraphServer.graphClone]
        cases st.server.graphResources.lookup original with
        | some r => exact if_neg hresult
        | none => rfl
      exact hserver.symm ▸ h
  | instantiateWithFlags exec graph result =>
    rcases ite_eq_iff.mp hstep with ⟨hresult, hstep⟩ | ⟨hresult, hstep⟩
    · rw [GraphServer.graphInstantiateWithFlags, if_pos hresult] at hstep
      exact h.instantiate hstep
    · obtain rfl := Option.some.inj hstep
      rw [GraphServer.graphInstantiateWithFlags, if_neg hresult]
      exact h
  | instantiateWithParams exec graph result =>
    rcases ite_eq_iff.mp hstep with ⟨hresult, hstep⟩ | ⟨hresult, hstep⟩
    · rw [GraphServer.graphInstantiateWithParams, if_pos hresult] at hstep
      exact h.instantiate hstep
    · obtain rfl := Option.some.inj hstep
      rw [GraphServer.graphInstantiateWithParams, if_neg hresult]
      exact h
  | execUpdate exec graph result updated => exact h.execUpdate hok hstep
  | execDestroy exec result => exact h.execDestroy hok hstep
  | graphDestroy graph result => exact h.graphDestroy hok hstep
  | launch exec stream result =>
    rcases ite_eq_iff.mp hstep with ⟨-, hstep⟩ | ⟨-, hstep⟩
    · obtain ⟨nodes, hnodes, rfl⟩ := Option.map_eq_some_iff.mp hstep
      exact h.graphLaunch stream hnodes
    · exact Option.some.inj hstep ▸ h
  | hostCallback launch r =>
    change (match st.launches[launch]? with | some nodes => _ | none => none) = _ at hstep
    cases hnodes : st.launches[launch]? with
    | some nodes =>
      rw [hnodes] at hstep
      obtain ⟨⟨hrunning, hr⟩, hstep⟩ := Option.ite_none_right_eq_some.mp hstep
      exact Option.some.inj hstep ▸ h.hostCallback hnodes hrunning hr
    | none =>
      rw [hnodes] at hstep
      exact nomatch hstep
  | complete launch =>
    obtain ⟨-, rfl⟩ := Option.ite_some_none_eq_some.mp hstep
    exact { h with
      launches_sound := fun i nodes hi hrunning ↦
        h.launches_sound i nodes hi fun hmem ↦ hrunning (List.mem_cons_of_mem _ hmem) }
  | streamSynchronize stream => exact Option.some.inj hstep ▸ h.streamSynchronize stream
  | ctxSynchronize => exact Option.some.inj hstep ▸ h.ctxSynchronize

end GraphsInv

/-- **Launches deliver their nodes.** In a run all of whose steps keep the copies of graphs apart,
what is delivered for a launch is what the executable graph contained. -/
theorem launches_deliver_nodes {steps : List GraphStep} {st : GraphsState}
    (hrun : (explicitGraphs.restrict KeepsCopiesApart).run {} steps = some st) :
    st.DeliversNodes := by
  have hinv : GraphsInv st := by
    refine Machine.run_invariant _ ?_ graphsInv_init hrun
    intro s step s' h hstep
    obtain ⟨hok, hstep⟩ := Machine.step_restrict.mp hstep
    exact h.step hok hstep
  exact hinv.delivers

/-- A graph is built, launched twice and cloned; when everything else that refers to its resources
is gone, the clone gets a node of its own. -/
def buildLaunchClone : List GraphStep :=
  [.graphCreate 1 .success, .addMemcpyNode 1 (some ⟨100, 4096, 8⟩) .success,
    .addHostNode 1 .success, .instantiateWithFlags 9 1 .success, .launch 9 3 .success,
    .launch 9 4 .success, .hostCallback 0 1, .complete 0, .streamSynchronize 3, .hostCallback 1 1,
    .complete 1, .ctxSynchronize, .clone 2 1 .success, .execDestroy 9 .success,
    .graphDestroy 1 .success, .addMemcpyNode 2 (some ⟨200, 8192, 8⟩) .success,
    .instantiateWithParams 9 2 .success, .launch 9 3 .success, .streamSynchronize 3]

theorem launches_deliver_nodes_buildLaunchClone :
    ∃ st, (explicitGraphs.restrict KeepsCopiesApart).run {} buildLaunchClone = some st ∧
      st.DeliversNodes := by
  have hpossible : ((explicitGraphs.restrict KeepsCopiesApart).run {}
      buildLaunchClone).isSome = true := by decide +kernel
  obtain ⟨st, hrun⟩ := Option.isSome_iff_exists.mp hpossible
  exact ⟨st, hrun, launches_deliver_nodes hrun⟩

/-- A node that is added to a graph after it was instantiated is delivered for a launch. -/
theorem laterNode_delivered :
    ∃ st, explicitGraphs.run {}
        [.graphCreate 1 .success, .addMemcpyNode 1 (some ⟨100, 4096, 8⟩) .success,
          .instantiateWithFlags 9 1 .success, .addMemcpyNode 1 (some ⟨200, 8192, 8⟩) .success,
          .launch 9 3 .success, .streamSynchronize 3] = some st ∧
      ¬st.DeliversNodes := by
  have hfacts : (explicitGraphs.run {}
        [.graphCreate 1 .success, .addMemcpyNode 1 (some ⟨100, 4096, 8⟩) .success,
          .instantiateWithFlags 9 1 .success, .addMemcpyNode 1 (some ⟨200, 8192, 8⟩) .success,
          .launch 9 3 .success, .streamSynchronize 3]).map (fun st ↦
        (st.launches[0]?, st.delivered 0))
      = some (some ⟨[⟨100, 4096, 8⟩], []⟩, [⟨100, 4096, 8⟩, ⟨200, 8192, 8⟩]) := by
    decide +kernel
  obtain ⟨st, hrun, heq⟩ := Option.map_eq_some_iff.mp hfacts
  obtain ⟨hlaunch, hdelivered⟩ := Prod.mk.inj heq
  refine ⟨st, hrun, fun hdelivers ↦ ?_⟩
  have hmem := (hdelivers 0 _ hlaunch).1 ⟨200, 8192, 8⟩ (by rw [hdelivered]; decide)
  exact absurd hmem (by decide)

end Lupine
