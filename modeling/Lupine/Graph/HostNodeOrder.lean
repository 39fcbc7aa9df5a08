import Lupine.Graph.ExplicitGraphs
import Mathlib.Logic.Relation

/-!
# Host nodes and the copies before them

A host node of a graph runs a function of the client. The server sends for it the copies that the
resources of the graph list, from their buffers, and the client writes them before it calls the
function. Which nodes the host node depends on plays no part in this: the resources list every copy
of the graph, the order of the list is that in which they were added, and they may grow after the
graph was instantiated. A host node whose parameters are set again has no resources at all.

## When that is right

A function should find what was copied before it, and nothing else should have been written for it.
So every copy that the resources list has to be ordered before the host node; and where the
parameters were set again, an earlier host node has to have sent what comes before this one.

## From the graph to the launch

Three things are known of a graph: its host nodes have the resources of the graph, these list its
copies, and they only grow. A launch has the nodes of its graph at the time. The condition asks that
a launched graph is in order and that the resources do not grow while a host node of a launch still
has to publish them; then a message writes the copies ordered before the host node and no others.
-/

open Foundation

namespace Lupine

abbrev CUgraphNode := ℕ

/-! ## Messages

The count of copies goes over the wire as an `int`. If it is not that of the copies, something else
is taken for the function. -/

/-- `static_cast<int>`, as it is sent. -/
def transferCount (copies : List GraphHostCopy) : ℤ := (BitVec.ofNat 32 copies.length).toInt

/-- What `rpc_client_dispatch_thread` writes for the message of `lupine_graph_host_callback` before
it calls the function. If the count is not that of the copies, something else is taken for the
function. -/
def dispatchTransfers (found : ℤ) (copies : List GraphHostCopy) : Option (List GraphHostCopy) :=
  if found = copies.length then some copies else none

/-! ## Graphs

Nodes go by their handles, and the dependencies are pairs of these. A host node has resources, or
none when its parameters were set again. -/

/-- A node, as far as it reaches the client; a host node has its `lupine_host_callback_data`. -/
inductive NodeKind where
  | memcpy (dtoh : Option GraphHostCopy)
  | host (resources : Option ResourcesPtr)
  deriving DecidableEq, Repr

/-- The nodes of a graph and the dependencies between them. -/
structure HostGraph where
  nodes : AList (fun _ : CUgraphNode ↦ NodeKind) := ∅
  edges : List (CUgraphNode × CUgraphNode) := []

namespace HostGraph

variable (g : HostGraph)

/-- One node is ordered before another. -/
def Before : CUgraphNode → CUgraphNode → Prop := Relation.TransGen fun a b ↦ (a, b) ∈ g.edges

/-- A node is a copy to the host. -/
def Copies (node : CUgraphNode) (copy : GraphHostCopy) : Prop :=
  g.nodes.lookup node = some (.memcpy (some copy))

instance (node : CUgraphNode) (copy : GraphHostCopy) : Decidable (g.Copies node copy) :=
  inferInstanceAs (Decidable (_ = _))

def add (node : CUgraphNode) (kind : NodeKind) (deps : List CUgraphNode) : HostGraph where
  nodes := g.nodes.insert node kind
  edges := g.edges ++ deps.map fun dep ↦ (dep, node)

def setHost (node : CUgraphNode) : HostGraph := { g with nodes := g.nodes.insert node (.host none) }

/-- Every node that a node depends on directly is in a list. -/
def ready (ran : List CUgraphNode) (node : CUgraphNode) : Bool :=
  g.edges.all fun edge ↦ edge.2 ≠ node || edge.1 ∈ ran

end HostGraph

abbrev HostGraphs := AList fun _ : ℕ ↦ HostGraph

/-! ## Steps

A launch runs its nodes in any order that their dependencies allow. A host node that runs is noted
with what its message has written. -/

/-- A launch: its nodes, those that have run, and the copies of it that are in client memory. -/
structure HostLaunch where
  graph : HostGraph
  ran : List CUgraphNode := []
  written : List CUgraphNode := []

/-- A host function was run: the copies that its message has written, and the nodes whose copies
are in client memory by then. -/
structure HostFunctionCall where
  graph : HostGraph
  node : CUgraphNode
  published : List GraphHostCopy
  written : List CUgraphNode

/-- The server, CUDA's graphs and executable graphs, the launches and the functions run. -/
structure HostNodeState where
  server : GraphServer := {}
  graphs : HostGraphs := ∅
  execs : HostGraphs := ∅
  launches : List HostLaunch := []
  calls : List HostFunctionCall := []

/-- A request with the result of the CUDA call that serves it, or a node that the device runs. -/
inductive HostNodeStep where
  | graphCreate (graph : CUgraph)
  | addMemcpyNode (graph : CUgraph) (node : CUgraphNode) (deps : List CUgraphNode)
      (dst : Option GraphHostCopy) (result : CUresult)
  | addHostNode (graph : CUgraph) (node : CUgraphNode) (deps : List CUgraphNode)
      (result : CUresult)
  | addDependencies (graph : CUgraph) (edges : List (CUgraphNode × CUgraphNode)) (result : CUresult)
  | hostNodeSetParams (graph : CUgraph) (node : CUgraphNode) (result : CUresult)
  | execHostNodeSetParams (exec : CUgraphExec) (node : CUgraphNode) (result : CUresult)
  | instantiate (exec : CUgraphExec) (graph : CUgraph) (result : CUresult)
  | launch (exec : CUgraphExec) (result : CUresult)
  | runNode (launch : ℕ) (node : CUgraphNode)
  deriving DecidableEq, Repr

/-- A graph changes, if CUDA made the change. A graph that does not exist cannot. -/
def HostNodeState.setGraph (st : HostNodeState) (graph : CUgraph) (result : CUresult)
    (ok : HostGraph → Bool) (change : HostGraph → HostGraph) : Option HostNodeState :=
  if result = .success then
    ((st.graphs.lookup graph).filter ok).map fun g ↦
      { st with graphs := st.graphs.insert graph (change g) }
  else some st

def HostNodeState.callHost (st : HostNodeState) (launch : HostLaunch) (node : CUgraphNode)
    (resources : Option ResourcesPtr) : List CUgraphNode × List HostFunctionCall :=
  let copies := resources.elim [] st.server.heap.snapshot
  match dispatchTransfers (transferCount copies) copies with
  | some published =>
    let written := launch.written ++ launch.ran.filter fun other ↦
      ∃ copy ∈ published, launch.graph.Copies other copy
    (written, ⟨launch.graph, node, published, written⟩ :: st.calls)
  | none => (launch.written, st.calls)

def hostNodeStep (st : HostNodeState) : HostNodeStep → Option HostNodeState
  | .graphCreate graph =>
    if (st.graphs.lookup graph).isSome then none
    else some { st with graphs := st.graphs.insert graph {} }
  | .addMemcpyNode graph node deps dst result =>
    { st with server := st.server.graphAddMemcpyNode graph dst }.setGraph graph result
      (fun g ↦ (g.nodes.lookup node).isNone && deps.all fun dep ↦ (g.nodes.lookup dep).isSome)
      (·.add node (.memcpy dst) deps)
  | .addHostNode graph node deps result =>
    let found := st.server.getGraphResources graph
    { st with server := found.2 }.setGraph graph result
      (fun g ↦ (g.nodes.lookup node).isNone && deps.all fun dep ↦ (g.nodes.lookup dep).isSome)
      (·.add node (.host (some found.1)) deps)
  | .addDependencies graph edges result =>
    st.setGraph graph result
      (fun g ↦ edges.all fun edge ↦
        (g.nodes.lookup edge.1).isSome && (g.nodes.lookup edge.2).isSome)
      fun g ↦ { g with edges := g.edges ++ edges }
  | .hostNodeSetParams graph node result =>
    st.setGraph graph result (fun g ↦ (g.nodes.lookup node).any (· matches .host _))
      (·.setHost node)
  | .execHostNodeSetParams exec node result =>
    if result = .success then
      ((st.execs.lookup exec).filter fun g ↦ (g.nodes.lookup node).any (· matches .host _)).map
        fun g ↦ { st with execs := st.execs.insert exec (g.setHost node) }
    else some st
  | .instantiate exec graph result =>
    if result = .success then
      (st.graphs.lookup graph).map fun g ↦ { st with
        server := st.server.graphInstantiateWithFlags exec graph result
        execs := st.execs.insert exec g }
    else some st
  | .launch exec result =>
    if result = .success then
      (st.execs.lookup exec).map fun g ↦ { st with launches := st.launches ++ [{ graph := g }] }
    else some st
  | .runNode i node =>
    match st.launches[i]? with
    | none => none
    | some launch =>
      match launch.graph.nodes.lookup node with
      | none => none
      | some kind =>
        if node ∉ launch.ran ∧ launch.graph.ready launch.ran node then
          match kind with
          | .memcpy _ => some { st with
              launches := st.launches.set i { launch with ran := node :: launch.ran } }
          | .host resources =>
            let called := st.callHost launch node resources
            some { st with
              launches := st.launches.set i
                { launch with ran := node :: launch.ran, written := called.1 }
              calls := called.2 }
        else none

def hostNodeMachine : Machine HostNodeState HostNodeStep := ⟨hostNodeStep⟩

/-! ## What is promised

A graph is in order when each of its host nodes publishes what comes before it and nothing else, or
leaves that to host nodes in between. -/

/-- When a function ran, every copy ordered before it was in client memory, and its message has
written no other. -/
structure HostFunctionCall.Ordered (call : HostFunctionCall) : Prop where
  complete : ∀ node copy, call.graph.Copies node copy → call.graph.Before node call.node →
    node ∈ call.written
  only : ∀ copy ∈ call.published, ∃ node, call.graph.Copies node copy ∧
    call.graph.Before node call.node

/-- A host node publishes only what is ordered before it, and the count of it fits its field. -/
structure PublishesBefore (heap : ResourceHeap) (g : HostGraph) (node : CUgraphNode)
    (resources : ResourcesPtr) : Prop where
  before : ∀ copy ∈ heap.snapshot resources, ∃ other, g.Copies other copy ∧ g.Before other node
  count : (heap.snapshot resources).length < 2 ^ 31

/-- Each host node of a graph is in order: one that publishes copies only those before it, and one
that does not has another between each copy and itself that does. -/
structure HostGraph.InOrder (heap : ResourceHeap) (g : HostGraph) : Prop where
  publishes : ∀ node r, g.nodes.lookup node = some (.host (some r)) → PublishesBefore heap g node r
  between : ∀ node, g.nodes.lookup node = some (.host none) →
    ∀ other copy, g.Copies other copy → g.Before other node →
      ∃ earlier r, g.nodes.lookup earlier = some (.host (some r)) ∧ g.Before other earlier ∧
        g.Before earlier node

/-- The launched graph is in order; and no copy is added to resources that a host node of a launch
still has to publish. -/
def KeepsHostOrder (st : HostNodeState) : HostNodeStep → Prop
  | .launch exec _ => ∀ g, st.execs.lookup exec = some g → g.InOrder st.server.heap
  | .addMemcpyNode graph _ _ dst _ => dst ≠ none →
    ∀ r, st.server.graphResources.lookup graph = some r → ∀ launch ∈ st.launches,
      ∀ node, launch.graph.nodes.lookup node = some (.host (some r)) → node ∈ launch.ran
  | _ => True

noncomputable instance KeepsHostOrder.decidable (st : HostNodeState) (step : HostNodeStep) :
    Decidable (KeepsHostOrder st step) := Classical.dec _

/-! ## What the resources list

A request gives a graph resources, or adds a copy to those it has. The resources that were there
keep what they list. -/

variable {heap heap' : ResourceHeap} {g : HostGraph} {node other : CUgraphNode} {r : ResourcesPtr}
variable {copy : GraphHostCopy} {st : HostNodeState} {graph : CUgraph}

/-- Resources that were handed out keep their copies. -/
structure Grows (heap heap' : ResourceHeap) : Prop where
  next : heap.next ≤ heap'.next
  snapshot : ∀ r < heap.next, ∀ copy ∈ heap.snapshot r, copy ∈ heap'.snapshot r

/-- The resources of a host node list every copy of its graph. -/
structure HostGraph.Listed (heap : ResourceHeap) (g : HostGraph) : Prop where
  below : ∀ node r, g.nodes.lookup node = some (.host (some r)) → r < heap.next
  listed : ∀ node r, g.nodes.lookup node = some (.host (some r)) →
    ∀ other copy, g.Copies other copy → copy ∈ heap.snapshot r

theorem HostGraph.Listed.grow (h : g.Listed heap) (hgrows : Grows heap heap') : g.Listed heap' where
  below node r hnode := Nat.lt_of_lt_of_le (h.below node r hnode) hgrows.next
  listed node r hnode other copy hcopy :=
    hgrows.snapshot r (h.below node r hnode) copy (h.listed node r hnode other copy hcopy)

/-- What the server knows of a graph: its host nodes have the resources of the graph, and these list
its copies. -/
structure GraphListed (server : GraphServer) (graph : CUgraph) (g : HostGraph) : Prop where
  resources : ∀ node r, g.nodes.lookup node = some (.host (some r)) →
    server.graphResources.lookup graph = some r
  copies : ∀ node copy, g.Copies node copy →
    ∃ r, server.graphResources.lookup graph = some r ∧ copy ∈ server.heap.snapshot r

theorem GraphListed.listed {server : GraphServer} (h : GraphListed server graph g)
    (hbelow : server.graphResources.Below server.heap.next) : g.Listed server.heap where
  below node r hnode := hbelow.lt (h.resources node r hnode)
  listed node r hnode other copy hcopy := by
    obtain ⟨r', hr', hlisted⟩ := h.copies other copy hcopy
    rwa [← Option.some_inj.mp (hr'.symm.trans (h.resources node r hnode))]

/-- What a request changes in the server: a graph gets resources, and these may get a copy. -/
structure ServerGrows (server server' : GraphServer) : Prop where
  heap : Grows server.heap server'.heap
  below : server'.graphResources.Below server'.heap.next
  lookup : ∀ graph r, server.graphResources.lookup graph = some r →
    server'.graphResources.lookup graph = some r

theorem GraphListed.grow {server server' : GraphServer} (h : GraphListed server graph g)
    (hbelow : server.graphResources.Below server.heap.next) (hgrows : ServerGrows server server') :
    GraphListed server' graph g where
  resources node r hnode := hgrows.lookup graph r (h.resources node r hnode)
  copies node copy hcopy := by
    obtain ⟨r, hr, hlisted⟩ := h.copies node copy hcopy
    exact ⟨r, hgrows.lookup graph r hr, hgrows.heap.snapshot r (hbelow.lt hr) copy hlisted⟩

theorem serverGrows_getGraphResources {server : GraphServer}
    (hbelow : server.graphResources.Below server.heap.next) (graph : CUgraph) :
    ServerGrows server (server.getGraphResources graph).2 := by
  rw [GraphServer.getGraphResources]
  cases hr : server.graphResources.lookup graph with
  | some r =>
    rw [PointerTable.upsert_of_some hr]
    exact ⟨⟨le_rfl, fun _ _ _ hcopy ↦ hcopy⟩, hbelow, fun _ _ hlookup ↦ hlookup⟩
  | none =>
    rw [PointerTable.upsert_of_none hr]
    refine ⟨⟨Nat.le_succ _, fun r hlt copy hcopy ↦ ?_⟩, hbelow.insert_alloc _,
      fun other r hlookup ↦ ?_⟩
    · rwa [ResourceHeap.snapshot_alloc_of_lt hlt]
    · refine (AList.lookup_insert_ne ?_).trans hlookup
      rintro rfl
      exact absurd (hr.symm.trans hlookup) (Option.some_ne_none r).symm

/-- The resources that were there keep what they list when a graph gets some. -/
theorem snapshot_getGraphResources {server : GraphServer} (graph : CUgraph)
    (hr : r < server.heap.next) :
    (server.getGraphResources graph).2.heap.snapshot r = server.heap.snapshot r := by
  rw [GraphServer.getGraphResources]
  cases hlookup : server.graphResources.lookup graph with
  | some r => rw [PointerTable.upsert_of_some hlookup]
  | none =>
    rw [PointerTable.upsert_of_none hlookup]
    exact ResourceHeap.snapshot_alloc_of_lt hr

theorem Grows.addDtohCopy (hgrows : Grows heap heap') :
    Grows heap (heap'.modify r (GraphResources.addDtohCopy copy)) where
  next := hgrows.next
  snapshot q hq other hother := by
    have hold := hgrows.snapshot q hq other hother
    by_cases heq : q = r
    · rw [heq, ResourceHeap.snapshot_addDtohCopy_self]
      exact List.mem_append_left _ (heq ▸ hold)
    · rwa [ResourceHeap.snapshot_addDtohCopy_of_ne heq]

theorem serverGrows_graphAddMemcpyNode {server : GraphServer}
    (hbelow : server.graphResources.Below server.heap.next) (graph : CUgraph)
    (dst : Option GraphHostCopy) :
    ServerGrows server (server.graphAddMemcpyNode graph dst) ∧ ∀ copy, dst = some copy →
      ∃ r, (server.graphAddMemcpyNode graph dst).graphResources.lookup graph = some r ∧
        copy ∈ (server.graphAddMemcpyNode graph dst).heap.snapshot r := by
  have hgrows := serverGrows_getGraphResources hbelow graph
  cases dst with
  | none => exact ⟨hgrows, fun _ ↦ nofun⟩
  | some copy =>
    refine ⟨⟨hgrows.heap.addDtohCopy, hgrows.below, hgrows.lookup⟩, ?_⟩
    rintro _ ⟨⟩
    refine ⟨_, GraphServer.lookup_getGraphResources server graph, ?_⟩
    rw [GraphServer.graphAddMemcpyNode, ResourceHeap.snapshot_addDtohCopy_self]
    exact List.mem_append_right _ (List.mem_singleton_self copy)

/-! ## Launches

A node is ready when all it depends on directly has run, so whatever is ordered before it has
run. -/

structure LaunchOrdered (heap : ResourceHeap) (launch : HostLaunch) : Prop where
  listed : launch.graph.Listed heap
  closed : ∀ edge ∈ launch.graph.edges, edge.2 ∈ launch.ran → edge.1 ∈ launch.ran
  /-- What a host node will publish is ordered before it. -/
  publishes : ∀ node r, launch.graph.nodes.lookup node = some (.host (some r)) →
    node ∉ launch.ran → PublishesBefore heap launch.graph node r
  between : ∀ node, launch.graph.nodes.lookup node = some (.host none) →
    ∀ other copy, launch.graph.Copies other copy → launch.graph.Before other node →
      ∃ earlier r, launch.graph.nodes.lookup earlier = some (.host (some r)) ∧
        launch.graph.Before other earlier ∧ launch.graph.Before earlier node
  /-- What is ordered before a host node that has published is in client memory. -/
  written : ∀ node r, launch.graph.nodes.lookup node = some (.host (some r)) →
    node ∈ launch.ran → ∀ other copy, launch.graph.Copies other copy →
      launch.graph.Before other node → other ∈ launch.written

namespace LaunchOrdered

variable {launch : HostLaunch}

theorem init (hlisted : g.Listed heap) (h : g.InOrder heap) :
    LaunchOrdered heap { graph := g } where
  listed := hlisted
  closed _ _ hran := (List.not_mem_nil hran).elim
  publishes node r hnode _ := h.publishes node r hnode
  between := h.between
  written _ _ _ hran := (List.not_mem_nil hran).elim

theorem grow (h : LaunchOrdered heap launch) (hgrows : Grows heap heap')
    (hkept : ∀ node r, launch.graph.nodes.lookup node = some (.host (some r)) →
      node ∉ launch.ran → heap'.snapshot r = heap.snapshot r) : LaunchOrdered heap' launch where
  listed := h.listed.grow hgrows
  closed := h.closed
  publishes node r hnode hran := by
    obtain ⟨hbefore, hcount⟩ := h.publishes node r hnode hran
    rw [← hkept node r hnode hran] at hbefore hcount
    exact ⟨hbefore, hcount⟩
  between := h.between
  written := h.written

/-- Whatever is ordered before a node that can run has run. -/
theorem ran_of_before (h : LaunchOrdered heap launch)
    (hready : launch.graph.ready launch.ran node = true)
    (hbefore : launch.graph.Before other node) : other ∈ launch.ran := by
  rw [HostGraph.ready, List.all_eq_true] at hready
  obtain ⟨last, hpath, hlast⟩ := Relation.TransGen.tail'_iff.mp hbefore
  have hran : last ∈ launch.ran := by
    have hedge := hready _ hlast
    simpa using hedge
  clear hbefore
  induction hpath using Relation.ReflTransGen.head_induction_on with
  | refl => exact hran
  | head hedge _ ih => exact h.closed _ hedge ih

theorem callHost_of_count (launch : HostLaunch) (node : CUgraphNode)
    (resources : Option ResourcesPtr)
    (hcount : (resources.elim [] st.server.heap.snapshot).length < 2 ^ 31) :
    ∃ written, st.callHost launch node resources = (written, ⟨launch.graph, node,
        resources.elim [] st.server.heap.snapshot, written⟩ :: st.calls) ∧
      ∀ other, other ∈ written ↔ other ∈ launch.written ∨ other ∈ launch.ran ∧
        ∃ copy ∈ resources.elim [] st.server.heap.snapshot, launch.graph.Copies other copy := by
  have hfound : dispatchTransfers (transferCount (resources.elim [] st.server.heap.snapshot))
      (resources.elim [] st.server.heap.snapshot) =
        some (resources.elim [] st.server.heap.snapshot) := by
    refine if_pos ?_
    rw [transferCount, BitVec.toInt_ofNat', Int.bmod_eq_of_le (by omega) (by omega)]
  refine ⟨launch.written ++ launch.ran.filter fun other ↦
    ∃ copy ∈ resources.elim [] st.server.heap.snapshot, launch.graph.Copies other copy,
    ?_, fun other ↦ ?_⟩
  · rw [HostNodeState.callHost, hfound]
  · rw [List.mem_append, List.mem_filter, decide_eq_true_iff]

/-- **A host node** runs its function when what comes before it has been written, and nothing
else. -/
theorem callHost (h : LaunchOrdered st.server.heap launch) {resources : Option ResourcesPtr}
    (hnode : launch.graph.nodes.lookup node = some (.host resources)) (hran : node ∉ launch.ran)
    (hready : launch.graph.ready launch.ran node = true) :
    ∃ written published, st.callHost launch node resources =
        (written, ⟨launch.graph, node, published, written⟩ :: st.calls) ∧
      HostFunctionCall.Ordered ⟨launch.graph, node, published, written⟩ ∧
      ∀ other ∈ launch.written, other ∈ written := by
  cases resources with
  | some r =>
    obtain ⟨hbefore, hcount⟩ := h.publishes node r hnode hran
    obtain ⟨written, hcalled, hmem⟩ := callHost_of_count launch node (some r) hcount
    refine ⟨written, _, hcalled, ⟨fun other copy hcopy hother ↦ ?_, hbefore⟩,
      fun other hother ↦ (hmem other).mpr (Or.inl hother)⟩
    exact (hmem other).mpr (Or.inr ⟨h.ran_of_before hready hother, copy,
      h.listed.listed node r hnode other copy hcopy, hcopy⟩)
  | none =>
    obtain ⟨written, hcalled, hmem⟩ := callHost_of_count launch node none (Nat.two_pow_pos 31)
    refine ⟨written, _, hcalled, ⟨fun other copy hcopy hother ↦ ?_, nofun⟩,
      fun other hother ↦ (hmem other).mpr (Or.inl hother)⟩
    -- a host node between the copy and this one has written it
    obtain ⟨earlier, r, hearlier, hcopied, hbetween⟩ := h.between node hnode other copy hcopy hother
    exact (hmem other).mpr (Or.inl (h.written earlier r hearlier (h.ran_of_before hready hbetween)
      other copy hcopy hcopied))

theorem ran (h : LaunchOrdered heap launch) {written : List CUgraphNode}
    (hready : launch.graph.ready launch.ran node = true)
    (hkept : ∀ other ∈ launch.written, other ∈ written)
    (hwritten : ∀ r, launch.graph.nodes.lookup node = some (.host (some r)) →
      ∀ other copy, launch.graph.Copies other copy → launch.graph.Before other node →
        other ∈ written) :
    LaunchOrdered heap { launch with ran := node :: launch.ran, written := written } where
  listed := h.listed
  closed edge hedge hran := by
    refine List.mem_cons_of_mem _ ?_
    rcases List.mem_cons.mp hran with heq | hran
    · rw [HostGraph.ready, List.all_eq_true] at hready
      have hready := hready edge hedge
      simpa [heq] using hready
    · exact h.closed edge hedge hran
  publishes other r hother hran :=
    h.publishes other r hother fun hold ↦ hran (List.mem_cons_of_mem _ hold)
  between := h.between
  written other r hother hran before copy hcopy hbefore := by
    rcases List.mem_cons.mp hran with rfl | hran
    · exact hwritten r hother before copy hcopy hbefore
    · exact hkept before (h.written other r hother hran before copy hcopy hbefore)

end LaunchOrdered

/-! ## Runs

The resources of the server grow, graphs change, and a launch goes on by one node; each is a
lemma. -/

structure HostNodeInv (st : HostNodeState) : Prop where
  below : st.server.graphResources.Below st.server.heap.next
  graphs : ∀ graph g, st.graphs.lookup graph = some g → GraphListed st.server graph g
  execs : ∀ exec g, st.execs.lookup exec = some g → g.Listed st.server.heap
  launches : ∀ launch ∈ st.launches, LaunchOrdered st.server.heap launch
  calls : ∀ call ∈ st.calls, call.Ordered

theorem hostNodeInv_init : HostNodeInv {} where
  below _ _ h := nomatch h
  graphs _ _ h := nomatch h
  execs _ _ h := nomatch h
  launches _ h := (List.not_mem_nil h).elim
  calls _ h := (List.not_mem_nil h).elim

namespace HostNodeInv

variable {server : GraphServer} {result : CUresult} {ok : HostGraph → Bool}
variable {change : HostGraph → HostGraph} {st' : HostNodeState}

theorem server_grows (h : HostNodeInv st) (hgrows : ServerGrows st.server server)
    (hkept : ∀ launch ∈ st.launches, ∀ node r,
      launch.graph.nodes.lookup node = some (.host (some r)) → node ∉ launch.ran →
        server.heap.snapshot r = st.server.heap.snapshot r) :
    HostNodeInv { st with server := server } where
  below := hgrows.below
  graphs graph g hg := (h.graphs graph g hg).grow h.below hgrows
  execs exec g hg := (h.execs exec g hg).grow hgrows.heap
  launches launch hlaunch := (h.launches launch hlaunch).grow hgrows.heap (hkept launch hlaunch)
  calls := h.calls

theorem setGraph (h : HostNodeInv st) (hstep : st.setGraph graph result ok change = some st')
    (hchange : ∀ g, st.graphs.lookup graph = some g → ok g = true →
      GraphListed st.server graph (change g)) : HostNodeInv st' := by
  rw [HostNodeState.setGraph] at hstep
  split_ifs at hstep
  · obtain ⟨g, hg, rfl⟩ := Option.map_eq_some_iff.mp hstep
    obtain ⟨hlookup, hok⟩ := Option.filter_eq_some_iff.mp hg
    refine ⟨h.below, fun other g' hg' ↦ ?_, h.execs, h.launches, h.calls⟩
    rcases lookup_insert_eq_some.mp hg' with ⟨rfl, rfl⟩ | ⟨-, hg'⟩
    · exact hchange g hlookup hok
    · exact h.graphs other g' hg'
  · exact Option.some_inj.mp hstep ▸ h

theorem addMemcpyNode (h : HostNodeInv st) {deps : List CUgraphNode} {dst : Option GraphHostCopy}
    (hcondition : KeepsHostOrder st (.addMemcpyNode graph node deps dst result))
    (hstep : hostNodeStep st (.addMemcpyNode graph node deps dst result) = some st') :
    HostNodeInv st' := by
  obtain ⟨hgrows, hlisted⟩ := serverGrows_graphAddMemcpyNode h.below graph dst
  refine (h.server_grows hgrows fun launch hlaunch other r hother hran ↦ ?_).setGraph hstep
    fun g hg _ ↦ ?_
  · have hlt := (h.launches launch hlaunch).listed.below other r hother
    cases dst with
    | none => exact snapshot_getGraphResources graph hlt
    | some copy =>
      refine (ResourceHeap.snapshot_addDtohCopy_of_ne ?_ copy).trans
        (snapshot_getGraphResources graph hlt)
      rintro rfl
      cases hr : st.server.graphResources.lookup graph with
      | some r =>
        rw [GraphServer.getGraphResources, PointerTable.upsert_of_some hr] at hother
        exact hran (hcondition (Option.some_ne_none copy) r hr launch hlaunch other hother)
      | none =>
        rw [GraphServer.getGraphResources, PointerTable.upsert_of_none hr] at hlt
        exact Nat.lt_irrefl _ hlt
  · have hold := (h.graphs graph g hg).grow h.below hgrows
    constructor
    · intro other r hother
      rcases lookup_insert_eq_some.mp hother with ⟨-, hkind⟩ | ⟨-, hother⟩
      · contradiction
      · exact hold.resources other r hother
    · intro other copy hcopy
      rcases lookup_insert_eq_some.mp hcopy with ⟨-, hkind⟩ | ⟨-, hcopy⟩
      · exact hlisted copy (NodeKind.memcpy.inj hkind)
      · exact hold.copies other copy hcopy

theorem addHostNode (h : HostNodeInv st) {deps : List CUgraphNode}
    (hstep : hostNodeStep st (.addHostNode graph node deps result) = some st') :
    HostNodeInv st' := by
  have hgrows := serverGrows_getGraphResources h.below graph
  refine (h.server_grows hgrows fun launch hlaunch other r hother _ ↦ ?_).setGraph hstep
    fun g hg _ ↦ ?_
  · exact snapshot_getGraphResources graph ((h.launches launch hlaunch).listed.below other r hother)
  · have hold := (h.graphs graph g hg).grow h.below hgrows
    constructor
    · intro other r hother
      rcases lookup_insert_eq_some.mp hother with ⟨-, hkind⟩ | ⟨-, hother⟩
      · rw [← Option.some_inj.mp (NodeKind.host.inj hkind)]
        exact GraphServer.lookup_getGraphResources st.server graph
      · exact hold.resources other r hother
    · intro other copy hcopy
      rcases lookup_insert_eq_some.mp hcopy with ⟨-, hkind⟩ | ⟨-, hcopy⟩
      · exact nomatch hkind
      · exact hold.copies other copy hcopy

theorem runNode (h : HostNodeInv st) {i : ℕ}
    (hstep : hostNodeStep st (.runNode i node) = some st') : HostNodeInv st' := by
  rw [hostNodeStep] at hstep
  split at hstep
  · exact nomatch hstep
  rename_i launch hlaunch
  split at hstep
  · exact nomatch hstep
  rename_i kind hkind
  split_ifs at hstep with hrun
  obtain ⟨hran, hready⟩ := hrun
  have hordered := h.launches launch (List.mem_of_getElem? hlaunch)
  cases kind with
  | memcpy dst =>
    obtain rfl := Option.some_inj.mp hstep
    refine ⟨h.below, h.graphs, h.execs, fun other hother ↦ ?_, h.calls⟩
    rcases List.mem_or_eq_of_mem_set hother with hother | rfl
    · exact h.launches other hother
    · exact hordered.ran hready (fun _ hwritten ↦ hwritten) fun r hhost ↦
        nomatch hkind.symm.trans hhost
  | host resources =>
    obtain ⟨written, published, hcalled, hcall, hkept⟩ := hordered.callHost hkind hran hready
    simp only [hcalled, Option.some.injEq] at hstep
    subst hstep
    refine ⟨h.below, h.graphs, h.execs, fun other hother ↦ ?_, fun call hmem ↦ ?_⟩
    · rcases List.mem_or_eq_of_mem_set hother with hother | rfl
      · exact h.launches other hother
      · exact hordered.ran hready hkept fun _ _ ↦ hcall.complete
    · rcases List.mem_cons.mp hmem with rfl | hmem
      · exact hcall
      · exact h.calls call hmem

end HostNodeInv

/-- What remains of a graph when the parameters of a host node are set. -/
theorem lookup_setHost_eq_some {kind : NodeKind}
    (h : (g.setHost node).nodes.lookup other = some kind) :
    kind = .host none ∨ g.nodes.lookup other = some kind := by
  rcases lookup_insert_eq_some.mp h with ⟨-, rfl⟩ | ⟨-, hother⟩
  · exact Or.inl rfl
  · exact Or.inr hother

theorem GraphListed.setHost {server : GraphServer} (h : GraphListed server graph g) :
    GraphListed server graph (g.setHost node) where
  resources other r hother := by
    rcases lookup_setHost_eq_some hother with hkind | hother
    · exact nomatch hkind
    · exact h.resources other r hother
  copies other copy hcopy := by
    rcases lookup_setHost_eq_some hcopy with hkind | hcopy
    · exact nomatch hkind
    · exact h.copies other copy hcopy

theorem HostGraph.Listed.setHost (h : g.Listed heap) : (g.setHost node).Listed heap where
  below other r hother := by
    rcases lookup_setHost_eq_some hother with hkind | hother
    · exact nomatch hkind
    · exact h.below other r hother
  listed other r hother before copy hcopy := by
    rcases lookup_setHost_eq_some hother with hkind | hother
    · exact nomatch hkind
    rcases lookup_setHost_eq_some hcopy with hkind | hcopy
    · exact nomatch hkind
    · exact h.listed other r hother before copy hcopy

/-- **One step.** -/
theorem HostNodeInv.step {st' : HostNodeState} (h : HostNodeInv st) {step : HostNodeStep}
    (hcondition : KeepsHostOrder st step) (hstep : hostNodeStep st step = some st') :
    HostNodeInv st' := by
  cases step with
  | graphCreate graph =>
    rw [hostNodeStep] at hstep
    split_ifs at hstep
    obtain rfl := Option.some_inj.mp hstep
    refine ⟨h.below, fun other g hg ↦ ?_, h.execs, h.launches, h.calls⟩
    rcases lookup_insert_eq_some.mp hg with ⟨-, rfl⟩ | ⟨-, hg⟩
    · exact ⟨fun _ _ hnode ↦ (nomatch hnode), fun _ _ hcopy ↦ (nomatch hcopy)⟩
    · exact h.graphs other g hg
  | addMemcpyNode graph node deps dst result => exact h.addMemcpyNode hcondition hstep
  | addHostNode graph node deps result => exact h.addHostNode hstep
  | addDependencies graph edges result =>
    refine h.setGraph hstep fun g hg _ ↦ ?_
    exact ⟨(h.graphs graph g hg).resources, (h.graphs graph g hg).copies⟩
  | hostNodeSetParams graph node result =>
    exact h.setGraph hstep fun g hg _ ↦ (h.graphs graph g hg).setHost
  | execHostNodeSetParams exec node result =>
    rw [hostNodeStep] at hstep
    split_ifs at hstep
    · obtain ⟨g, hg, rfl⟩ := Option.map_eq_some_iff.mp hstep
      refine ⟨h.below, h.graphs, fun other g' hg' ↦ ?_, h.launches, h.calls⟩
      rcases lookup_insert_eq_some.mp hg' with ⟨-, rfl⟩ | ⟨-, hg'⟩
      · exact (h.execs exec g (Option.filter_eq_some_iff.mp hg).1).setHost
      · exact h.execs other g' hg'
    · exact Option.some_inj.mp hstep ▸ h
  | instantiate exec graph result =>
    rw [hostNodeStep] at hstep
    split_ifs at hstep with hresult
    · obtain ⟨g, hg, rfl⟩ := Option.map_eq_some_iff.mp hstep
      -- the graph and what is made of it share their resources, and the heap stays
      have hserver : ServerGrows st.server
          (st.server.graphInstantiateWithFlags exec graph result) := by
        rw [GraphServer.graphInstantiateWithFlags, if_pos hresult, GraphServer.shareWithExec]
        split
        · exact ⟨⟨le_rfl, fun _ _ _ hcopy ↦ hcopy⟩, h.below, fun _ _ hlookup ↦ hlookup⟩
        · exact ⟨⟨le_rfl, fun _ _ _ hcopy ↦ hcopy⟩, h.below, fun _ _ hlookup ↦ hlookup⟩
      have hheap : (st.server.graphInstantiateWithFlags exec graph result).heap =
          st.server.heap := by
        rw [GraphServer.graphInstantiateWithFlags, if_pos hresult, GraphServer.shareWithExec]
        split
        · rfl
        · rfl
      have hgrown := h.server_grows hserver fun _ _ _ _ _ _ ↦ by rw [hheap]
      refine ⟨hgrown.below, hgrown.graphs, fun other g' hg' ↦ ?_, hgrown.launches, hgrown.calls⟩
      rcases lookup_insert_eq_some.mp hg' with ⟨-, rfl⟩ | ⟨-, hg'⟩
      · exact (hgrown.graphs graph g hg).listed hgrown.below
      · exact hgrown.execs other g' hg'
    · exact Option.some_inj.mp hstep ▸ h
  | launch exec result =>
    rw [hostNodeStep] at hstep
    split_ifs at hstep
    · obtain ⟨g, hg, rfl⟩ := Option.map_eq_some_iff.mp hstep
      refine ⟨h.below, h.graphs, h.execs, fun launch hlaunch ↦ ?_, h.calls⟩
      rcases List.mem_append.mp hlaunch with hlaunch | hlaunch
      · exact h.launches launch hlaunch
      · rw [List.mem_singleton.mp hlaunch]
        -- the condition on the step is used here: each copy is behind the host nodes that need it
        exact .init (h.execs exec g hg) (hcondition g hg)
    · exact Option.some_inj.mp hstep ▸ h
  | runNode i node => exact h.runNode hstep

/-- **Host functions.** Where every graph that is launched is in order, and nothing is added to what
a launch still has to publish, each host function finds the copies that come before it written, and
no other was written for it. -/
theorem hostFunctions_ordered (steps : List HostNodeStep) {st : HostNodeState}
    (hrun : (hostNodeMachine.restrict KeepsHostOrder).run {} steps = some st) :
    ∀ call ∈ st.calls, call.Ordered := by
  have hstep (s : HostNodeState) (step : HostNodeStep) (s' : HostNodeState) (hinv : HostNodeInv s)
      (hs' : (hostNodeMachine.restrict KeepsHostOrder).step s step = some s') :
      HostNodeInv s' := by
    obtain ⟨hcondition, hs'⟩ := Machine.step_restrict.mp hs'
    exact hinv.step hcondition hs'
  exact (Machine.run_invariant _ hstep hostNodeInv_init hrun).calls

/-! ## Examples -/

def copyToHost : GraphHostCopy := ⟨0x7000, 0x100, 4⟩

def copyThenHost : HostGraph :=
  (({} : HostGraph).add 10 (.memcpy (some copyToHost)) []).add 20 (.host (some 1)) [10]

theorem inOrder_copyThenHost {heap : ResourceHeap} (hheap : heap.snapshot 1 = [copyToHost]) :
    copyThenHost.InOrder heap where
  publishes node r hnode := by
    rcases lookup_insert_eq_some.mp hnode with ⟨rfl, hkind⟩ | ⟨-, hnode⟩
    · obtain rfl := Option.some_inj.mp (NodeKind.host.inj hkind)
      refine ⟨fun copy hcopy ↦ ⟨10, ?_, .single (by decide)⟩, hheap ▸ by decide⟩
      rw [hheap, List.mem_singleton] at hcopy
      rw [hcopy]
      exact rfl
    · rcases lookup_insert_eq_some.mp hnode with ⟨-, hkind⟩ | ⟨-, hnode⟩
      · exact nomatch hkind
      · exact nomatch hnode
  between node hnode := by
    rcases lookup_insert_eq_some.mp hnode with ⟨-, hkind⟩ | ⟨-, hnode⟩
    · exact nomatch hkind
    · rcases lookup_insert_eq_some.mp hnode with ⟨-, hkind⟩ | ⟨-, hnode⟩
      · exact nomatch hkind
      · exact nomatch hnode

/-- The graph is built, instantiated, launched and run. -/
def copyThenHostSteps : List HostNodeStep :=
  [.graphCreate 1, .addMemcpyNode 1 10 [] (some copyToHost) .success,
    .addHostNode 1 20 [10] .success, .instantiate 5 1 .success, .launch 5 .success,
    .runNode 0 10, .runNode 0 20]

theorem hostFunctions_ordered_copyThenHost :
    ∃ st, hostNodeMachine.run {} copyThenHostSteps = some st ∧ st.calls.length = 1 ∧
      ∀ call ∈ st.calls, call.Ordered := by
  refine ⟨_, rfl, by decide, hostFunctions_ordered copyThenHostSteps ?_⟩
  refine Machine.run_restrict_cons trivial rfl (Machine.run_restrict_cons ?_ rfl
    (Machine.run_restrict_cons trivial rfl (Machine.run_restrict_cons trivial rfl
      (Machine.run_restrict_cons ?_ rfl (Machine.run_restrict_cons trivial rfl
        (Machine.run_restrict_cons trivial rfl rfl))))))
  · exact fun _ _ hr ↦ nomatch hr
  · intro g hg
    obtain rfl := Option.some_inj.mp hg
    exact inOrder_copyThenHost rfl

/-- **A function and what was not copied for it.** A host node that does not wait for a copy sends
it all the same; and one whose parameters were set again does not send the copy that it waits
for. -/
theorem hostFunctions_unordered :
    (∃ st, hostNodeMachine.run {} [.graphCreate 1,
        .addMemcpyNode 1 10 [] (some copyToHost) .success, .addHostNode 1 20 [] .success,
        .instantiate 5 1 .success, .launch 5 .success, .runNode 0 20] = some st ∧
      ¬∀ call ∈ st.calls, call.Ordered) ∧
    ∃ st, hostNodeMachine.run {} [.graphCreate 1,
        .addMemcpyNode 1 10 [] (some copyToHost) .success, .addHostNode 1 20 [10] .success,
        .hostNodeSetParams 1 20 .success, .instantiate 5 1 .success, .launch 5 .success,
        .runNode 0 10, .runNode 0 20] = some st ∧
      ¬∀ call ∈ st.calls, call.Ordered := by
  constructor
  · refine ⟨_, rfl, fun hordered ↦ ?_⟩
    obtain ⟨node, -, hbefore⟩ := (hordered _ List.mem_cons_self).only copyToHost (by decide)
    obtain ⟨last, -, hlast⟩ := Relation.TransGen.tail'_iff.mp hbefore
    exact absurd hlast List.not_mem_nil
  · refine ⟨_, rfl, fun hordered ↦ ?_⟩
    have hwritten := (hordered _ List.mem_cons_self).complete 10 copyToHost rfl
      (.single (by decide))
    exact absurd hwritten (by decide)

end Lupine
