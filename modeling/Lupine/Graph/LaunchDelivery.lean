import Lupine.Foundation.Machine
import Lupine.Server.DtohCopies
import Lupine.Server.SyncCalls
import Mathlib.Data.List.Nodup

/-!
# Delivering the outputs of launched graphs

The device-to-host outputs of a launched graph wait in a map from stream handles to launches, which
is apart from the pending copies. A synchronization of a stream takes what the map has for the
handle, one of a context takes everything, and events and queries take nothing. Besides, a host node
of the graph publishes the outputs when it runs, and leaves the map alone.

## Exactly once

What the client is owed is ordered by CUDA: a call that is ordered behind a launch and succeeds must
find the outputs of the launch delivered, once. The handlers are atomic here; what varies is the
sequence of launches, events, callbacks and calls, and which launches the device has finished.

The order is one of streams, and the map is kept by handles. A launch on the null handle is not
found under `CU_STREAM_LEGACY`, though both name the NULL stream; and what is found under
`CU_STREAM_PER_THREAD` may have been launched by another lane, on a stream of its own.

## The invariant

A launch with outputs either waits in the map and has delivered nothing, or has left the map and has
delivered once, to a response made when it was complete. Launches are told apart by their index in
the order of issue, and no two entries of the map have the same.
-/

namespace Lupine

open Foundation

/-! ## The state

The point of a launch names its stream. The map has the handle. -/

/-- An accepted launch: its point of issue, its device-to-host copies, and its host nodes. -/
structure GraphLaunch where
  point : IssuePoint
  copies : List GraphHostCopy
  hostNodes : ℕ
  deriving DecidableEq, Repr

/-- How the outputs of a launch were written to client memory. -/
inductive Delivery where
  /-- By the response to a call, with the launch complete by then or still running. -/
  | response (complete : Bool)
  /-- By the message of a host callback. -/
  | hostCallback
  deriving DecidableEq, Repr

/-- The server and the device: launches in the order of issue, the events, the launched-graph map,
the launches that are complete, the host callbacks run and the deliveries made for each launch. -/
structure LaunchState where
  launches : List GraphLaunch := []
  records : CUevent → Option IssuePoint := fun _ ↦ none
  launched : LaunchedGraphResources GraphLaunch := []
  complete : List ℕ := []
  callbacks : ℕ → ℕ := fun _ ↦ 0
  deliveries : ℕ → List Delivery := fun _ ↦ []

/-! ## Steps

The device completes launches in any order that the streams allow. -/

inductive LaunchStep where
  /-- `cuGraphLaunch`. The copies are those of the resources of the executable graph, when it has
  resources. -/
  | graphLaunch (lane : ℕ) (context : CUcontext) (stream : CUstream)
      (copies : Option (List GraphHostCopy)) (hostNodes : ℕ) (result : CUresult)
  | eventRecord (lane : ℕ) (context : CUcontext) (event : CUevent) (stream : CUstream)
  /-- A host node of a running launch runs `lupine_graph_host_callback`. -/
  | hostCallback (launch : ℕ)
  /-- The device finishes a launch. -/
  | complete (launch : ℕ)
  | call (lane : ℕ) (context : CUcontext) (call : SyncCall)
  deriving DecidableEq, Repr

/-- What the handler of a call takes from the launched-graph map: `handle_manual_cuEventQuery`,
`handle_manual_cuEventSynchronize`, `handle_cuStreamQuery`, `handle_manual_cuStreamSynchronize` and
`handle_manual_cuCtxSynchronize`. -/
def SyncCall.takeLaunched (call : SyncCall) (launched : LaunchedGraphResources GraphLaunch) :
    List GraphLaunch × LaunchedGraphResources GraphLaunch :=
  match call with
  | eventQuery _ _ => ([], launched)
  | eventSynchronize _ _ => ([], launched)
  | streamQuery _ _ => ([], launched)
  | streamSynchronize stream _ => takeLaunchedGraphResources launched stream
  | ctxSynchronize _ => takeAllLaunchedGraphResources launched

/-- The deliveries once the copies of the launches taken are written. -/
def deliver (complete : List ℕ) (deliveries : ℕ → List Delivery) (taken : List GraphLaunch) :
    ℕ → List Delivery :=
  fun i ↦ deliveries i ++
    (taken.filter fun launch ↦ launch.point.index == i).map fun _ ↦ .response (complete.contains i)

def LaunchState.site (st : LaunchState) (lane : ℕ) (context : CUcontext) : CallSite :=
  ⟨lane, context, st.launches.length, st.records⟩

variable (contextOf : CUstream → CUcontext) (withNull : DeviceStream → Bool)

/-- What happens in a step. A call can only succeed when the launches it is ordered behind are
complete, and a launch only completes when its host nodes have run. -/
def launchStep (st : LaunchState) : LaunchStep → Option LaunchState
  | .graphLaunch lane context stream copies hostNodes result =>
    if result = .success then
      let launch : GraphLaunch :=
        ⟨⟨streamOf lane context stream, st.launches.length⟩, copies.getD [], hostNodes⟩
      some { st with
        launches := st.launches ++ [launch]
        launched :=
          if copies.isSome then noteLaunchedGraphResources st.launched stream launch
          else st.launched }
    else some st
  | .eventRecord lane context event stream =>
    some { st with
      records := Function.update st.records event
        (some ⟨streamOf lane context stream, st.launches.length⟩) }
  | .hostCallback i =>
    match st.launches[i]? with
    | some launch =>
      if i ∉ st.complete ∧ st.callbacks i < launch.hostNodes then
        some { st with
          callbacks := Function.update st.callbacks i (st.callbacks i + 1)
          deliveries := Function.update st.deliveries i (st.deliveries i ++ [.hostCallback]) }
      else none
    | none => none
  | .complete i =>
    match st.launches[i]? with
    | some launch =>
      if i ∉ st.complete ∧ st.callbacks i = launch.hostNodes then
        some { st with complete := i :: st.complete }
      else none
    | none => none
  | .call lane context call =>
    if st.launches.all fun launch ↦
        !call.covers contextOf withNull (st.site lane context) launch.point ||
          st.complete.contains launch.point.index then
      some { st with
        launched := (call.takeLaunched st.launched).2
        deliveries := deliver st.complete st.deliveries (call.takeLaunched st.launched).1 }
    else none

/-- The server and the device, with the streams that the NULL stream is ordered with. -/
def launchDelivery : Machine LaunchState LaunchStep := ⟨launchStep contextOf withNull⟩

/-! ## When outputs are delivered once

The condition compares what the response takes with what the call is ordered behind, both among the
launches that have copies. -/

/-- A handler takes what the map has for a handle. -/
def SyncCall.takes : SyncCall → CUstream → Bool
  | eventQuery _ _, _ => false
  | eventSynchronize _ _, _ => false
  | streamQuery _ _, _ => false
  | streamSynchronize stream _, key => key == stream
  | ctxSynchronize _, _ => true

/-- No graph with device-to-host copies is launched that has a host node, and among the launches
with copies in the map, the response to a call takes those, and only those, that the call is ordered
behind. -/
def DeliversOrdered (st : LaunchState) : LaunchStep → Prop
  | .graphLaunch _ _ _ copies hostNodes result =>
    result = .success → copies.getD [] = [] ∨ hostNodes = 0
  | .call lane context call =>
    ∀ entry ∈ st.launched, entry.2.copies ≠ [] →
      call.takes entry.1 = call.covers contextOf withNull (st.site lane context) entry.2.point
  | _ => True

instance (st : LaunchState) (step : LaunchStep) :
    Decidable (DeliversOrdered contextOf withNull st step) := by
  cases step <;> unfold DeliversOrdered <;> infer_instance

theorem SyncCall.takeLaunched_eq (call : SyncCall) (launched : LaunchedGraphResources GraphLaunch) :
    call.takeLaunched launched
      = ((launched.filter fun entry ↦ call.takes entry.1).map Prod.snd,
          launched.filter fun entry ↦ !call.takes entry.1) := by
  cases call <;>
    simp [takeLaunched, takes, takeLaunchedGraphResources, takeAllLaunchedGraphResources, bne]

/-! ## The invariant

A launch is where its index says, and launches with distinct indices are found once. -/

structure LaunchInv (st : LaunchState) : Prop where
  /-- A launch knows its place in the order of issue. -/
  index : ∀ i (launch : GraphLaunch), st.launches[i]? = some launch → launch.point.index = i
  launched_mem : ∀ entry ∈ st.launched, entry.2 ∈ st.launches
  launched_nodup : (st.launched.map fun entry ↦ entry.2.point.index).Nodup
  noHostNode : ∀ launch ∈ st.launches, launch.copies ≠ [] → launch.hostNodes = 0
  /-- A launch with copies waits in the map and has delivered nothing, or has delivered once. -/
  waiting : ∀ entry ∈ st.launched, entry.2.copies ≠ [] → st.deliveries entry.2.point.index = []
  delivered : ∀ launch ∈ st.launches, launch.copies ≠ [] →
    (∃ entry ∈ st.launched, entry.2 = launch) ∨
      st.deliveries launch.point.index = [.response true]
  fresh : ∀ i, st.launches.length ≤ i → st.deliveries i = []

theorem launchInv_init : LaunchInv {} where
  index _ _ h := nomatch h
  launched_mem _ h := absurd h List.not_mem_nil
  launched_nodup := List.nodup_nil
  noHostNode _ h := absurd h List.not_mem_nil
  waiting _ h := absurd h List.not_mem_nil
  delivered _ h := absurd h List.not_mem_nil
  fresh _ _ := rfl

namespace LaunchInv

variable {contextOf withNull} {st st' : LaunchState}

theorem getElem?_index (h : LaunchInv st) {launch : GraphLaunch} (hmem : launch ∈ st.launches) :
    st.launches[launch.point.index]? = some launch := by
  obtain ⟨i, hi⟩ := List.mem_iff_getElem?.mp hmem
  rw [h.index i launch hi, hi]

theorem index_lt (h : LaunchInv st) {launch : GraphLaunch} (hmem : launch ∈ st.launches) :
    launch.point.index < st.launches.length :=
  (List.getElem?_eq_some_iff.mp (h.getElem?_index hmem)).1

theorem graphLaunch (h : LaunchInv st) (key : CUstream) (stream : DeviceStream)
    (copies : Option (List GraphHostCopy)) (hostNodes : ℕ)
    (hok : copies.getD [] = [] ∨ hostNodes = 0) :
    LaunchInv { st with
      launches := st.launches ++ [⟨⟨stream, st.launches.length⟩, copies.getD [], hostNodes⟩]
      launched :=
        if copies.isSome then
          noteLaunchedGraphResources st.launched key
            ⟨⟨stream, st.launches.length⟩, copies.getD [], hostNodes⟩
        else st.launched } := by
  set launch : GraphLaunch :=
    ⟨⟨stream, st.launches.length⟩, copies.getD [], hostNodes⟩ with hlaunch
  have hmap : ∀ entry, entry ∈ (if copies.isSome then
      noteLaunchedGraphResources st.launched key launch else st.launched) →
      entry ∈ st.launched ∨ entry = (key, launch) := by
    intro entry hentry
    split_ifs at hentry
    · exact (List.mem_append.mp hentry).imp_right List.mem_singleton.mp
    · exact Or.inl hentry
  refine ⟨?_, ?_, ?_, ?_, ?_, ?_, ?_⟩
  · intro i l hl
    rcases Nat.lt_or_ge i st.launches.length with hlt | hge
    · rw [List.getElem?_append_left hlt] at hl
      exact h.index i l hl
    · rw [List.getElem?_append_right hge] at hl
      obtain ⟨hzero, hlast⟩ := List.getElem?_eq_some_iff.mp hl
      have hi : i = st.launches.length := by
        rw [List.length_singleton] at hzero
        omega
      rw [List.getElem_singleton] at hlast
      rw [← hlast, hi]
  · intro entry hentry
    rcases hmap entry hentry with hold | rfl
    · exact List.mem_append_left _ (h.launched_mem entry hold)
    · exact List.mem_append_right _ (List.mem_singleton_self _)
  · dsimp only
    split_ifs
    · rw [noteLaunchedGraphResources, List.map_append, List.nodup_append]
      refine ⟨h.launched_nodup, List.nodup_singleton _, ?_⟩
      intro i hi j hj
      obtain ⟨entry, hentry, rfl⟩ := List.mem_map.mp hi
      rw [List.mem_singleton.mp hj]
      exact Nat.ne_of_lt (h.index_lt (h.launched_mem entry hentry))
    · exact h.launched_nodup
  · intro l hl hcopies
    rcases List.mem_append.mp hl with hold | hnew
    · exact h.noHostNode l hold hcopies
    · rw [List.mem_singleton.mp hnew] at hcopies ⊢
      exact hok.resolve_left hcopies
  · intro entry hentry hcopies
    rcases hmap entry hentry with hold | rfl
    · exact h.waiting entry hold hcopies
    · exact h.fresh _ le_rfl
  · intro l hl hcopies
    rcases List.mem_append.mp hl with hold | hnew
    · refine (h.delivered l hold hcopies).imp_left fun ⟨entry, hentry, heq⟩ ↦ ⟨entry, ?_, heq⟩
      dsimp only
      split_ifs
      · exact List.mem_append_left _ hentry
      · exact hentry
    · rw [List.mem_singleton.mp hnew] at hcopies ⊢
      -- copies come from resources, so the launch was noted
      have hsome : copies.isSome = true := by
        cases copies
        · exact absurd rfl hcopies
        · rfl
      refine Or.inl ⟨(key, launch), ?_, rfl⟩
      rw [if_pos hsome]
      exact List.mem_append_right _ (List.mem_singleton_self _)
  · intro i hi
    rw [List.length_append] at hi
    exact h.fresh i (Nat.le_of_add_right_le hi)

theorem hostCallback (h : LaunchInv st) {i : ℕ} {launch : GraphLaunch}
    (hlaunch : st.launches[i]? = some launch) (hnode : st.callbacks i < launch.hostNodes) :
    LaunchInv { st with
      callbacks := Function.update st.callbacks i (st.callbacks i + 1)
      deliveries := Function.update st.deliveries i (st.deliveries i ++ [.hostCallback]) } := by
  -- a launch that runs a host callback has no copies
  have hnone : ∀ l ∈ st.launches, l.copies ≠ [] → l.point.index ≠ i := by
    rintro l hl hcopies rfl
    obtain rfl := Option.some.inj ((h.getElem?_index hl).symm.trans hlaunch)
    rw [h.noHostNode l hl hcopies] at hnode
    exact absurd hnode (Nat.not_lt_zero _)
  refine ⟨h.index, h.launched_mem, h.launched_nodup, h.noHostNode, ?_, ?_, ?_⟩
  · intro entry hentry hcopies
    have hne := hnone entry.2 (h.launched_mem entry hentry) hcopies
    exact (Function.update_of_ne hne _ _).trans (h.waiting entry hentry hcopies)
  · intro l hl hcopies
    exact (h.delivered l hl hcopies).imp_right
      (Function.update_of_ne (hnone l hl hcopies) _ _).trans
  · intro j hj
    have hne : j ≠ i := by
      rintro rfl
      exact absurd (List.getElem?_eq_some_iff.mp hlaunch).1 (Nat.not_lt.mpr hj)
    exact (Function.update_of_ne hne _ _).trans (h.fresh j hj)

theorem filter_index_eq_singleton {launch : GraphLaunch} {l : List GraphLaunch}
    (hnodup : (l.map fun launch ↦ launch.point.index).Nodup) (hmem : launch ∈ l) :
    l.filter (fun other ↦ other.point.index == launch.point.index) = [launch] := by
  induction l with
  | nil => exact absurd hmem List.not_mem_nil
  | cons head tail ih =>
    rw [List.map_cons, List.nodup_cons] at hnodup
    rcases List.mem_cons.mp hmem with rfl | htail
    · have hnone : tail.filter (fun other ↦ other.point.index == launch.point.index) = [] := by
        refine List.filter_eq_nil_iff.mpr fun other hother heq ↦ hnodup.1 ?_
        exact List.mem_map.mpr ⟨other, hother, beq_iff_eq.mp heq⟩
      rw [List.filter_cons, if_pos (beq_self_eq_true _), hnone]
    · have hne : ¬ (head.point.index == launch.point.index) = true := by
        intro heq
        exact hnodup.1 (List.mem_map.mpr ⟨launch, htail, (beq_iff_eq.mp heq).symm⟩)
      rw [List.filter_cons, if_neg hne, ih hnodup.2 htail]

theorem deliver_of_mem {complete : List ℕ} {deliveries : ℕ → List Delivery}
    {taken : List GraphLaunch} (hnodup : (taken.map fun launch ↦ launch.point.index).Nodup)
    {launch : GraphLaunch} (hmem : launch ∈ taken) :
    deliver complete deliveries taken launch.point.index
      = deliveries launch.point.index ++ [.response (complete.contains launch.point.index)] := by
  rw [deliver, filter_index_eq_singleton hnodup hmem, List.map_singleton]

theorem deliver_of_not_mem {complete : List ℕ} {deliveries : ℕ → List Delivery}
    {taken : List GraphLaunch} {i : ℕ} (hnot : ∀ launch ∈ taken, launch.point.index ≠ i) :
    deliver complete deliveries taken i = deliveries i := by
  have hnone : taken.filter (fun launch ↦ launch.point.index == i) = [] :=
    List.filter_eq_nil_iff.mpr fun launch hmem heq ↦ hnot launch hmem (beq_iff_eq.mp heq)
  rw [deliver, hnone, List.map_nil, List.append_nil]

/-- The step that delivers. What is taken from the map is complete and has not been delivered, and
what stays is not looked at. -/
theorem call (h : LaunchInv st) {lane : ℕ} {context : CUcontext} {call : SyncCall}
    (hcomplete : ∀ launch ∈ st.launches,
      call.covers contextOf withNull (st.site lane context) launch.point = true →
      st.complete.contains launch.point.index = true)
    (hok : ∀ entry ∈ st.launched, entry.2.copies ≠ [] →
      call.takes entry.1 = call.covers contextOf withNull (st.site lane context) entry.2.point) :
    LaunchInv { st with
      launched := (call.takeLaunched st.launched).2
      deliveries := deliver st.complete st.deliveries (call.takeLaunched st.launched).1 } := by
  rw [SyncCall.takeLaunched_eq]
  set taken := (st.launched.filter fun entry ↦ call.takes entry.1).map Prod.snd with htaken
  have hmem_taken : ∀ launch, launch ∈ taken ↔
      ∃ entry ∈ st.launched, call.takes entry.1 = true ∧ entry.2 = launch := by
    intro launch
    simp only [htaken, List.mem_map, List.mem_filter, and_assoc]
  have hnodup : (taken.map fun launch ↦ launch.point.index).Nodup := by
    rw [htaken, List.map_map]
    exact (List.filter_sublist.map _).nodup h.launched_nodup
  -- indices tell launches in the map apart
  have hunique : ∀ entry ∈ st.launched, ∀ entry' ∈ st.launched,
      entry'.2.point.index = entry.2.point.index → entry' = entry := by
    intro entry hentry entry' hentry' heq
    exact List.inj_on_of_nodup_map h.launched_nodup hentry' hentry heq
  refine ⟨h.index, ?_, ?_, h.noHostNode, ?_, ?_, ?_⟩
  · intro entry hentry
    exact h.launched_mem entry (List.mem_of_mem_filter hentry)
  · exact (List.filter_sublist.map _).nodup h.launched_nodup
  · intro entry hentry hcopies
    obtain ⟨hold, hstays⟩ := List.mem_filter.mp hentry
    have hnot : ∀ launch ∈ taken, launch.point.index ≠ entry.2.point.index := by
      intro launch hlaunch heq
      obtain ⟨entry', hentry', htakes, rfl⟩ := (hmem_taken launch).mp hlaunch
      obtain rfl := hunique entry hold entry' hentry' heq
      rw [htakes] at hstays
      exact absurd hstays (by simp)
    exact (deliver_of_not_mem hnot).trans (h.waiting entry hold hcopies)
  · intro launch hlaunch hcopies
    rcases h.delivered launch hlaunch hcopies with ⟨entry, hentry, rfl⟩ | hsent
    · cases htakes : call.takes entry.1 with
      | false =>
        exact Or.inl ⟨entry, List.mem_filter.mpr ⟨hentry, by rw [htakes]; rfl⟩, rfl⟩
      | true =>
        have hcovers := (hok entry hentry hcopies).symm.trans htakes
        right
        dsimp only
        rw [deliver_of_mem hnodup ((hmem_taken _).mpr ⟨entry, hentry, htakes, rfl⟩),
          h.waiting entry hentry hcopies, hcomplete entry.2 hlaunch hcovers]
        rfl
    · by_cases hin : ∃ entry ∈ st.launched, entry.2.point.index = launch.point.index
      · -- a launch that is in the map has delivered nothing
        obtain ⟨entry, hentry, heq⟩ := hin
        have hsame : entry.2 = launch := by
          have hfound := h.getElem?_index (h.launched_mem entry hentry)
          rw [heq, h.getElem?_index hlaunch] at hfound
          exact (Option.some.inj hfound).symm
        have hnothing := h.waiting entry hentry (hsame ▸ hcopies)
        rw [hsame, hsent] at hnothing
        exact absurd hnothing (by simp)
      · right
        refine (deliver_of_not_mem fun other hother heq ↦ ?_).trans hsent
        obtain ⟨entry, hentry, -, rfl⟩ := (hmem_taken other).mp hother
        exact hin ⟨entry, hentry, heq⟩
  · intro i hi
    refine (deliver_of_not_mem fun launch hlaunch heq ↦ ?_).trans (h.fresh i hi)
    obtain ⟨entry, hentry, -, rfl⟩ := (hmem_taken launch).mp hlaunch
    have hlt := h.index_lt (h.launched_mem entry hentry)
    exact absurd (heq ▸ hlt) (Nat.not_lt.mpr hi)

/-- **Every step keeps the invariant.** -/
theorem launchStep {step : LaunchStep} (h : LaunchInv st)
    (hok : DeliversOrdered contextOf withNull st step)
    (hstep : launchStep contextOf withNull st step = some st') : LaunchInv st' := by
  cases step with
  | graphLaunch lane context stream copies hostNodes result =>
    by_cases hresult : result = .success
    · rw [Lupine.launchStep, if_pos hresult] at hstep
      exact Option.some.inj hstep ▸ h.graphLaunch stream _ copies hostNodes (hok hresult)
    · rw [Lupine.launchStep, if_neg hresult] at hstep
      exact Option.some.inj hstep ▸ h
  | eventRecord lane context event stream =>
    obtain rfl := Option.some.inj hstep
    exact ⟨h.index, h.launched_mem, h.launched_nodup, h.noHostNode, h.waiting, h.delivered, h.fresh⟩
  | hostCallback i =>
    simp only [Lupine.launchStep] at hstep
    split at hstep
    · next launch hlaunch =>
      split_ifs at hstep with hruns
      exact Option.some.inj hstep ▸ h.hostCallback hlaunch hruns.2
    · exact nomatch hstep
  | complete i =>
    simp only [Lupine.launchStep] at hstep
    split at hstep
    · split_ifs at hstep
      obtain rfl := Option.some.inj hstep
      exact ⟨h.index, h.launched_mem, h.launched_nodup, h.noHostNode, h.waiting, h.delivered,
        h.fresh⟩
    · exact nomatch hstep
  | call lane context call =>
    simp only [Lupine.launchStep] at hstep
    split_ifs at hstep with hcomplete
    refine Option.some.inj hstep ▸ h.call (fun launch hlaunch hcovers ↦ ?_) hok
    have hdone := List.all_eq_true.mp hcomplete launch hlaunch
    rwa [hcovers, Bool.not_true, Bool.false_or] at hdone

end LaunchInv

theorem launchInv_run {steps : List LaunchStep} {st : LaunchState}
    (hrun : ((launchDelivery contextOf withNull).restrict (DeliversOrdered contextOf withNull)).run
      {} steps = some st) : LaunchInv st := by
  refine Machine.run_invariant _ (fun s step s' hs hstep ↦ ?_) launchInv_init hrun
  obtain ⟨hok, hstep⟩ := Machine.step_restrict.mp hstep
  exact hs.launchStep hok hstep

/-- **Outputs are delivered once.** In every run, over any lanes, streams and contexts, in which no
graph with device-to-host copies that is launched has a host node and every response takes, of the
launches with copies in the map, just those that its call is ordered behind: when a synchronization
or query succeeds, the outputs of every launch it is ordered behind have been written to client
memory, once, and by a response made when the launch was complete. -/
theorem outputs_delivered_once {steps : List LaunchStep} {lane : ℕ} {context : CUcontext}
    {call : SyncCall} {st : LaunchState}
    (hrun : ((launchDelivery contextOf withNull).restrict (DeliversOrdered contextOf withNull)).run
      {} (steps ++ [.call lane context call]) = some st)
    {launch : GraphLaunch} (hlaunch : launch ∈ st.launches) (hcopies : launch.copies ≠ [])
    (hbehind : call.covers contextOf withNull (st.site lane context) launch.point = true) :
    st.deliveries launch.point.index = [.response true] := by
  have hinv := launchInv_run contextOf withNull hrun
  rw [Machine.run_append] at hrun
  obtain ⟨s, -, hlast⟩ := Option.bind_eq_some_iff.mp hrun
  rw [Machine.run_cons] at hlast
  obtain ⟨s', hstep, hs'⟩ := Option.bind_eq_some_iff.mp hlast
  obtain rfl := Option.some.inj hs'
  obtain ⟨hok, hstep⟩ := Machine.step_restrict.mp hstep
  simp only [launchDelivery, launchStep] at hstep
  split_ifs at hstep
  obtain rfl := Option.some.inj hstep
  refine (hinv.delivered launch hlaunch hcopies).resolve_left ?_
  rintro ⟨entry, hentry, rfl⟩
  -- what stays in the map was not taken, so the call is not ordered behind it
  rw [SyncCall.takeLaunched_eq] at hentry
  obtain ⟨hold, hstays⟩ := List.mem_filter.mp hentry
  have htakes : call.takes entry.1 = true := (hok entry hold hcopies).trans hbehind
  rw [htakes] at hstays
  exact absurd hstays (by simp)

/-- One graph with one copy, launched on stream 3 and synchronized with the stream. -/
theorem outputs_delivered_once_streamSynchronize :
    ∃ st, ((launchDelivery (fun _ ↦ 1) fun _ ↦ true).restrict
        (DeliversOrdered (fun _ ↦ 1) fun _ ↦ true)).run {}
        ([.graphLaunch 0 1 3 (some [⟨4096, 7, 1⟩]) 0 .success, .complete 0] ++
          [.call 1 1 (.streamSynchronize 3 .success)]) = some st ∧
      st.deliveries 0 = [.response true] := by
  have hpossible : (((launchDelivery (fun _ ↦ 1) fun _ ↦ true).restrict
      (DeliversOrdered (fun _ ↦ 1) fun _ ↦ true)).run {}
      ([.graphLaunch 0 1 3 (some [⟨4096, 7, 1⟩]) 0 .success, .complete 0] ++
        [.call 1 1 (.streamSynchronize 3 .success)])).any fun st ↦
          st.launches == [⟨⟨.created 3, 0⟩, [⟨4096, 7, 1⟩], 0⟩] &&
            (SyncCall.streamSynchronize 3 .success).covers (fun _ ↦ 1) (fun _ ↦ true) (st.site 1 1)
              ⟨.created 3, 0⟩ := by
    decide
  obtain ⟨st, hrun, hst⟩ := (Option.any_eq_true _ _).mp hpossible
  rw [Bool.and_eq_true, beq_iff_eq] at hst
  have hlaunch : (⟨⟨.created 3, 0⟩, [⟨4096, 7, 1⟩], 0⟩ : GraphLaunch) ∈ st.launches := by
    rw [hst.1]
    exact List.mem_singleton_self _
  exact ⟨st, hrun, outputs_delivered_once _ _ hrun hlaunch (by simp) hst.2⟩

/-- The outputs of a launch are not delivered when an event recorded behind it is synchronized, nor
when it was launched on the null handle and `CU_STREAM_LEGACY` is synchronized; and they are
delivered a second time, over what the host function left, when a graph with a host node is
synchronized. -/
theorem outputs_missing_or_repeated :
    ((launchDelivery (fun _ ↦ 1) fun _ ↦ true).run {}
        [.graphLaunch 0 1 3 (some [⟨4096, 7, 1⟩]) 0 .success, .eventRecord 0 1 5 3, .complete 0,
          .call 0 1 (.eventSynchronize 5 .success)]).map (fun st ↦ st.deliveries 0) = some [] ∧
      ((launchDelivery (fun _ ↦ 1) fun _ ↦ true).run {}
        [.graphLaunch 0 1 0 (some [⟨4096, 7, 1⟩]) 0 .success, .complete 0,
          .call 0 1 (.streamSynchronize streamLegacy .success)]).map (fun st ↦ st.deliveries 0)
        = some [] ∧
      ((launchDelivery (fun _ ↦ 1) fun _ ↦ true).run {}
        [.graphLaunch 0 1 3 (some [⟨4096, 7, 1⟩]) 1 .success, .hostCallback 0, .complete 0,
          .call 0 1 (.streamSynchronize 3 .success)]).map (fun st ↦ st.deliveries 0)
        = some [.hostCallback, .response true] := by
  decide

end Lupine
