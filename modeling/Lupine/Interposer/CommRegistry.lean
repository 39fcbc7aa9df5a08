import Mathlib.Algebra.Order.Ring.Int
import Mathlib.Data.List.Basic
import Lupine.Foundation.Machine
import Lupine.Foundation.SlotTable

/-!
# The registry of NCCL communicators

A communicator stays where it was created, whatever device is current when it is used. The shim for
NCCL therefore remembers the remote ones with their route and their device, in a flat array keyed by
the value of the communicator. A call on a registered communicator goes to its route; any other
communicator is taken for a remote one if the current route is remote, and for a local one if not.

## Values that come up twice

A value is remembered in the first slot that is free, unless the search meets the same value before
that. So a value that a second server returns is dropped, or goes to a hole in front of the old
entry and hides it, and taking it out later leaves the old entry behind.

## The record of calls

For every call on a communicator the state keeps where it went, whether an entry was found, and the
live communicators of that value. What the processes answer is not constrained.

## What is left out

`ncclCommRevoke`, `ncclCommShrink`, `ncclCommGrow`, `ncclRedOpCreatePreMulSum`, `ncclRedOpDestroy`
and `ncclCommQueryProperties` on a communicator that is taken for a remote one, and
`ncclGroupSimulateEnd` where the current route is remote, return `ncclInvalidUsage` and go nowhere;
otherwise they are calls of the local library. Communicators that the local library makes in
`ncclCommShrink` or `ncclCommGrow` are not among the live ones. The payload of a call is left out.

## What the registry is to be

In a run without ambiguity the registry has one entry for each live remote communicator and no
others, in any order and with holes. A search then finds the entry of the one live communicator with
the value, if that is remote. What a call does follows from what it finds.
-/

open Foundation

namespace Lupine

/-! ## The registry

The functions work on the flat array, as in the source; a free slot has a null communicator. -/

/-- `MAX_REMOTE_COMMS`. -/
def maxRemoteComms : ℕ := 4096

/-- One index of `remote_comms`, `remote_comm_routes` and `remote_comm_devices`. -/
structure CommEntry where
  comm : ℕ := 0
  route : ℤ := 0
  device : ℤ := 0
  deriving DecidableEq, Repr

/-- `remember_remote_comm_owner`. -/
def rememberRemoteCommOwner (entries : List CommEntry) (comm : ℕ) (route device : ℤ) :
    List CommEntry :=
  if comm = 0 then entries else rememberSlot CommEntry.comm entries ⟨comm, route, device⟩

/-- `forget_remote_comm`. -/
def forgetRemoteComm (entries : List CommEntry) (comm : ℕ) : List CommEntry :=
  changeSlot CommEntry.comm entries comm fun _ ↦ ⟨0, -2, -1⟩

def findComm (entries : List CommEntry) (comm : ℕ) : Option CommEntry :=
  if comm = 0 then none else findSlot CommEntry.comm entries comm

/-- `remote_comm_route_id`. -/
def remoteCommRouteId (entries : List CommEntry) (comm : ℕ) : ℤ :=
  ((findComm entries comm).map CommEntry.route).getD (-2)

/-- `remote_comm_device`. -/
def remoteCommDevice (entries : List CommEntry) (comm : ℕ) : ℤ :=
  ((findComm entries comm).map CommEntry.device).getD (-1)

/-! ## The state

Beside the registry there are the live communicators, with the process of each, and the calls that
were made. -/

/-- A communicator that was created and not released. A negative route is this machine. -/
structure Communicator where
  value : ℕ
  route : ℤ
  device : ℕ
  deriving DecidableEq, Repr

/-- Where a call on a communicator goes. A device is reported without asking, or asked for. -/
inductive NcclTarget where
  | localLibrary
  | route (route : ℤ)
  | reported (device : ℤ)
  | asked (route : ℤ)
  | refused
  deriving DecidableEq, Repr

/-- A call, with the communicators of its value. -/
structure NcclCall where
  owners : List Communicator
  registered : Bool
  target : NcclTarget
  deriving DecidableEq, Repr

/-- A rank of `ncclCommInitAll` whose thread is not done. -/
structure InitAllRank where
  device : ℕ
  route : ℤ
  deriving DecidableEq, Repr

/-- The registry, the threads of `ncclCommInitAll`, the live communicators and the calls made. -/
structure CommState where
  entries : List CommEntry := List.replicate maxRemoteComms {}
  threads : List InitAllRank := []
  live : List Communicator := []
  calls : List NcclCall := []
  deriving DecidableEq, Repr

/-- What a thread calls with: the current route, the current device and whether `cudaGetDevice` is
there to name it, and the route of the stream of a call that has one. -/
structure NcclContext where
  current : ℤ
  device : ℕ := 0
  namesDevice : Bool := true
  streamRoute : Option ℤ := none
  deriving DecidableEq, Repr

/-- `current_virtual_device`. -/
def NcclContext.virtualDevice (context : NcclContext) : ℤ :=
  if context.namesDevice then context.device else -1

/-- `RGPU_NCCL_REMOTE`, and whether `LUPINE_SERVER` names a server. -/
structure NcclSettings where
  remote : Option Bool := none
  server : Bool := true
  deriving DecidableEq, Repr

/-- `remote_enabled`. -/
def remoteEnabled (settings : NcclSettings) (context : NcclContext) : Bool :=
  settings.remote.getD (decide (0 ≤ context.current))

/-- `remote_configured`. -/
def remoteConfigured (settings : NcclSettings) (context : NcclContext) : Bool :=
  settings.server || remoteEnabled settings context

/-! ## The functions

A communicator that is found goes to its own route, whatever the current one is. For any other the
current route decides. -/

namespace CommState

variable (settings : NcclSettings) (st : CommState) (comm : ℕ) (context : NcclContext)

/-- `remote_comm`. -/
def remoteComm : Bool := (findComm st.entries comm).isSome || remoteEnabled settings context

/-- The route of `remote_call`: that of the entry, else the one that `lupine_nccl_call` finds for
the stream of the request or the current context. -/
def remoteCall : NcclTarget :=
  let id := remoteCommRouteId st.entries comm
  let route := if 0 ≤ id then id else context.streamRoute.getD context.current
  if 0 ≤ route then .route route else .refused

def owners : List Communicator := st.live.filter fun o ↦ o.value = comm

def record (target : NcclTarget) : CommState :=
  { st with calls := ⟨st.owners comm, (findComm st.entries comm).isSome, target⟩ :: st.calls }

/-- Where the collectives, the queries and `ncclCommFinalize` go. -/
def target : NcclTarget :=
  if st.remoteComm settings comm context then st.remoteCall comm context else .localLibrary

/-- A function on a communicator that only makes the call. -/
def call : CommState := st.record comm (st.target settings comm context)

/-- `ncclCommCuDevice`. -/
def ncclCommCuDevice : CommState :=
  st.record comm <|
    if st.remoteComm settings comm context then
      let device := remoteCommDevice st.entries comm
      if 0 ≤ device then .reported device
      else
        match st.remoteCall comm context with
        | .route route => .asked route
        | target => target
    else .localLibrary

def addLocal (device value : ℕ) : CommState :=
  { st with live := ⟨value, -1, device⟩ :: st.live }

/-- A communicator of a server, which is remembered with what is known of it. -/
def addRemote (route : ℤ) (device value : ℕ) (knownRoute knownDevice : ℤ) : CommState :=
  { st with
    entries := rememberRemoteCommOwner st.entries value knownRoute knownDevice
    live := ⟨value, route, device⟩ :: st.live }

/-- `ncclCommInitRank`, `ncclCommInitRankConfig`; no answer is a failure. -/
def ncclCommInitRank (answer : Option ℕ) : CommState :=
  match answer with
  | none => st
  | some value =>
    if remoteEnabled settings context then
      match st.remoteCall 0 { context with streamRoute := none } with
      | .route route =>
        st.addRemote route context.device value context.current context.virtualDevice
      | _ => st
    else st.addLocal context.device value

/-- The ranks that the checks of `ncclCommInitAll` let through: every route is valid and no two
ranks are on one server. -/
def initAllRanks : List InitAllRank → Option (List InitAllRank)
  | ranks =>
    if 0 < ranks.length ∧ ranks.length ≤ 64 ∧ (∀ rank ∈ ranks, -1 ≤ rank.route) ∧
        ((ranks.map InitAllRank.route).filter fun route ↦ 0 ≤ route).Nodup then some ranks
    else none

/-- `ncclCommInitAll`, as far as starting the threads. Without a server all ranks are local. -/
def ncclCommInitAll (ranks : List InitAllRank) : CommState :=
  if remoteConfigured settings context then
    match initAllRanks ranks with
    | some ranks => { st with threads := st.threads ++ ranks }
    | none => st
  else { st with threads := st.threads ++ ranks.map fun rank ↦ { rank with route := -1 } }

/-- `init_all_rank_main`: the thread makes its device current and creates its communicator. -/
def initAllRankMain (rank : InitAllRank) (answer : Option ℕ) : CommState :=
  let st := { st with threads := st.threads.erase rank }
  match answer with
  | none => st
  | some value =>
    if 0 ≤ rank.route then st.addRemote rank.route rank.device value rank.route rank.device
    else st.addLocal rank.device value

/-- The device of a communicator that is split. -/
def splitDevice : ℕ := (((st.owners comm).head?).map Communicator.device).getD context.device

/-- `ncclCommSplit`. A process without a color gets a null communicator. -/
def ncclCommSplit (answer : Option ℕ) : CommState :=
  let st := st.call settings comm context
  let device := st.splitDevice comm context
  match answer with
  | none => st
  | some 0 => st
  | some value =>
    match st.target settings comm context with
    | .localLibrary => st.addLocal device value
    | .route route =>
      st.addRemote route device value (remoteCommRouteId st.entries comm)
        (remoteCommDevice st.entries comm)
    | _ => st

/-- `ncclCommDestroy` and `ncclCommAbort`. -/
def release : CommState :=
  let called := st.call settings comm context
  { called with
    entries :=
      if st.remoteComm settings comm context then forgetRemoteComm st.entries comm else st.entries
    live := st.live.filter fun o ↦ o.value ≠ comm }

end CommState

/-! ## The machine -/

inductive NcclAction where
  | initRank (context : NcclContext) (answer : Option ℕ)
  | initAll (context : NcclContext) (ranks : List InitAllRank)
  | rankDone (rank : InitAllRank) (answer : Option ℕ)
  | split (comm : ℕ) (context : NcclContext) (answer : Option ℕ)
  | destroy (comm : ℕ) (context : NcclContext)
  | abort (comm : ℕ) (context : NcclContext)
  | collective (comm : ℕ) (context : NcclContext)
  | cuDevice (comm : ℕ) (context : NcclContext)
  deriving DecidableEq, Repr

def ncclStep (settings : NcclSettings) (st : CommState) : NcclAction → Option CommState
  | .initRank context answer => some (st.ncclCommInitRank settings context answer)
  | .initAll context ranks => some (st.ncclCommInitAll settings context ranks)
  | .rankDone rank answer =>
    if rank ∈ st.threads then some (st.initAllRankMain rank answer) else none
  | .split comm context answer => some (st.ncclCommSplit settings comm context answer)
  | .destroy comm context | .abort comm context => some (st.release settings comm context)
  | .collective comm context => some (st.call settings comm context)
  | .cuDevice comm context => some (st.ncclCommCuDevice settings comm context)

def ncclShim (settings : NcclSettings) : Machine CommState NcclAction where
  step := ncclStep settings

/-! ## When it goes well

A new communicator has a value that no live one has, and finds a free slot. -/

namespace CommState

variable (settings : NcclSettings) (st : CommState) (comm : ℕ) (context : NcclContext)

/-- A new communicator has a value of its own, and a remote one finds a free slot. -/
def GetsValue (onServer : Bool) (value : ℕ) : Prop :=
  value ≠ 0 ∧ (∀ o ∈ st.live, o.value ≠ value) ∧
    (onServer → findSlot CommEntry.comm st.entries 0 ≠ none)

/-- A local communicator is not used while the current route is taken for remote. -/
def UsedAtHome : Prop :=
  ∀ o ∈ st.owners comm, o.route < 0 → remoteEnabled settings context = false

end CommState

/-- The condition on an action. -/
def NcclAction.Unambiguous (settings : NcclSettings) (st : CommState) : NcclAction → Prop
  | initRank context answer => ∀ value ∈ answer,
    st.GetsValue (remoteEnabled settings context) value ∧
      (remoteEnabled settings context → context.namesDevice)
  | initAll .. => True
  | rankDone rank answer => ∀ value ∈ answer, st.GetsValue (decide (0 ≤ rank.route)) value
  | split comm context answer => st.UsedAtHome settings comm context ∧
    ∀ value ∈ answer, value ≠ 0 → (st.owners comm ≠ [] ∧
      st.GetsValue (st.remoteComm settings comm context) value)
  | destroy comm context | abort comm context | collective comm context | cuDevice comm context =>
    st.UsedAtHome settings comm context

instance (st : CommState) (onServer : Bool) (value : ℕ) :
    Decidable (st.GetsValue onServer value) := inferInstanceAs (Decidable (_ ∧ _ ∧ _))

instance (settings : NcclSettings) (st : CommState) (comm : ℕ) (context : NcclContext) :
    Decidable (st.UsedAtHome settings comm context) :=
  inferInstanceAs (Decidable (∀ _ ∈ _, _ → _))

instance NcclAction.decidableUnambiguous (settings : NcclSettings) (st : CommState) :
    ∀ action : NcclAction, Decidable (action.Unambiguous settings st)
  | .initRank .. => inferInstanceAs (Decidable (∀ _ ∈ _, _ ∧ _))
  | .initAll .. => inferInstanceAs (Decidable True)
  | .rankDone .. => inferInstanceAs (Decidable (∀ _ ∈ _, _))
  | .split .. => inferInstanceAs (Decidable (_ ∧ ∀ _ ∈ _, _))
  | .destroy .. | .abort .. | .collective .. | .cuDevice .. =>
    inferInstanceAs (Decidable (CommState.UsedAtHome ..))

/-! ## What is right

What the registry does not find is local, or no communicator. -/

/-- A call on a communicator reaches its process, or reports its device. -/
def Communicator.Served (comm : Communicator) : NcclTarget → Prop
  | .localLibrary => comm.route < 0
  | .route route => 0 ≤ route ∧ route = comm.route
  | .reported device => 0 ≤ comm.route ∧ device = comm.device
  | .asked _ | .refused => False

/-- A call serves every communicator of its value, and finds no entry when there is none. -/
structure NcclCall.Right (call : NcclCall) : Prop where
  served : ∀ comm ∈ call.owners, comm.Served call.target
  stays : call.owners = [] → call.registered = false

/-- The entry that a remote communicator is to have. -/
def Communicator.entry (comm : Communicator) : CommEntry := ⟨comm.value, comm.route, comm.device⟩

def CommState.remoteEntries (st : CommState) : List CommEntry :=
  (st.live.filter fun o ↦ 0 ≤ o.route).map Communicator.entry

/-- The registry has one entry for each live remote communicator and no others. -/
structure CommState.Sound (st : CommState) : Prop where
  entries : (taken CommEntry.comm st.entries).Perm st.remoteEntries
  distinct : (st.live.map Communicator.value).Nodup
  values : ∀ o ∈ st.live, o.value ≠ 0
  calls : ∀ call ∈ st.calls, call.Right

namespace CommState

variable {settings : NcclSettings} {st : CommState} {comm : ℕ} {context : NcclContext}
variable {e : CommEntry} {o : Communicator}

theorem sound_init : CommState.Sound {} where
  entries := by
    have hnil : taken CommEntry.comm (List.replicate maxRemoteComms {}) = [] :=
      taken_replicate _ rfl
    rw [hnil]
    exact List.Perm.refl _
  distinct := List.nodup_nil
  values := fun _ h ↦ (nomatch h)
  calls := fun _ h ↦ (nomatch h)

theorem mem_remoteEntries : e ∈ st.remoteEntries ↔ ∃ o ∈ st.live, 0 ≤ o.route ∧ o.entry = e := by
  rw [remoteEntries, List.mem_map]
  constructor
  · rintro ⟨o, ho, rfl⟩
    obtain ⟨hmem, hroute⟩ := List.mem_filter.mp ho
    exact ⟨o, hmem, of_decide_eq_true hroute, rfl⟩
  · rintro ⟨o, hmem, hroute, rfl⟩
    exact ⟨o, List.mem_filter.mpr ⟨hmem, decide_eq_true hroute⟩, rfl⟩

theorem mem_owners : o ∈ st.owners comm ↔ o ∈ st.live ∧ o.value = comm := by
  rw [owners, List.mem_filter, decide_eq_true_iff]

theorem Sound.nodup_comms (h : st.Sound) :
    ((taken CommEntry.comm st.entries).map CommEntry.comm).Nodup := by
  have hsub : ((st.live.filter fun o ↦ 0 ≤ o.route).map Communicator.value).Nodup :=
    h.distinct.sublist (List.filter_sublist.map _)
  rw [(h.entries.map CommEntry.comm).nodup_iff, remoteEntries, List.map_map]
  exact hsub

/-- What the registry finds is the entry of the one live communicator with that value. -/
theorem Sound.find (h : st.Sound) (hfind : findComm st.entries comm = some e) :
    ∃ o, st.owners comm = [o] ∧ 0 ≤ o.route ∧ o.entry = e := by
  rw [findComm] at hfind
  split_ifs at hfind with hzero
  obtain ⟨htaken, hkey⟩ := (findSlot_eq_some_iff h.nodup_comms hzero).mp hfind
  obtain ⟨o, hmem, hroute, rfl⟩ := mem_remoteEntries.mp (h.entries.mem_iff.mp htaken)
  have ho : o ∈ st.owners comm := mem_owners.mpr ⟨hmem, hkey⟩
  have hnodup : (st.owners comm).Nodup := (List.Nodup.of_map _ h.distinct).filter _
  refine ⟨o, ?_, hroute, rfl⟩
  refine List.perm_singleton.mp
    ((List.perm_ext_iff_of_nodup hnodup (List.nodup_singleton o)).mpr ?_)
  intro o'
  rw [List.mem_singleton]
  constructor
  · intro ho'
    obtain ⟨hmem', hvalue'⟩ := mem_owners.mp ho'
    exact List.inj_on_of_nodup_map h.distinct hmem' hmem (hvalue'.trans hkey.symm)
  · rintro rfl
    exact ho

/-- What the registry does not find is local, or no communicator. -/
theorem Sound.not_find (h : st.Sound) (hfind : findComm st.entries comm = none) :
    ∀ o ∈ st.owners comm, o.route < 0 := by
  intro o ho
  obtain ⟨hmem, rfl⟩ := mem_owners.mp ho
  by_contra hroute
  have hentry : o.entry ∈ taken CommEntry.comm st.entries :=
    h.entries.mem_iff.mpr (mem_remoteEntries.mpr ⟨o, hmem, Int.not_lt.mp hroute, rfl⟩)
  rw [findComm, if_neg (h.values o hmem)] at hfind
  exact findSlot_eq_none.mp hfind o.entry (mem_taken.mp hentry).1 rfl

theorem remoteComm_of_find (settings : NcclSettings) (context : NcclContext)
    (hfind : findComm st.entries comm = some e) (hroute : 0 ≤ e.route) :
    st.remoteComm settings comm context = true ∧ st.remoteCall comm context = .route e.route ∧
      remoteCommRouteId st.entries comm = e.route ∧
      remoteCommDevice st.entries comm = e.device := by
  have hid : remoteCommRouteId st.entries comm = e.route := by
    rw [remoteCommRouteId, hfind]
    rfl
  refine ⟨?_, ?_, hid, ?_⟩
  · rw [remoteComm, hfind]
    rfl
  · simp only [remoteCall]
    rw [hid, if_pos hroute, if_pos hroute]
  · rw [remoteCommDevice, hfind]
    rfl

/-- A local communicator that is used at home is taken for local. -/
theorem remoteComm_of_not_find (hfind : findComm st.entries comm = none)
    (hhome : remoteEnabled settings context = false) :
    st.remoteComm settings comm context = false := by
  rw [remoteComm, hfind, hhome]
  rfl

/-! ### The steps

What is remembered of the others stays when a communicator is added or released. -/

theorem Sound.record (h : st.Sound) {target : NcclTarget}
    (hserved : ∀ o ∈ st.owners comm, o.Served target) : (st.record comm target).Sound where
  entries := h.entries
  distinct := h.distinct
  values := h.values
  calls := by
    intro call hcall
    rcases List.mem_cons.mp hcall with rfl | hcall
    · refine ⟨hserved, fun hnil ↦ ?_⟩
      cases hfind : findComm st.entries comm with
      | none => rfl
      | some e =>
        obtain ⟨o, howners, -⟩ := h.find hfind
        exact absurd (howners.symm.trans hnil) (List.cons_ne_nil _ _)
    · exact h.calls call hcall

theorem Sound.served_target (h : st.Sound) (hhome : st.UsedAtHome settings comm context) :
    ∀ o ∈ st.owners comm, o.Served (st.target settings comm context) := by
  intro o ho
  cases hfind : findComm st.entries comm with
  | none =>
    have hroute := h.not_find hfind o ho
    rw [target, remoteComm_of_not_find hfind (hhome o ho hroute)]
    exact hroute
  | some e =>
    obtain ⟨o', howners, hroute, rfl⟩ := h.find hfind
    obtain ⟨hremote, hcall, -, -⟩ := remoteComm_of_find settings context hfind hroute
    rw [howners, List.mem_singleton] at ho
    subst ho
    rw [target, if_pos hremote, hcall]
    exact ⟨hroute, rfl⟩

theorem Sound.call (h : st.Sound) (hhome : st.UsedAtHome settings comm context) :
    (st.call settings comm context).Sound :=
  h.record (h.served_target hhome)

theorem Sound.ncclCommCuDevice (h : st.Sound) (hhome : st.UsedAtHome settings comm context) :
    (st.ncclCommCuDevice settings comm context).Sound := by
  refine h.record fun o ho ↦ ?_
  cases hfind : findComm st.entries comm with
  | none =>
    have hroute := h.not_find hfind o ho
    rw [remoteComm_of_not_find hfind (hhome o ho hroute), if_neg Bool.false_ne_true]
    exact hroute
  | some e =>
    obtain ⟨o', howners, hroute, rfl⟩ := h.find hfind
    obtain ⟨hremote, -, -, hdevice⟩ := remoteComm_of_find settings context hfind hroute
    rw [howners, List.mem_singleton] at ho
    subst ho
    rw [if_pos hremote]
    simp only
    rw [hdevice, if_pos (show 0 ≤ o.entry.device from Int.natCast_nonneg _)]
    exact ⟨hroute, rfl⟩

theorem Sound.nodup_cons (h : st.Sound) {value : ℕ} {device : ℕ} {route : ℤ}
    (hfresh : ∀ o ∈ st.live, o.value ≠ value) :
    (((⟨value, route, device⟩ : Communicator) :: st.live).map Communicator.value).Nodup := by
  rw [List.map_cons, List.nodup_cons, List.mem_map]
  exact ⟨fun ⟨o, ho, hvalue⟩ ↦ hfresh o ho hvalue, h.distinct⟩

theorem Sound.addLocal (h : st.Sound) {value : ℕ} (device : ℕ) (hne : value ≠ 0)
    (hfresh : ∀ o ∈ st.live, o.value ≠ value) : (st.addLocal device value).Sound where
  entries := h.entries
  distinct := h.nodup_cons hfresh
  values := by
    intro o ho
    rcases List.mem_cons.mp ho with rfl | ho
    · exact hne
    · exact h.values o ho
  calls := h.calls

theorem Sound.addRemote (h : st.Sound) {value device : ℕ} {route : ℤ} (hroute : 0 ≤ route)
    (hgets : st.GetsValue true value) :
    (st.addRemote route device value route device).Sound := by
  obtain ⟨hne, hfresh, hfree⟩ := hgets
  obtain ⟨slot, hslot⟩ := Option.ne_none_iff_exists'.mp (hfree rfl)
  have hkeys : ∀ s ∈ st.entries, s.comm ≠ (⟨value, route, device⟩ : CommEntry).comm := by
    intro s hs heq
    have htaken : s ∈ taken CommEntry.comm st.entries := mem_taken.mpr ⟨hs, heq.trans_ne hne⟩
    obtain ⟨o, ho, -, rfl⟩ := mem_remoteEntries.mp (h.entries.mem_iff.mp htaken)
    exact hfresh o ho heq
  refine ⟨?_, h.nodup_cons hfresh, ?_, h.calls⟩
  · have hlive : (st.addRemote route device value route device).remoteEntries
        = ⟨value, route, device⟩ :: st.remoteEntries := by
      have hcons : ((⟨value, route, device⟩ : Communicator) :: st.live).filter
          (fun o ↦ 0 ≤ o.route) = ⟨value, route, device⟩ :: st.live.filter fun o ↦ 0 ≤ o.route :=
        List.filter_cons_of_pos (decide_eq_true hroute)
      exact congrArg (List.map Communicator.entry) hcons
    have hentries : (st.addRemote route device value route device).entries
        = fillSlot CommEntry.comm st.entries ⟨value, route, device⟩ := by
      rw [← rememberSlot_of_fresh hkeys]
      exact if_neg hne
    rw [hlive, hentries]
    exact (taken_fillSlot hslot hne).trans (h.entries.cons _)
  · intro o ho
    rcases List.mem_cons.mp ho with rfl | ho
    · exact hne
    · exact h.values o ho

theorem Sound.ncclCommInitRank (h : st.Sound) {answer : Option ℕ}
    (hok : ∀ value ∈ answer, st.GetsValue (remoteEnabled settings context) value ∧
      (remoteEnabled settings context → context.namesDevice)) :
    (st.ncclCommInitRank settings context answer).Sound := by
  rcases answer with - | value
  · exact h
  · obtain ⟨hgets, hnames⟩ := hok value rfl
    have hid : remoteCommRouteId st.entries 0 = -2 := rfl
    by_cases henabled : remoteEnabled settings context = true
    · rw [henabled] at hgets
      by_cases hroute : 0 ≤ context.current
      · have hcall : st.remoteCall 0 { context with streamRoute := none }
            = .route context.current := by
          simp only [remoteCall, hid]
          exact if_pos hroute
        have hdevice : context.virtualDevice = context.device := if_pos (hnames henabled)
        simp only [CommState.ncclCommInitRank]
        rw [if_pos henabled, hcall, hdevice]
        exact h.addRemote hroute hgets
      · have hcall : st.remoteCall 0 { context with streamRoute := none } = .refused := by
          simp only [remoteCall, hid]
          exact if_neg hroute
        simp only [CommState.ncclCommInitRank]
        rw [if_pos henabled, hcall]
        exact h
    · simp only [CommState.ncclCommInitRank]
      rw [if_neg henabled]
      exact h.addLocal _ hgets.1 hgets.2.1

theorem Sound.ncclCommInitAll (h : st.Sound) (ranks : List InitAllRank) :
    (st.ncclCommInitAll settings context ranks).Sound := by
  rw [CommState.ncclCommInitAll]
  split_ifs
  · split
    · exact ⟨h.entries, h.distinct, h.values, h.calls⟩
    · exact h
  · exact ⟨h.entries, h.distinct, h.values, h.calls⟩

theorem Sound.initAllRankMain (h : st.Sound) {rank : InitAllRank} {answer : Option ℕ}
    (hok : ∀ value ∈ answer, st.GetsValue (decide (0 ≤ rank.route)) value) :
    (st.initAllRankMain rank answer).Sound := by
  have hthreads : ({ st with threads := st.threads.erase rank } : CommState).Sound :=
    ⟨h.entries, h.distinct, h.values, h.calls⟩
  rcases answer with - | value
  · exact hthreads
  · have hgets := hok value rfl
    by_cases hroute : 0 ≤ rank.route
    · rw [decide_eq_true hroute] at hgets
      simp only [CommState.initAllRankMain]
      rw [if_pos hroute]
      exact hthreads.addRemote hroute hgets
    · simp only [CommState.initAllRankMain]
      rw [if_neg hroute]
      exact hthreads.addLocal _ hgets.1 hgets.2.1

theorem Sound.ncclCommSplit (h : st.Sound) {answer : Option ℕ}
    (hhome : st.UsedAtHome settings comm context)
    (hok : ∀ value ∈ answer, value ≠ 0 → (st.owners comm ≠ [] ∧
      st.GetsValue (st.remoteComm settings comm context) value)) :
    (st.ncclCommSplit settings comm context answer).Sound := by
  have hcalled := h.call hhome
  rcases answer with - | - | value
  · exact hcalled
  · exact hcalled
  · obtain ⟨howned, hgets⟩ := hok (value + 1) rfl (Nat.succ_ne_zero value)
    have hdevice : (st.call settings comm context).splitDevice comm context
        = st.splitDevice comm context := rfl
    have htarget : (st.call settings comm context).target settings comm context
        = st.target settings comm context := rfl
    simp only [CommState.ncclCommSplit]
    rw [htarget, hdevice]
    cases hfind : findComm st.entries comm with
    | none =>
      obtain ⟨o, ho⟩ := List.exists_mem_of_ne_nil _ howned
      have hlocal := remoteComm_of_not_find hfind (hhome o ho (h.not_find hfind o ho))
      rw [target, if_neg (ne_true_of_eq_false hlocal)]
      exact hcalled.addLocal _ hgets.1 hgets.2.1
    | some e =>
      obtain ⟨o, howners, hroute, rfl⟩ := h.find hfind
      obtain ⟨hremote, hcall, hid, hdev⟩ := remoteComm_of_find settings context hfind hroute
      have hsplit : st.splitDevice comm context = o.device := by
        rw [splitDevice, howners]
        rfl
      rw [hremote] at hgets
      rw [target, if_pos hremote, hcall]
      have hid' : remoteCommRouteId (st.call settings comm context).entries comm = o.route := hid
      have hdev' : remoteCommDevice (st.call settings comm context).entries comm = o.device := hdev
      simp only
      rw [hsplit, hid', hdev']
      exact hcalled.addRemote hroute hgets

theorem remoteEntries_filter (st : CommState) (comm : ℕ) :
    ((st.live.filter fun o ↦ o.value ≠ comm).filter fun o ↦ 0 ≤ o.route).map Communicator.entry
      = st.remoteEntries.filter fun e ↦ e.comm ≠ comm := by
  rw [remoteEntries, List.filter_map, List.filter_comm]
  rfl

theorem Sound.release (h : st.Sound) (hhome : st.UsedAtHome settings comm context) :
    (st.release settings comm context).Sound := by
  have hcalled := h.call hhome
  refine ⟨?_, h.distinct.sublist (List.filter_sublist.map _),
    fun o ho ↦ h.values o (List.mem_of_mem_filter ho), hcalled.calls⟩
  have hlive := h.entries.filter fun e ↦ e.comm ≠ comm
  rw [← remoteEntries_filter] at hlive
  refine List.Perm.trans ?_ hlive
  by_cases hremote : st.remoteComm settings comm context = true
  · have hentries : (st.release settings comm context).entries
        = changeSlot CommEntry.comm st.entries comm fun _ ↦ ⟨0, -2, -1⟩ := if_pos hremote
    rw [hentries]
    exact taken_changeSlot_perm_filter h.nodup_comms fun _ ↦ rfl
  · have hentries : (st.release settings comm context).entries = st.entries := if_neg hremote
    have hfind : findComm st.entries comm = none := by
      cases hfind : findComm st.entries comm with
      | none => rfl
      | some e =>
        rw [remoteComm, hfind] at hremote
        exact absurd rfl hremote
    rw [hentries, List.filter_eq_self.mpr]
    intro e he
    refine decide_eq_true fun heq ↦ ?_
    rw [findComm, if_neg (heq ▸ (mem_taken.mp he).2)] at hfind
    exact findSlot_eq_none.mp hfind e (mem_taken.mp he).1 heq

theorem Sound.step (h : st.Sound) {action : NcclAction} {st' : CommState}
    (hok : action.Unambiguous settings st) (hstep : ncclStep settings st action = some st') :
    st'.Sound := by
  rcases action with ⟨context, answer⟩ | ⟨context, ranks⟩ | ⟨rank, answer⟩ |
    ⟨comm, context, answer⟩ | ⟨comm, context⟩ | ⟨comm, context⟩ | ⟨comm, context⟩ | ⟨comm, context⟩
  · exact Option.some.inj hstep ▸ h.ncclCommInitRank hok
  · exact Option.some.inj hstep ▸ h.ncclCommInitAll ranks
  · rw [ncclStep] at hstep
    split_ifs at hstep
    exact Option.some.inj hstep ▸ h.initAllRankMain hok
  · exact Option.some.inj hstep ▸ h.ncclCommSplit hok.1 hok.2
  · exact Option.some.inj hstep ▸ h.release hok
  · exact Option.some.inj hstep ▸ h.release hok
  · exact Option.some.inj hstep ▸ h.call hok
  · exact Option.some.inj hstep ▸ h.ncclCommCuDevice hok

end CommState

/-! ## The runs -/

/-- **Every call finds its communicator** when no value is ambiguous: in every state that is
reached, all calls went to the process of the live communicators of their value and reported its
device, no entry was found for a value that was released, and the registry is exactly the live
remote communicators. -/
theorem communicators_registered {settings : NcclSettings} {actions : List NcclAction}
    {st : CommState}
    (hrun : ((ncclShim settings).restrict fun st action ↦ action.Unambiguous settings st).run {}
      actions = some st) :
    (∀ call ∈ st.calls, call.Right) ∧
      (taken CommEntry.comm st.entries).Perm st.remoteEntries := by
  have hsound : st.Sound := by
    refine Machine.run_invariant _ ?_ CommState.sound_init hrun
    intro st action st' hst hstep
    obtain ⟨hok, hstep⟩ := Machine.step_restrict.mp hstep
    exact hst.step hok hstep
  exact ⟨hsound.calls, hsound.entries⟩

/-- Communicators of two servers and of this machine, one split, one released. -/
theorem communicators_registered_threeProcesses : ∃ st : CommState,
    ((ncclShim {}).restrict fun st action ↦ action.Unambiguous {} st).run {}
      [.initRank ⟨0, 2, true, none⟩ (some 5),
        .initAll ⟨-1, 0, true, none⟩ [⟨0, -1⟩, ⟨4, 1⟩], .rankDone ⟨4, 1⟩ (some 6),
        .rankDone ⟨0, -1⟩ (some 7), .collective 5 ⟨-1, 0, true, none⟩,
        .split 6 ⟨0, 2, true, none⟩ (some 8), .destroy 5 ⟨-1, 0, true, none⟩,
        .cuDevice 8 ⟨-1, 0, true, none⟩, .collective 7 ⟨-1, 0, true, none⟩] = some st ∧
    (∀ call ∈ st.calls, call.Right) ∧
      (taken CommEntry.comm st.entries).Perm st.remoteEntries := by
  refine (Option.isSome_iff_exists.mp ?_).imp fun st hrun ↦
    ⟨hrun, communicators_registered hrun⟩
  decide +kernel

/-- The second of two servers returns a value that the first returned, and calls on its communicator
go to the first. -/
theorem repeated_communicator_misrouted : ∃ st : CommState,
    (ncclShim {}).run {}
      [.initRank ⟨0, 0, true, none⟩ (some 5), .initRank ⟨1, 1, true, none⟩ (some 5),
        .collective 5 ⟨1, 1, true, none⟩] = some st ∧
    ¬∀ call ∈ st.calls, call.Right := by
  refine ⟨_, rfl, fun h ↦ ?_⟩
  have hright := (h ⟨[⟨5, 1, 1⟩, ⟨5, 0, 0⟩], true, .route 0⟩ (List.mem_singleton_self _)).served
    ⟨5, 1, 1⟩ List.mem_cons_self
  exact absurd hright.2 (by decide)

end Lupine
