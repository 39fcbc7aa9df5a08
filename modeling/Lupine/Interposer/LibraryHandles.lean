import Lupine.Cublas.HandleState
import Lupine.Foundation.Machine
import Lupine.Foundation.SlotTable

/-!
# The handle tables of the library shims

The shims for cuBLAS, cuSOLVER and cuFFT keep a table of the objects that were created on a server.
A call looks its handle up: what is found goes to the route of the entry, what is not found goes to
the library of this machine. The first two tables are keyed by the handle that the server returned,
and the handles of cuSOLVER share theirs with its info objects; only cuFFT gives its plans names of
its own.

The values are those of several processes, and the value of a null handle is the mark of a free
slot. So a value that comes up twice is looked up once, and a null handle finds the first free slot
and whatever route that slot was left with.

## Other arguments

Some functions take a second object. The functions of cuSOLVER for singular values and eigenvalues,
and those on matrices of any type, have an info or params object besides the handle; only the handle
is looked up, and the object goes along as it is. The matrix products of cuBLASLt take a cuBLAS
handle, but what is looked up there is the descriptor of the operation, in a table of its own, whose
answer is an input here.

## The record of calls

For every call, and every object it takes, the state keeps where the call went and the objects that
the argument denoted at that moment, so that what is said about a run can be said about the state it
reaches. What the processes answer is not constrained. A function for which there is no shim is
either refused or the local library's, whatever its handle; such functions are left out.
-/

open Foundation

namespace Lupine

/-! ## The tables

The state has what no table has: the objects that are alive, with the process each of them is in,
and for every call where it went. -/

inductive ShimLibrary where
  | cublas
  | cusolver
  | cufft
  deriving DecidableEq, Repr

namespace ShimLibrary

def capacity : ShimLibrary → ℕ
  | cublas => 4096
  | cusolver => 1024
  | cufft => 256

/-- The status of a creation that finds no free slot. -/
def tableFull : ShimLibrary → ℤ
  | cublas | cusolver => 3
  | cufft => 2

end ShimLibrary

/-- `struct handle_entry` and `struct plan_entry`. -/
structure ShimEntry where
  /-- `handle`, for a plan `synthetic`. -/
  handle : ℕ := 0
  /-- `remote`, only read for a plan. -/
  remote : ℕ := 0
  route : ℤ := 0
  /-- What only the table of cuBLAS has. -/
  state : HandleEntry := {}
  deriving DecidableEq, Repr

/-- An object that was created and not destroyed: the handle that the program has, and the one that
the process behind the route returned. A negative route is this machine. -/
structure ShimObject where
  value : ℕ
  remote : ℕ
  route : ℤ
  deriving DecidableEq, Repr

/-- Where a call goes. A setter of cuBLAS is kept for the route of its entry. -/
inductive ShimTarget where
  | localLibrary (handle : ℕ)
  | route (route : ℤ) (handle : ℕ)
  | kept (route : ℤ)
  | refused
  deriving DecidableEq, Repr

/-- A call on an object: the objects that the argument denoted, where the call went with it, and
whether the argument is the one that was looked up. -/
structure ShimCall where
  owners : List ShimObject
  target : ShimTarget
  searched : Bool := true
  deriving DecidableEq, Repr

/-- One table, the live objects of its library, the calls that were made, and the objects that no
program was given. -/
structure ShimTable where
  slots : List ShimEntry
  live : List ShimObject := []
  calls : List ShimCall := []
  orphans : List (ℤ × ℕ) := []
  deriving DecidableEq, Repr

def ShimTable.init (lib : ShimLibrary) : ShimTable where
  slots := List.replicate lib.capacity {}

inductive CreateAnswer where
  | failed (status : ℤ)
  | created (handle : ℕ)
  deriving DecidableEq, Repr

/-! ## The functions

The three libraries share their tables and lookups, and differ in the handle that the program gets,
in the handle that is sent, and in what they do when the table is full. -/

/-- `lupine_cublas_call_on_route`: a request with a stream goes to the stream's route. -/
def callOnRoute (route : ℤ) (stream : ℕ) (streamRoute : ℤ) (handle : ℕ) : ShimTarget :=
  let on := if stream = 0 then route else streamRoute
  if route < 0 ∨ on < 0 then .refused else .route on handle

/-- The same call, as what it does with another argument. -/
def ShimTarget.carry (value : ℕ) : ShimTarget → ShimTarget
  | localLibrary _ => .localLibrary value
  | route on _ => .route on value
  | kept on => .kept on
  | refused => .refused

namespace ShimLibrary

variable (lib : ShimLibrary)

/-- The handle that the program gets for an object of a server. -/
def newHandle (slots : List ShimEntry) (handle : ℕ) : ℕ :=
  match lib with
  | cublas | cusolver => handle
  | cufft => 0x60000000 + slots.findIdx (fun s ↦ s.handle = 0) + 1

/-- The handle in a request: the argument, for a plan that of the entry. -/
def sentHandle (entry : ShimEntry) (value : ℕ) : ℕ :=
  match lib with
  | cublas | cusolver => value
  | cufft => entry.remote

/-- The request of a call on an entry. -/
def send (entry : ShimEntry) (value : ℕ) (streamRoute : ℤ) : ShimTarget :=
  callOnRoute entry.route entry.state.stream streamRoute (lib.sentHandle entry value)

/-- `find`, `find_plan`, and what follows. -/
def dispatch (slots : List ShimEntry) (value : ℕ) (streamRoute : ℤ) : ShimTarget :=
  match findSlot ShimEntry.handle slots value with
  | none => .localLibrary value
  | some entry => lib.send entry value streamRoute

/-- A creation on the current route: the status, and the table. -/
def create (table : ShimTable) (route : ℤ) : CreateAnswer → ℤ × ShimTable
  | .failed status => (status, table)
  | .created handle =>
    if route < 0 then (0, { table with live := ⟨handle, handle, route⟩ :: table.live })
    else
      match findSlot ShimEntry.handle table.slots 0 with
      | none => (lib.tableFull, { table with orphans := (route, handle) :: table.orphans })
      | some _ =>
        let value := lib.newHandle table.slots handle
        (0, { table with
          slots := fillSlot ShimEntry.handle table.slots ⟨value, handle, route, {}⟩
          live := ⟨value, handle, route⟩ :: table.live })

end ShimLibrary

namespace ShimTable

variable (lib : ShimLibrary) (table : ShimTable) (value : ℕ)

def owners : List ShimObject := table.live.filter fun o ↦ o.value = value

def record (target : ShimTarget) (searched : Bool) : ShimTable :=
  { table with calls := ⟨table.owners value, target, searched⟩ :: table.calls }

def call (streamRoute : ℤ) : ShimTable :=
  table.record value (lib.dispatch table.slots value streamRoute) true

/-- A call on a handle, with another object that goes along. -/
def callWith (params : ℕ) (streamRoute : ℤ) : ShimTable :=
  (table.call lib value streamRoute).record params
    ((lib.dispatch table.slots value streamRoute).carry params) false

/-- A destruction: the slot is free before the request is sent. -/
def destroy (streamRoute : ℤ) : ShimTable :=
  let table := table.call lib value streamRoute
  { table with
    slots := changeSlot ShimEntry.handle table.slots value fun e ↦ { e with handle := 0 }
    live := table.live.filter fun o ↦ o.value ≠ value }

/-- A setter of a cuBLAS handle, which makes no round trip when there is an entry. -/
def set (setter : CublasSetter) : ShimTable :=
  match findSlot ShimEntry.handle table.slots value with
  | none => table.record value (.localLibrary value) true
  | some entry =>
    { table.record value (.kept entry.route) true with
      slots := changeSlot ShimEntry.handle table.slots value
        fun e ↦ { e with state := e.state.set setter } }

end ShimTable

section Functions

variable (table : ShimTable)

/-- `cublasCreate_v2`. -/
def cublasCreate := ShimLibrary.cublas.create table

/-- `cublasDestroy_v2`. -/
def cublasDestroy := table.destroy .cublas

def cublasCompute := table.call .cublas

/-- `cublasLtMatmul` and `cublasLtMatmulAlgoGetHeuristic` on a cuBLAS handle, with the route of the
entry that `find_object` has for the operation. The second has no stream. -/
def cublasLtMatmul (handle : ℕ) (operation : Option ℤ) (stream : ℕ) (streamRoute : ℤ) : ShimTable :=
  table.record handle
    (match operation with
    | none => .localLibrary handle
    | some route => callOnRoute route stream streamRoute handle)
    false

/-- `cusolverDnCreate`. -/
def cusolverDnCreate := ShimLibrary.cusolver.create table

/-- `cusolverDnDestroy`. -/
def cusolverDnDestroy (value : ℕ) := table.destroy .cusolver value 0

/-- `cusolverDnCreateGesvdjInfo`. -/
def cusolverDnCreateGesvdjInfo := ShimLibrary.cusolver.create table

/-- `cusolverDnDestroyGesvdjInfo`. -/
def cusolverDnDestroyGesvdjInfo (value : ℕ) := table.destroy .cusolver value 0

/-- `cusolverDnCreateParams`. -/
def cusolverDnCreateParams := ShimLibrary.cusolver.create table

/-- `cusolverDnDestroyParams`. -/
def cusolverDnDestroyParams (value : ℕ) := table.destroy .cusolver value 0

/-- `cusolverDnSetStream`, `cusolverDnXgesvdjSetTolerance`, `cusolverDnSetAdvOptions` and every
other function of cuSOLVER on a handle, an info or a params object alone. -/
def cusolverCall (value : ℕ) := table.call .cusolver value 0

/-- A function of cuSOLVER on a handle and an info or params object: `cusolverDnDgesvdj`,
`cusolverDnDsyevjBatched`, `cusolverDnXpotrf`, `cusolverDnXgeqrf`, `cusolverDnXgeev`,
`cusolverDnXsyevBatched`, the others of their kinds and their `_bufferSize`. -/
def cusolverCallWith (value params : ℕ) := table.callWith .cusolver value params 0

/-- `cufftCreate`. -/
def cufftCreate := ShimLibrary.cufft.create table

/-- `cufftDestroy`. -/
def cufftDestroy (value : ℕ) := table.destroy .cufft value 0

/-- `plan_control`, `cufftXtMakePlanMany` and `cufftXtExec`. -/
def cufftCall (value : ℕ) := table.call .cufft value 0

end Functions

/-! ## The machine

An action belongs to one library and changes the table of that library only. -/

/-- What the program does, with the current route or the route of the handle's stream. -/
inductive ShimAction where
  | cublasCreate (route : ℤ) (answer : CreateAnswer)
  | cublasDestroy (handle : ℕ) (streamRoute : ℤ)
  | cublasSet (handle : ℕ) (setter : CublasSetter)
  | cublasCompute (handle : ℕ) (streamRoute : ℤ)
  | cublasLtMatmul (handle : ℕ) (operation : Option ℤ) (stream : ℕ) (streamRoute : ℤ)
  | cusolverDnCreate (route : ℤ) (answer : CreateAnswer)
  | cusolverDnDestroy (handle : ℕ)
  | cusolverDnCreateGesvdjInfo (route : ℤ) (answer : CreateAnswer)
  | cusolverDnDestroyGesvdjInfo (info : ℕ)
  | cusolverDnCreateParams (route : ℤ) (answer : CreateAnswer)
  | cusolverDnDestroyParams (params : ℕ)
  | cusolverCall (handle : ℕ)
  | cusolverCallWith (handle params : ℕ)
  | cufftCreate (route : ℤ) (answer : CreateAnswer)
  | cufftDestroy (plan : ℕ)
  | cufftCall (plan : ℕ)
  deriving DecidableEq, Repr

namespace ShimAction

def library : ShimAction → ShimLibrary
  | cublasCreate .. | cublasDestroy .. | cublasSet .. | cublasCompute .. | cublasLtMatmul .. =>
    .cublas
  | cusolverDnCreate .. | cusolverDnDestroy _ | cusolverDnCreateGesvdjInfo ..
  | cusolverDnDestroyGesvdjInfo _ | cusolverDnCreateParams .. | cusolverDnDestroyParams _
  | cusolverCall _ | cusolverCallWith .. => .cusolver
  | cufftCreate .. | cufftDestroy _ | cufftCall _ => .cufft

def apply (table : ShimTable) : ShimAction → ShimTable
  | cublasCreate route answer => (Lupine.cublasCreate table route answer).2
  | cublasDestroy handle streamRoute => Lupine.cublasDestroy table handle streamRoute
  | cublasSet handle setter => table.set handle setter
  | cublasCompute handle streamRoute => Lupine.cublasCompute table handle streamRoute
  | cublasLtMatmul handle operation stream streamRoute =>
    Lupine.cublasLtMatmul table handle operation stream streamRoute
  | cusolverDnCreate route answer => (Lupine.cusolverDnCreate table route answer).2
  | cusolverDnDestroy handle => Lupine.cusolverDnDestroy table handle
  | cusolverDnCreateGesvdjInfo route answer =>
    (Lupine.cusolverDnCreateGesvdjInfo table route answer).2
  | cusolverDnDestroyGesvdjInfo info => Lupine.cusolverDnDestroyGesvdjInfo table info
  | cusolverDnCreateParams route answer => (Lupine.cusolverDnCreateParams table route answer).2
  | cusolverDnDestroyParams params => Lupine.cusolverDnDestroyParams table params
  | cusolverCall handle => Lupine.cusolverCall table handle
  | cusolverCallWith handle params => Lupine.cusolverCallWith table handle params
  | cufftCreate route answer => (Lupine.cufftCreate table route answer).2
  | cufftDestroy plan => Lupine.cufftDestroy table plan
  | cufftCall plan => Lupine.cufftCall table plan

end ShimAction

/-- The tables of all three shims. -/
abbrev ShimState := ShimLibrary → ShimTable

def shims : Machine ShimState ShimAction where
  step st action :=
    some (Function.update st action.library (action.apply (st action.library)))

/-! ## When it goes well

The condition is on the state before the action: a new handle is none that is alive, a null handle
meets no free slot, and the objects of one call live together. -/

/-- A created object gets a handle that no live object has and that is not null, and a slot. -/
def ShimTable.GetsHandle (lib : ShimLibrary) (table : ShimTable) (route : ℤ) :
    CreateAnswer → Prop
  | .failed _ => True
  | .created handle =>
    let value := if route < 0 then handle else lib.newHandle table.slots handle
    value ≠ 0 ∧ (∀ o ∈ table.live, o.value ≠ value) ∧
      (0 ≤ route → findSlot ShimEntry.handle table.slots 0 ≠ none)

/-- A null handle finds no slot, and the stream of a handle is one of its route. -/
def ShimTable.Addressed (table : ShimTable) (value : ℕ) (streamRoute : ℤ) : Prop :=
  (value = 0 → findSlot ShimEntry.handle table.slots 0 = none) ∧
    ∀ e ∈ findSlot ShimEntry.handle table.slots value,
      e.state.stream ≠ 0 → streamRoute = e.route

/-- The objects that an argument denotes are where the call goes: on this machine, or on a route, to
which the stream of the call belongs too. -/
def ShimTable.LivesAt (table : ShimTable) (value : ℕ) (place : Option ℤ) (stream : ℕ)
    (streamRoute : ℤ) : Prop :=
  ∀ o ∈ table.owners value, (place = none → o.route < 0) ∧
    ∀ route ∈ place, 0 ≤ route ∧ o.route = route ∧ (stream ≠ 0 → streamRoute = route)

def ShimTable.place (table : ShimTable) (value : ℕ) : Option ℤ :=
  (findSlot ShimEntry.handle table.slots value).map ShimEntry.route

instance (lib : ShimLibrary) (table : ShimTable) (route : ℤ) :
    ∀ answer, Decidable (table.GetsHandle lib route answer)
  | .failed _ => inferInstanceAs (Decidable True)
  | .created _ => inferInstanceAs (Decidable (_ ∧ _ ∧ _))

instance (table : ShimTable) (value : ℕ) (streamRoute : ℤ) :
    Decidable (table.Addressed value streamRoute) := inferInstanceAs (Decidable (_ ∧ _))

instance (table : ShimTable) (value : ℕ) (place : Option ℤ) (stream : ℕ) (streamRoute : ℤ) :
    Decidable (table.LivesAt value place stream streamRoute) :=
  inferInstanceAs (Decidable (∀ _ ∈ _, _))

/-- The condition on an action. A setter needs none. -/
def ShimAction.Unambiguous (st : ShimState) : ShimAction → Prop
  | cublasCreate route answer => (st .cublas).GetsHandle .cublas route answer
  | cusolverDnCreate route answer | cusolverDnCreateGesvdjInfo route answer
  | cusolverDnCreateParams route answer =>
    (st .cusolver).GetsHandle .cusolver route answer
  | cufftCreate route answer => (st .cufft).GetsHandle .cufft route answer
  | cublasDestroy handle streamRoute | cublasCompute handle streamRoute =>
    (st .cublas).Addressed handle streamRoute
  | cublasSet .. => True
  | cublasLtMatmul handle operation stream streamRoute =>
    (st .cublas).LivesAt handle operation stream streamRoute
  | cusolverDnDestroy handle | cusolverDnDestroyGesvdjInfo handle | cusolverDnDestroyParams handle
  | cusolverCall handle =>
    (st .cusolver).Addressed handle 0
  | cusolverCallWith handle params =>
    (st .cusolver).Addressed handle 0 ∧
      (st .cusolver).LivesAt params ((st .cusolver).place handle) 0 0
  | cufftDestroy plan | cufftCall plan => (st .cufft).Addressed plan 0

instance (st : ShimState) : ∀ action : ShimAction, Decidable (action.Unambiguous st)
  | .cublasCreate .. | .cusolverDnCreate .. | .cusolverDnCreateGesvdjInfo ..
  | .cusolverDnCreateParams .. | .cufftCreate .. =>
    inferInstanceAs (Decidable (ShimTable.GetsHandle ..))
  | .cublasDestroy .. | .cublasCompute .. | .cusolverDnDestroy _ | .cusolverDnDestroyGesvdjInfo _
  | .cusolverDnDestroyParams _ | .cusolverCall _ | .cufftDestroy _ | .cufftCall _ =>
    inferInstanceAs (Decidable (ShimTable.Addressed ..))
  | .cublasLtMatmul .. => inferInstanceAs (Decidable (ShimTable.LivesAt ..))
  | .cusolverCallWith .. =>
    inferInstanceAs (Decidable (ShimTable.Addressed .. ∧ ShimTable.LivesAt ..))
  | .cublasSet .. => inferInstanceAs (Decidable True)

/-! ## What is right

A table that is sound has one entry for each live object of a server. Two live objects have
different handles, so what a search finds is the entry of the one that the handle denotes, and what
it does not find is local or no object. -/

/-- A call on an object reaches it: its process, with the handle that the process returned. -/
def ShimObject.Served (object : ShimObject) : ShimTarget → Prop
  | .localLibrary handle => object.route < 0 ∧ handle = object.remote
  | .route route handle => 0 ≤ route ∧ route = object.route ∧ handle = object.remote
  | .kept route => 0 ≤ route ∧ route = object.route
  | .refused => False

/-- A call that leaves this machine. -/
def ShimTarget.ReachesRoute : ShimTarget → Prop
  | .route .. => True
  | .localLibrary _ | .kept _ | .refused => False

/-- A call reaches every object that the argument denotes, and no route when it was looked up and
denotes none. -/
structure ShimCall.Right (call : ShimCall) : Prop where
  served : ∀ object ∈ call.owners, object.Served call.target
  stays : call.searched = true → call.owners = [] → ¬call.target.ReachesRoute

def ShimLibrary.object (lib : ShimLibrary) (e : ShimEntry) : ShimObject :=
  ⟨e.handle, lib.sentHandle e e.handle, e.route⟩

/-- The table has one entry for each live object of a server and no others. -/
structure ShimTable.Sound (lib : ShimLibrary) (table : ShimTable) : Prop where
  entries : ((taken ShimEntry.handle table.slots).map lib.object).Perm
    (table.live.filter fun o ↦ 0 ≤ o.route)
  distinct : (table.live.map ShimObject.value).Nodup
  values : ∀ o ∈ table.live, o.value ≠ 0 ∧ (o.route < 0 → o.remote = o.value)
  calls : ∀ call ∈ table.calls, call.Right
  orphans : table.orphans = []

namespace ShimTable

variable {lib : ShimLibrary} {table : ShimTable} {value : ℕ} {e : ShimEntry}

theorem sound_init (lib : ShimLibrary) : (init lib).Sound lib where
  entries := by
    have hnil : taken ShimEntry.handle (init lib).slots = [] := taken_replicate _ rfl
    rw [hnil]
    exact List.Perm.refl _
  distinct := List.nodup_nil
  values := fun _ h ↦ (nomatch h)
  calls := fun _ h ↦ (nomatch h)
  orphans := rfl

theorem Sound.mem_live (h : table.Sound lib) {o : ShimObject} :
    (∃ e ∈ taken ShimEntry.handle table.slots, lib.object e = o) ↔
      o ∈ table.live ∧ 0 ≤ o.route := by
  have hmem := h.entries.mem_iff (a := o)
  rwa [List.mem_map, List.mem_filter, decide_eq_true_iff] at hmem

theorem Sound.nodup_handles (h : table.Sound lib) :
    ((taken ShimEntry.handle table.slots).map ShimEntry.handle).Nodup := by
  have hsub : ((table.live.filter fun o ↦ 0 ≤ o.route).map ShimObject.value).Nodup :=
    h.distinct.sublist (List.filter_sublist.map _)
  have hperm := (h.entries.map ShimObject.value).nodup_iff.mpr hsub
  rwa [List.map_map] at hperm

theorem mem_owners {o : ShimObject} :
    o ∈ table.owners value ↔ o ∈ table.live ∧ o.value = value := by
  rw [owners, List.mem_filter, decide_eq_true_iff]

theorem Sound.eq_of_value (h : table.Sound lib) {o o' : ShimObject} (ho : o ∈ table.live)
    (ho' : o' ∈ table.live) (hvalue : o.value = o'.value) : o = o' :=
  List.inj_on_of_nodup_map h.distinct ho ho' hvalue

/-- What a search finds is the entry of the one live object with that handle. -/
theorem Sound.find (h : table.Sound lib) (hvalue : value ≠ 0)
    (hfind : findSlot ShimEntry.handle table.slots value = some e) :
    lib.object e ∈ table.live ∧ 0 ≤ e.route ∧ ∀ o ∈ table.owners value, o = lib.object e := by
  obtain ⟨htaken, hkey⟩ := (findSlot_eq_some_iff h.nodup_handles hvalue).mp hfind
  obtain ⟨hlive, hroute⟩ := h.mem_live.mp ⟨e, htaken, rfl⟩
  refine ⟨hlive, hroute, fun o ho ↦ ?_⟩
  obtain ⟨homem, hoval⟩ := mem_owners.mp ho
  exact h.eq_of_value homem hlive (hoval.trans hkey.symm)

/-- What a search does not find is local, or no object. -/
theorem Sound.not_find (h : table.Sound lib)
    (hfind : findSlot ShimEntry.handle table.slots value = none) :
    ∀ o ∈ table.owners value, o.route < 0 := by
  intro o ho
  obtain ⟨hmem, hvalue⟩ := mem_owners.mp ho
  by_contra hroute
  obtain ⟨e, he, rfl⟩ := h.mem_live.mpr ⟨hmem, Int.not_lt.mp hroute⟩
  exact findSlot_eq_none.mp hfind e (mem_taken.mp he).1 hvalue

theorem Sound.right_local (h : table.Sound lib)
    (hfind : findSlot ShimEntry.handle table.slots value = none) :
    ShimCall.Right ⟨table.owners value, .localLibrary value, true⟩ where
  served o ho := by
    obtain ⟨hmem, hvalue⟩ := mem_owners.mp ho
    have hroute := h.not_find hfind o ho
    exact ⟨hroute, hvalue.symm.trans ((h.values o hmem).2 hroute).symm⟩
  stays _ _ := id

theorem Sound.dispatch_some (h : table.Sound lib) {streamRoute : ℤ}
    (haddr : table.Addressed value streamRoute)
    (hfind : findSlot ShimEntry.handle table.slots value = some e) :
    value ≠ 0 ∧ 0 ≤ e.route ∧ lib.dispatch table.slots value streamRoute
      = .route e.route (lib.sentHandle e value) := by
  have hvalue : value ≠ 0 := by
    rintro rfl
    exact absurd (hfind.symm.trans (haddr.1 rfl)) (Option.some_ne_none e)
  obtain ⟨-, hroute, -⟩ := h.find hvalue hfind
  have hstream : (if e.state.stream = 0 then e.route else streamRoute) = e.route := by
    by_cases hzero : e.state.stream = 0
    · rw [if_pos hzero]
    · rw [if_neg hzero]
      exact haddr.2 e hfind hzero
  refine ⟨hvalue, hroute, ?_⟩
  rw [ShimLibrary.dispatch, hfind]
  simp only [ShimLibrary.send, callOnRoute]
  rw [hstream, if_neg (by omega)]

theorem Sound.served_local (h : table.Sound lib) {stream : ℕ} {streamRoute : ℤ}
    (hlives : table.LivesAt value none stream streamRoute) {o : ShimObject}
    (ho : o ∈ table.owners value) : o.Served (.localLibrary value) := by
  have hlocal := (hlives o ho).1 rfl
  obtain ⟨hmem, rfl⟩ := mem_owners.mp ho
  exact ⟨hlocal, ((h.values o hmem).2 hlocal).symm⟩

/-- So does one that goes along to a route and lives there, where handles are those of the
processes. -/
theorem Sound.served_route (h : table.Sound lib) (hlib : ∀ e, lib.sentHandle e value = value)
    {route : ℤ} {stream : ℕ} {streamRoute : ℤ}
    (hlives : table.LivesAt value (some route) stream streamRoute) {o : ShimObject}
    (ho : o ∈ table.owners value) : o.Served (.route route value) := by
  obtain ⟨hroute, heq, -⟩ := (hlives o ho).2 route rfl
  obtain ⟨hmem, rfl⟩ := mem_owners.mp ho
  obtain ⟨e, -, rfl⟩ := h.mem_live.mpr ⟨hmem, heq ▸ hroute⟩
  exact ⟨hroute, heq.symm, (hlib e).symm⟩

/-! ### The steps

Recording a call that is right, adding an entry and taking one out are all that happens to a
table. -/

theorem Sound.record (h : table.Sound lib) {target : ShimTarget} {searched : Bool}
    (hright : ShimCall.Right ⟨table.owners value, target, searched⟩) :
    (table.record value target searched).Sound lib where
  entries := h.entries
  distinct := h.distinct
  values := h.values
  orphans := h.orphans
  calls := by
    intro call hcall
    rcases List.mem_cons.mp hcall with rfl | hcall
    · exact hright
    · exact h.calls call hcall

theorem Sound.call (h : table.Sound lib) {streamRoute : ℤ}
    (haddr : table.Addressed value streamRoute) : (table.call lib value streamRoute).Sound lib := by
  refine h.record ?_
  cases hfind : findSlot ShimEntry.handle table.slots value with
  | none =>
    rw [ShimLibrary.dispatch, hfind]
    exact h.right_local hfind
  | some e =>
    obtain ⟨hvalue, hroute, htarget⟩ := h.dispatch_some haddr hfind
    obtain ⟨hlive, -, howner⟩ := h.find hvalue hfind
    have hkey : e.handle = value := key_of_findSlot hfind
    rw [htarget]
    constructor
    · intro o ho
      obtain rfl := howner o ho
      exact ⟨hroute, rfl, by rw [ShimLibrary.object, hkey]⟩
    · intro _ hnil
      have hmem : lib.object e ∈ table.owners value := mem_owners.mpr ⟨hlive, hkey⟩
      exact absurd (hnil ▸ hmem : lib.object e ∈ []) List.not_mem_nil

theorem Sound.callWith (h : table.Sound lib) {params : ℕ}
    (hlib : ∀ e, lib.sentHandle e params = params) {streamRoute : ℤ}
    (haddr : table.Addressed value streamRoute)
    (hlives : table.LivesAt params (table.place value) 0 0) :
    (table.callWith lib value params streamRoute).Sound lib := by
  refine (h.call haddr).record ⟨fun o ho ↦ ?_, fun hsearched ↦ absurd hsearched Bool.false_ne_true⟩
  cases hfind : findSlot ShimEntry.handle table.slots value with
  | none =>
    have hplace : table.place value = none := congrArg _ hfind
    rw [ShimLibrary.dispatch, hfind]
    exact h.served_local (hplace ▸ hlives) ho
  | some e =>
    have hplace : table.place value = some e.route := congrArg _ hfind
    rw [(h.dispatch_some haddr hfind).2.2]
    rw [ShimTarget.carry]
    exact h.served_route hlib (hplace ▸ hlives) ho

theorem Sound.cublasLtMatmul (h : table.Sound .cublas) {operation : Option ℤ} {stream : ℕ}
    {streamRoute : ℤ} (hlives : table.LivesAt value operation stream streamRoute) :
    (Lupine.cublasLtMatmul table value operation stream streamRoute).Sound .cublas := by
  refine h.record ⟨fun o ho ↦ ?_, fun hsearched ↦ absurd hsearched Bool.false_ne_true⟩
  cases operation with
  | none => exact h.served_local hlives ho
  | some route =>
    obtain ⟨hroute, -, hstream⟩ := (hlives o ho).2 route rfl
    have hon : (if stream = 0 then route else streamRoute) = route := by
      by_cases hzero : stream = 0
      · rw [if_pos hzero]
      · rw [if_neg hzero, hstream hzero]
    have htarget : callOnRoute route stream streamRoute value = .route route value := by
      simp only [callOnRoute]
      rw [hon, if_neg (by omega)]
    simp only [htarget]
    exact h.served_route (fun _ ↦ rfl) hlives ho

theorem Sound.entries_clear (h : table.Sound lib) (value : ℕ) :
    ((taken ShimEntry.handle (changeSlot ShimEntry.handle table.slots value
        fun e ↦ { e with handle := 0 })).map lib.object).Perm
      ((table.live.filter fun o ↦ o.value ≠ value).filter fun o ↦ 0 ≤ o.route) := by
  have hclear := taken_changeSlot_perm_filter (k := value)
    (f := fun e : ShimEntry ↦ { e with handle := 0 }) h.nodup_handles fun _ ↦ rfl
  have hlive := h.entries.filter fun o ↦ o.value ≠ value
  rw [List.filter_map, List.filter_comm] at hlive
  exact (hclear.map lib.object).trans hlive

theorem Sound.destroy (h : table.Sound lib) {streamRoute : ℤ}
    (haddr : table.Addressed value streamRoute) :
    (table.destroy lib value streamRoute).Sound lib where
  entries := h.entries_clear value
  distinct := h.distinct.sublist (List.filter_sublist.map _)
  values o ho := h.values o (List.mem_of_mem_filter ho)
  calls := (h.call haddr).calls
  orphans := h.orphans

theorem Sound.set (h : table.Sound lib) (setter : CublasSetter) :
    (table.set value setter).Sound lib := by
  rw [ShimTable.set]
  cases hfind : findSlot ShimEntry.handle table.slots value with
  | none => exact h.record (h.right_local hfind)
  | some e =>
    have hright : ShimCall.Right ⟨table.owners value, .kept e.route, true⟩ := by
      constructor
      · intro o ho
        have hvalue : value ≠ 0 := by
          obtain ⟨hmem, rfl⟩ := mem_owners.mp ho
          exact (h.values o hmem).1
        obtain ⟨-, hroute, howner⟩ := h.find hvalue hfind
        obtain rfl := howner o ho
        exact ⟨hroute, rfl⟩
      · exact fun _ _ ↦ id
    have hsound := h.record hright
    refine ⟨?_, hsound.distinct, hsound.values, hsound.calls, hsound.orphans⟩
    simp only
    rw [map_taken_changeSlot hfind rfl]
    · exact h.entries
    · cases lib <;> rfl

theorem Sound.create (h : table.Sound lib) {route : ℤ} {answer : CreateAnswer}
    (hgets : table.GetsHandle lib route answer) : (lib.create table route answer).2.Sound lib := by
  cases answer with
  | failed status => exact h
  | created handle =>
    obtain ⟨hne, hfresh, hfree⟩ := hgets
    by_cases hroute : route < 0
    -- an object of this machine needs no slot
    · rw [ShimLibrary.create, if_pos hroute]
      rw [if_pos hroute] at hne hfresh
      refine ⟨?_, ?_, ?_, h.calls, h.orphans⟩
      · rw [List.filter_cons_of_neg (by rw [decide_eq_true_iff]; exact Int.not_le.mpr hroute)]
        exact h.entries
      · rw [List.map_cons, List.nodup_cons, List.mem_map]
        exact ⟨fun ⟨o, ho, hvalue⟩ ↦ hfresh o ho hvalue, h.distinct⟩
      · intro o ho
        rcases List.mem_cons.mp ho with rfl | ho
        · exact ⟨hne, fun _ ↦ rfl⟩
        · exact h.values o ho
    · rw [if_neg hroute] at hne hfresh
      have hroute' : 0 ≤ route := Int.not_lt.mp hroute
      obtain ⟨slot, hslot⟩ := Option.ne_none_iff_exists'.mp (hfree hroute')
      rw [ShimLibrary.create, if_neg hroute, hslot]
      simp only
      refine ⟨?_, ?_, ?_, h.calls, h.orphans⟩
      · have hlive : (⟨lib.newHandle table.slots handle, handle, route⟩ :: table.live).filter
            (fun o ↦ 0 ≤ o.route) = ⟨lib.newHandle table.slots handle, handle, route⟩ ::
              table.live.filter fun o ↦ 0 ≤ o.route :=
          List.filter_cons_of_pos (decide_eq_true hroute')
        rw [hlive]
        -- the new entry fills a slot that was empty, so the entries are those before and one more
        have hfill := (taken_fillSlot (x := ⟨lib.newHandle table.slots handle, handle, route, {}⟩)
          hslot hne).map lib.object
        have hobject : lib.object ⟨lib.newHandle table.slots handle, handle, route, {}⟩
            = ⟨lib.newHandle table.slots handle, handle, route⟩ := by
          cases lib <;> rfl
        rw [List.map_cons, hobject] at hfill
        exact hfill.trans (h.entries.cons _)
      · rw [List.map_cons, List.nodup_cons, List.mem_map]
        -- the library gives out no value that is in use
        exact ⟨fun ⟨o, ho, hvalue⟩ ↦ hfresh o ho hvalue, h.distinct⟩
      · intro o ho
        rcases List.mem_cons.mp ho with rfl | ho
        · exact ⟨hne, fun hneg ↦ absurd hneg hroute⟩
        · exact h.values o ho

end ShimTable

/-! ## The runs -/

theorem ShimAction.sound_apply {st : ShimState} (h : ∀ lib, (st lib).Sound lib) :
    ∀ action : ShimAction, action.Unambiguous st →
      (action.apply (st action.library)).Sound action.library
  | .cublasCreate .., hok => (h .cublas).create hok
  | .cublasDestroy .., hok => (h .cublas).destroy hok
  | .cublasSet _ setter, _ => (h .cublas).set setter
  | .cublasCompute .., hok => (h .cublas).call hok
  | .cublasLtMatmul .., hok => (h .cublas).cublasLtMatmul hok
  | .cusolverDnCreate .., hok | .cusolverDnCreateGesvdjInfo .., hok
  | .cusolverDnCreateParams .., hok => (h .cusolver).create hok
  | .cusolverDnDestroy _, hok | .cusolverDnDestroyGesvdjInfo _, hok
  | .cusolverDnDestroyParams _, hok => (h .cusolver).destroy hok
  | .cusolverCall _, hok => (h .cusolver).call hok
  | .cusolverCallWith .., hok => (h .cusolver).callWith (fun _ ↦ rfl) hok.1 hok.2
  | .cufftCreate .., hok => (h .cufft).create hok
  | .cufftDestroy _, hok => (h .cufft).destroy hok
  | .cufftCall _, hok => (h .cufft).call hok

end Lupine
