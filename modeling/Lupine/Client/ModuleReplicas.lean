import Lupine.Cuda
import Lupine.Foundation.Machine
import Lupine.Foundation.Replicas

/-!
# Modules and functions on several routes

The client keeps the image of each module that is loaded from memory. A function that is launched
on another route than its own is looked up there in a replica of its module, which is loaded from
the recorded image the first time. The replicas of modules and of functions are kept by route.

## What is never dropped

`cuModuleUnload` clears the caches of attributes and of parameter layouts. The records of images
and of functions stay, with their replicas, and so do the replicas themselves in their drivers. So

* a function of an unloaded module is still launched on a route that has a replica;
* a handle that the driver hands out again gets a new image, or a new name, and keeps the replicas
  of the old one. After `cuModuleLoad`, which records no image, even the image is the old one.

And a replica on the local route is loaded from the application's pointer instead of the recorded
bytes.

## What is left out

Libraries with their kernels and modules, and the private functions, have tables of their own. Calls
that a driver refuses change nothing here.

## What is known of the tables

`Faithful` relates the records to the drivers: a handle that is alive is alive at its owner only,
its record says what it is, and its replicas are modules with the same image or functions of the
same name. It is kept by three things a driver does (loading a module, handing out a function,
unloading a module) under conditions on the handle that is handed out, and a resolution is a
sequence of these.
-/

open Foundation

namespace Lupine

/-! ## The drivers

A driver is the modules and the functions that are alive in it. Loading gives a handle that is not
alive, which may be one that was alive before; that is all that is said about handles. -/

/-- A module image as `lupine_pack_module_image` packs it. -/
structure ModuleImage where
  kind : UInt32
  image : List UInt8
  deriving DecidableEq, Repr

structure NamedFunction where
  module : ℕ
  name : String
  deriving DecidableEq, Repr

structure ModuleDriver where
  modules : ℕ → Option ModuleImage := fun _ ↦ none
  functions : ℕ → Option NamedFunction := fun _ ↦ none

namespace ModuleDriver

variable (driver : ModuleDriver)

/-- `cuModuleLoadData`. The handle is that of no module now; it may have been one before. -/
def load (image : ModuleImage) (handle : ℕ) : Option ModuleDriver :=
  if handle ≠ 0 ∧ driver.modules handle = none then
    some { driver with modules := Function.update driver.modules handle (some image) }
  else none

/-- `cuModuleGetFunction`. The handle is new, or that of the same function. -/
def getFunction (function : NamedFunction) (handle : ℕ) : Option ModuleDriver :=
  if handle ≠ 0 ∧ driver.modules function.module ≠ none ∧
      (driver.functions handle = none ∨ driver.functions handle = some function) then
    some { driver with functions := Function.update driver.functions handle (some function) }
  else none

/-- `cuModuleUnload`. The functions go with the module. -/
def unload (module : ℕ) : Option ModuleDriver :=
  if driver.modules module ≠ none then
    some {
      modules := Function.update driver.modules module none
      functions := fun handle ↦ (driver.functions handle).filter (·.module ≠ module) }
  else none

/-- What runs when a function is launched: its name, and the image of its module. -/
def denotes (handle : ℕ) : Option (String × ModuleImage) :=
  (driver.functions handle).bind fun function ↦
    (driver.modules function.module).map fun image ↦ (function.name, image)

end ModuleDriver

/-! ## The client

The tables are kept by the identity of the route, as in the source. Every resolution is noted with
what the handle denoted and with what was found, which is what the result is about. -/

/-- What `lupine_module_image_record` says of a module, apart from `modules_by_route`. -/
structure LoadedImage where
  packed : ModuleImage
  imagePtr : HostPtr
  deriving DecidableEq, Repr

/-- A function that was resolved for a route: what the handle denotes on the route of its owner,
what the function it was resolved to denotes on the route that was asked for, and what that denotes
on its own route, where it would run. -/
structure ResolvedFunction where
  route : ℤ
  asked : Option (String × ModuleImage)
  found : Option (String × ModuleImage)
  ran : Option (String × ModuleImage)
  deriving DecidableEq, Repr

/-- A handle that denotes a function is resolved to that function, and nothing else runs. There is
no function on the invalid route. -/
def ResolvedFunction.Right (f : ResolvedFunction) : Prop :=
  (-1 ≤ f.route → f.asked ≠ none → f.found = f.asked) ∧ (f.ran ≠ none → f.ran = f.asked)

instance (f : ResolvedFunction) : Decidable f.Right :=
  inferInstanceAs (Decidable (_ ∧ _))

/-- The drivers by the identities of the routes to them, `lupine_owners` of modules and functions,
`lupine_module_images` and `lupine_module_functions`, whose replicas are `modules_by_route` and
`functions_by_route`, and what was resolved so far. -/
structure ModuleClient where
  servers : ℤ → ModuleDriver := fun _ ↦ {}
  moduleOwners : AList (fun _ : ℕ ↦ ℤ) := ∅
  functionOwners : AList (fun _ : ℕ ↦ ℤ) := ∅
  moduleImages : ReplicaTable ℕ LoadedImage ℤ ℕ := ∅
  moduleFunctions : ReplicaTable ℕ NamedFunction ℤ ℕ := ∅
  resolved : List ResolvedFunction := []

namespace ModuleClient

variable (st : ModuleClient)

def setServer (route : ℤ) (server : ModuleDriver) : ModuleClient :=
  { st with servers := Function.update st.servers route server }

/-- `lupine_route_for_module`, with the identity of the default route. -/
def routeForModule (fallback : ℤ) (module : ℕ) : ℤ :=
  (st.moduleOwners.lookup module).getD fallback

/-- `lupine_route_for_function`. -/
def routeForFunction (fallback : ℤ) (function : ℕ) : ℤ :=
  (st.functionOwners.lookup function).getD fallback

def noteModuleOwner (module : ℕ) (route : ℤ) : ModuleClient :=
  { st with moduleOwners := st.moduleOwners.insert module route }

def noteFunctionOwner (function : ℕ) (route : ℤ) : ModuleClient :=
  { st with functionOwners := st.functionOwners.insert function route }

/-- `lupine_record_module_image`. -/
def recordModuleImage (module : ℕ) (route : ℤ) (image : LoadedImage) : ModuleClient :=
  if image.packed.image = [] then st
  else { st with moduleImages := st.moduleImages.record module image route module }

/-- `lupine_record_module_function`. The owner is noted first; `warmed` says whether the function's
parameter layout could be read. -/
def recordModuleFunction (function : ℕ) (record : NamedFunction) (route : ℤ) (warmed : Bool) :
    ModuleClient :=
  let noted := st.noteFunctionOwner function route
  if warmed then
    let moduleFunctions := noted.moduleFunctions.record function record route function
    { noted with moduleFunctions }
  else noted

/-- What the calls find outside: the default route, what `image_ptr` points to, and what the drivers
hand out. `loaded` and `found` are `none` where the driver refuses. -/
structure Answers where
  fallback : ℤ
  memory : ModuleImage
  loaded : Option ℕ
  found : Option ℕ
  warmed : Bool

variable (answers : Answers)

/-- `lupine_load_recorded_module_on_route` behind its checks; the module is `none` on failure. -/
def loadRecordedModuleOnRoute (source : ℕ) (route : ℤ) : Option (ModuleClient × Option ℕ) :=
  match st.moduleImages.value? source with
  | none =>
    some (st, if st.routeForModule answers.fallback source = route then some source else none)
  | some record =>
    match st.moduleImages.replica? source route, answers.loaded with
    | some cached, _ => some (st, some cached)
    | none, none => some (st, none)
    | none, some loaded =>
      if route = -1 ∧ record.imagePtr = 0 then some (st, none)
      else
        let image := if route = -1 then answers.memory else record.packed
        ((st.servers route).load image loaded).map fun server ↦
          let noted := (st.setServer route server).noteModuleOwner loaded route
          let images := noted.moduleImages.addReplica source route loaded
          ({ noted with moduleImages := images.record loaded record route loaded }, some loaded)

/-- The lookup of the function in the replica, and the records that are made of it. -/
def getFunctionOnRoute (function : ℕ) (record : NamedFunction) (route : ℤ) (module : ℕ) :
    Option (ModuleClient × Option ℕ) :=
  match answers.found with
  | none => some (st, none)
  | some routeFunction =>
    let replica := { record with module }
    ((st.servers route).getFunction replica routeFunction).map fun server ↦
      let called := st.setServer route server
      let functions := called.moduleFunctions.addReplica function route routeFunction
      let functions := functions.record routeFunction replica route routeFunction
      let recorded := { called with moduleFunctions := functions }
      (recorded.noteFunctionOwner routeFunction route,
        if answers.warmed then some routeFunction else none)

/-- `lupine_resolve_module_function_for_route` for a function that is recorded. -/
def resolveRecordedFunction (function : ℕ) (record : NamedFunction) (route : ℤ) :
    Option (ModuleClient × Option ℕ) :=
  match st.moduleFunctions.replica? function route with
  | some cached => some (st, some cached)
  | none =>
    (st.loadRecordedModuleOnRoute answers record.module route).bind fun (loaded, module) ↦
      match module with
      | none => some (loaded, none)
      | some module => loaded.getFunctionOnRoute answers function record route module

/-- `lupine_resolve_module_function_for_route`. -/
def resolveModuleFunctionForRoute (function : ℕ) (route : ℤ) :
    Option (ModuleClient × Option ℕ) :=
  if function = 0 ∨ route < -1 then some (st, some function)
  else
    match st.moduleFunctions.value? function with
    | none => some (st, some function)
    | some record => st.resolveRecordedFunction answers function record route

/-- What a function denotes on the route of its owner. -/
def denotes (fallback : ℤ) (function : ℕ) : Option (String × ModuleImage) :=
  (st.servers (st.routeForFunction fallback function)).denotes function

/-- A function was resolved for a route and another one found. -/
def resolution (after : ModuleClient) (route fallback : ℤ) (function found : ℕ) :
    ResolvedFunction where
  route := route
  asked := st.denotes fallback function
  found := (after.servers route).denotes found
  ran := after.denotes fallback found

end ModuleClient

inductive ModuleCall where
  /-- `cuModuleLoadData`, on the route of the current context. -/
  | moduleLoadData (route : ℤ) (image : LoadedImage) (handle : ℕ)
  /-- `cuModuleLoad`, on the default route. -/
  | moduleLoad (route : ℤ) (image : ModuleImage) (handle : ℕ)
  | moduleGetFunction (fallback : ℤ) (function : NamedFunction) (handle : ℕ) (warmed : Bool)
  | moduleUnload (fallback : ℤ) (module : ℕ)
  /-- A launch resolves its function for the route of its stream, and once more for that of its
  arguments where it is another. -/
  | resolve (route : ℤ) (function : ℕ) (answers : ModuleClient.Answers)

namespace ModuleClient

variable (st : ModuleClient)

/-- One call that the driver does not refuse. There is no connection to an invalid route. -/
def call : ModuleCall → Option ModuleClient
  | .moduleLoadData route image handle =>
    if route < -1 then none
    else
      ((st.servers route).load image.packed handle).map fun server ↦
        ((st.setServer route server).noteModuleOwner handle route).recordModuleImage handle route
          image
  | .moduleLoad route image handle =>
    if route < -1 then none
    else
      ((st.servers route).load image handle).map fun server ↦
        (st.setServer route server).noteModuleOwner handle route
  | .moduleGetFunction fallback function handle warmed =>
    let route := st.routeForModule fallback function.module
    if route < -1 then none
    else
      ((st.servers route).getFunction function handle).map fun server ↦
        (st.setServer route server).recordModuleFunction handle function route warmed
  | .moduleUnload fallback module =>
    let route := st.routeForModule fallback module
    if route < -1 then none
    else ((st.servers route).unload module).map fun server ↦ st.setServer route server
  | .resolve route function answers =>
    (st.resolveModuleFunctionForRoute answers function route).map fun (resolved, found) ↦
      match found with
      | none => resolved
      | some found =>
        let resolution := st.resolution resolved route answers.fallback function found
        { resolved with resolved := resolution :: resolved.resolved }

end ModuleClient

def moduleMachine : Machine ModuleClient ModuleCall where
  step := ModuleClient.call

/-! ## What the drivers do

A call of a driver changes the route that it is made on and no other, and what it does not name
stays as it was. -/

namespace ModuleDriver

variable {driver driver' : ModuleDriver} {image : ModuleImage} {function : NamedFunction}
variable {module handle : ℕ}

theorem load_eq_some : driver.load image handle = some driver' ↔
    (handle ≠ 0 ∧ driver.modules handle = none) ∧
      driver' = { driver with modules := Function.update driver.modules handle (some image) } := by
  rw [load, Option.ite_none_right_eq_some, Option.some_inj, @eq_comm _ driver']

theorem getFunction_eq_some : driver.getFunction function handle = some driver' ↔
    (handle ≠ 0 ∧ driver.modules function.module ≠ none ∧
      (driver.functions handle = none ∨ driver.functions handle = some function)) ∧
      driver' =
        { driver with functions := Function.update driver.functions handle (some function) } := by
  rw [getFunction, Option.ite_none_right_eq_some, Option.some_inj, @eq_comm _ driver']

theorem unload_modules {module' : ℕ} (h : driver.unload module = some driver') :
    driver'.modules module' = some image ↔
      module' ≠ module ∧ driver.modules module' = some image := by
  obtain ⟨-, h⟩ := Option.ite_none_right_eq_some.mp h
  obtain rfl := Option.some_inj.mp h
  rcases eq_or_ne module' module with rfl | hne
  · simp
  · simp [hne]

theorem unload_functions (h : driver.unload module = some driver') :
    driver'.functions handle = some function ↔
      function.module ≠ module ∧ driver.functions handle = some function := by
  obtain ⟨-, h⟩ := Option.ite_none_right_eq_some.mp h
  obtain rfl := Option.some_inj.mp h
  rw [Option.filter_eq_some_iff, decide_eq_true_iff, and_comm]

theorem denotes_eq_some {name : String} : driver.denotes handle = some (name, image) ↔
    ∃ module, driver.functions handle = some ⟨module, name⟩ ∧
      driver.modules module = some image := by
  rw [denotes, Option.bind_eq_some_iff]
  constructor
  · rintro ⟨⟨module, name'⟩, hfunction, hmodule⟩
    obtain ⟨image', himage, heq⟩ := Option.map_eq_some_iff.mp hmodule
    obtain ⟨rfl, rfl⟩ := Prod.mk.inj heq
    exact ⟨module, hfunction, himage⟩
  · rintro ⟨module, hfunction, himage⟩
    exact ⟨⟨module, name⟩, hfunction, by rw [himage, Option.map_some]⟩

end ModuleDriver

namespace ModuleClient

variable {st : ModuleClient} {server : ModuleDriver} {route r r' : ℤ} {module handle f g : ℕ}
variable {image image' : ModuleImage} {function x : NamedFunction}

theorem servers_setServer_self (st : ModuleClient) (r : ℤ) (server : ModuleDriver) :
    (st.setServer r server).servers r = server := Function.update_self _ _ _

theorem modules_load (h : (st.servers route).load image handle = some server) :
    ((st.setServer route server).servers r).modules module = some image' ↔
      (r = route ∧ module = handle) ∧ image = image' ∨
      ¬(r = route ∧ module = handle) ∧ (st.servers r).modules module = some image' := by
  obtain ⟨-, rfl⟩ := ModuleDriver.load_eq_some.mp h
  rcases eq_or_ne r route with rfl | hr
  · rcases eq_or_ne module handle with rfl | hm
    · simp [setServer]
    · simp [setServer, hm]
  · simp [setServer, hr]

theorem functions_load (h : (st.servers route).load image handle = some server) (r : ℤ) :
    ((st.setServer route server).servers r).functions = (st.servers r).functions := by
  obtain ⟨-, rfl⟩ := ModuleDriver.load_eq_some.mp h
  rcases eq_or_ne r route with rfl | hr
  · simp [setServer]
  · simp [setServer, hr]

theorem functions_getFunction (h : (st.servers route).getFunction function handle = some server) :
    ((st.setServer route server).servers r).functions f = some x ↔
      (r = route ∧ f = handle) ∧ function = x ∨
      ¬(r = route ∧ f = handle) ∧ (st.servers r).functions f = some x := by
  obtain ⟨-, rfl⟩ := ModuleDriver.getFunction_eq_some.mp h
  rcases eq_or_ne r route with rfl | hr
  · rcases eq_or_ne f handle with rfl | hf
    · simp [setServer]
    · simp [setServer, hf]
  · simp [setServer, hr]

theorem modules_getFunction (h : (st.servers route).getFunction function handle = some server)
    (r : ℤ) : ((st.setServer route server).servers r).modules = (st.servers r).modules := by
  obtain ⟨-, rfl⟩ := ModuleDriver.getFunction_eq_some.mp h
  rcases eq_or_ne r route with rfl | hr
  · simp [setServer]
  · simp [setServer, hr]

theorem modules_stay (h : (st.servers route).load image handle = some server)
    (halive : (st.servers r).modules module = some image') :
    ((st.setServer route server).servers r).modules module = some image' := by
  refine (modules_load h).mpr (Or.inr ⟨?_, halive⟩)
  rintro ⟨rfl, rfl⟩
  exact nomatch (ModuleDriver.load_eq_some.mp h).1.2.symm.trans halive

theorem functions_stay (h : (st.servers route).getFunction function handle = some server)
    (halive : (st.servers r).functions f = some x) :
    ((st.setServer route server).servers r).functions f = some x := by
  by_cases hself : r = route ∧ f = handle
  · obtain ⟨rfl, rfl⟩ := hself
    rcases (ModuleDriver.getFunction_eq_some.mp h).1.2.2 with hnone | hsome
    · exact nomatch hnone.symm.trans halive
    · have heq := Option.some_inj.mp (hsome.symm.trans halive)
      exact (functions_getFunction h).mpr (Or.inl ⟨⟨rfl, rfl⟩, heq⟩)
  · exact (functions_getFunction h).mpr (Or.inr ⟨hself, halive⟩)

theorem modules_unload (h : (st.servers route).unload module = some server) {M : ℕ} :
    ((st.setServer route server).servers r).modules M = some image ↔
      ¬(r = route ∧ M = module) ∧ (st.servers r).modules M = some image := by
  rcases eq_or_ne r route with rfl | hr
  · rw [servers_setServer_self, ModuleDriver.unload_modules h]
    simp
  · simp [setServer, hr]

theorem functions_unload (h : (st.servers route).unload module = some server) :
    ((st.setServer route server).servers r).functions f = some x ↔
      ¬(r = route ∧ x.module = module) ∧ (st.servers r).functions f = some x := by
  rcases eq_or_ne r route with rfl | hr
  · rw [servers_setServer_self, ModuleDriver.unload_functions h]
    simp
  · simp [setServer, hr]

/-! ## The invariant

A handle that was not known on another route is new to the tables as well. The three lemmas take
the three calls of a driver, with the record that the client makes of each. -/

variable (st) in
/-- Every handle is alive at its owner only, and for a handle that is alive the records say what it
is and have replicas of it. A replica of a function is one of a replica of its module. -/
structure Faithful : Prop where
  moduleOwner : ∀ {r module image},
    (st.servers r).modules module = some image → st.moduleOwners.lookup module = some r
  functionOwner : ∀ {r f x},
    (st.servers r).functions f = some x → st.functionOwners.lookup f = some r
  functionModule : ∀ {r f x},
    (st.servers r).functions f = some x → ∃ image, (st.servers r).modules x.module = some image
  nonzero : ∀ {r x}, (st.servers r).functions 0 ≠ some x
  image : ∀ {r module image record}, (st.servers r).modules module = some image →
    st.moduleImages.value? module = some record → record.packed = image
  moduleReplica : ∀ {r r' module image M}, (st.servers r).modules module = some image →
    st.moduleImages.replica? module r' = some M → (st.servers r').modules M = some image
  named : ∀ {r f x record}, (st.servers r).functions f = some x →
    st.moduleFunctions.value? f = some record → record = x
  functionReplica : ∀ {r r' f x g}, (st.servers r).functions f = some x →
    st.moduleFunctions.replica? f r' = some g →
      ∃ M, (st.servers r').functions g = some ⟨M, x.name⟩ ∧
        (r' = r ∧ M = x.module ∨ st.moduleImages.replica? x.module r' = some M)
  /-- A recorded function is its own replica at its owner, also when it is not alive. -/
  own : ∀ {f record}, st.moduleFunctions.value? f = some record →
    ∃ r, st.functionOwners.lookup f = some r ∧ st.moduleFunctions.replica? f r = some f

variable (st) in
/-- The handle is not that of a module on another route. -/
def NewModule (route : ℤ) (handle : ℕ) : Prop :=
  st.routeForModule route handle = route ∨
    (st.servers (st.routeForModule route handle)).modules handle = none

variable (st) in
/-- The handle is not that of a function on another route. -/
def NewFunction (route : ℤ) (handle : ℕ) : Prop :=
  st.routeForFunction route handle = route ∨
    (st.servers (st.routeForFunction route handle)).functions handle = none

instance : Decidable (st.NewModule route handle) := inferInstanceAs (Decidable (_ ∨ _))

instance : Decidable (st.NewFunction route handle) := inferInstanceAs (Decidable (_ ∨ _))

namespace Faithful

theorem eq_of_newModule (h : Faithful st) (hnew : st.NewModule route handle)
    (halive : (st.servers r).modules handle = some image) : r = route := by
  have hroute : st.routeForModule route handle = r := by
    rw [routeForModule, h.moduleOwner halive, Option.getD_some]
  rcases hnew with heq | hnone
  · exact hroute.symm.trans heq
  · rw [hroute, halive] at hnone
    exact nomatch hnone

theorem eq_of_newFunction (h : Faithful st) (hnew : st.NewFunction route handle)
    (halive : (st.servers r).functions handle = some x) : r = route := by
  have hroute : st.routeForFunction route handle = r := by
    rw [routeForFunction, h.functionOwner halive, Option.getD_some]
  rcases hnew with heq | hnone
  · exact hroute.symm.trans heq
  · rw [hroute, halive] at hnone
    exact nomatch hnone

theorem modules_of_load (h : Faithful st) (hnew : st.NewModule route handle)
    (hload : (st.servers route).load image handle = some server) (r : ℤ) :
    (st.servers r).modules handle ≠ some image' := by
  intro halive
  obtain rfl := h.eq_of_newModule hnew halive
  have hnone := (ModuleDriver.load_eq_some.mp hload).1.2
  exact nomatch hnone.symm.trans halive

/-- **Loading.** A driver loads a module. Its record, if there is one, is right and has no other
replica; it can be a replica of modules with the same image, and the other records stay. -/
theorem load (h : Faithful st) (hnew : st.NewModule route handle)
    (hload : (st.servers route).load image handle = some server)
    {images : ReplicaTable ℕ LoadedImage ℤ ℕ}
    (hself : ∀ {record}, images.value? handle = some record → record.packed = image)
    (hother : ∀ {M}, M ≠ handle → images.value? M = st.moduleImages.value? M)
    (hreplica : ∀ {M r' N}, images.replica? M r' = some N →
      (r' = route ∧ N = handle) ∧ (M = handle ∨
        ∃ record, st.moduleImages.value? M = some record ∧ record.packed = image) ∨
      M ≠ handle ∧ st.moduleImages.replica? M r' = some N)
    (hkeep : ∀ {M r' N}, M ≠ handle → st.moduleImages.replica? M r' = some N →
      images.replica? M r' = some N) :
    Faithful { (st.setServer route server).noteModuleOwner handle route with
      moduleImages := images } := by
  -- the handle is free at every server, so no module that is alive has it
  have hfree {r : ℤ} {i : ModuleImage} : (st.servers r).modules handle ≠ some i :=
    h.modules_of_load hnew hload r
  have hne {r : ℤ} {M : ℕ} {i : ModuleImage} (halive : (st.servers r).modules M = some i) :
      M ≠ handle := by
    rintro rfl
    exact hfree halive
  constructor
  · intro r M i halive
    -- a module that is alive now was loaded by this call or was alive before
    rcases (modules_load hload).mp halive with ⟨⟨rfl, rfl⟩, -⟩ | ⟨-, halive⟩
    · exact AList.lookup_insert _
    · exact (AList.lookup_insert_ne (hne halive)).trans (h.moduleOwner halive)
  · intro r f x halive
    exact h.functionOwner (functions_load hload r ▸ halive)
  · intro r f x halive
    obtain ⟨i, hi⟩ := h.functionModule (functions_load hload r ▸ halive)
    exact ⟨i, modules_stay hload hi⟩
  · intro r x halive
    exact h.nonzero (functions_load hload r ▸ halive)
  · intro r M i record halive hrecord
    rcases (modules_load hload).mp halive with ⟨⟨rfl, rfl⟩, rfl⟩ | ⟨-, halive⟩
    · exact hself hrecord
    · exact h.image halive ((hother (hne halive)).symm.trans hrecord)
  · intro r r' M i N halive hN
    rcases (modules_load hload).mp halive with ⟨⟨rfl, rfl⟩, rfl⟩ | ⟨-, hold⟩
    · rcases hreplica hN with ⟨⟨rfl, rfl⟩, -⟩ | ⟨hM, -⟩
      · exact halive
      · exact absurd rfl hM
    · rcases hreplica hN with ⟨⟨rfl, rfl⟩, hM | ⟨record, hrecord, himage⟩⟩ | ⟨-, hN⟩
      · exact absurd hM (hne hold)
      -- the replica was loaded from the record, which has the image of the module
      · exact (modules_load hload).mpr (Or.inl ⟨⟨rfl, rfl⟩, himage ▸ h.image hold hrecord⟩)
      · exact modules_stay hload (h.moduleReplica hold hN)
  · intro r f x record halive hrecord
    exact h.named (functions_load hload r ▸ halive) hrecord
  · intro r r' f x g halive hg
    have hold : (st.servers r).functions f = some x := functions_load hload r ▸ halive
    obtain ⟨M, hM, hlink⟩ := h.functionReplica hold hg
    obtain ⟨i, hi⟩ := h.functionModule hold
    exact ⟨M, (functions_load hload r').symm ▸ hM, hlink.imp_right (hkeep (hne hi))⟩
  · exact h.own

/-- **Lookups.** A driver hands out a function. Its record, if there is one, is right; it has other
replicas only if it was alive before, and it can be a replica of functions of the same name, of
whose modules its own is a replica. The other records stay. -/
theorem getFunction (h : Faithful st) (hnew : st.NewFunction route handle)
    (hcall : (st.servers route).getFunction function handle = some server)
    {functions : ReplicaTable ℕ NamedFunction ℤ ℕ}
    (hself : ∀ {record}, functions.value? handle = some record → record = function)
    (hown : (functions.value? handle).isSome → functions.replica? handle route = some handle)
    (hother : ∀ {f}, f ≠ handle → functions.value? f = st.moduleFunctions.value? f)
    (hreplica : ∀ {f r' g}, functions.replica? f r' = some g →
      (r' = route ∧ g = handle) ∧ (f = handle ∨ ∀ r x, (st.servers r).functions f = some x →
        x.name = function.name ∧ (route = r ∧ function.module = x.module ∨
          st.moduleImages.replica? x.module route = some function.module)) ∨
      (f = handle → (st.servers route).functions handle = some function) ∧
        st.moduleFunctions.replica? f r' = some g)
    (hkeep : ∀ {f r'}, f ≠ handle → st.moduleFunctions.replica? f r' = some f →
      functions.replica? f r' = some f) :
    Faithful { (st.setServer route server).noteFunctionOwner handle route with
      moduleFunctions := functions } := by
  have hmodules := modules_getFunction hcall
  have hguard := (ModuleDriver.getFunction_eq_some.mp hcall).1
  -- a function that is alive has another handle, unless it is the new one
  have hne {r : ℤ} {f : ℕ} {x : NamedFunction} (hother : ¬(r = route ∧ f = handle))
      (halive : (st.servers r).functions f = some x) : f ≠ handle := by
    rintro rfl
    exact hother ⟨h.eq_of_newFunction hnew halive, rfl⟩
  constructor
  · intro r M i halive
    exact h.moduleOwner (hmodules r ▸ halive)
  · intro r f x halive
    -- a function that is there now was made by this call or was there before
    rcases (functions_getFunction hcall).mp halive with ⟨⟨rfl, rfl⟩, -⟩ | ⟨hf, hold⟩
    · exact AList.lookup_insert _
    · exact (AList.lookup_insert_ne (hne hf hold)).trans (h.functionOwner hold)
  · intro r f x halive
    rcases (functions_getFunction hcall).mp halive with ⟨⟨rfl, rfl⟩, rfl⟩ | ⟨-, hold⟩
    · exact Option.ne_none_iff_exists'.mp ((hmodules r).symm ▸ hguard.2.1)
    · exact (hmodules r).symm ▸ h.functionModule hold
  · intro r x halive
    rcases (functions_getFunction hcall).mp halive with ⟨⟨-, hzero⟩, -⟩ | ⟨-, hold⟩
    · exact hguard.1 hzero.symm
    · exact h.nonzero hold
  · intro r M i record halive hrecord
    exact h.image (hmodules r ▸ halive) hrecord
  · intro r r' M i N halive hN
    exact (hmodules r').symm ▸ h.moduleReplica (hmodules r ▸ halive) hN
  · intro r f x record halive hrecord
    rcases (functions_getFunction hcall).mp halive with ⟨⟨rfl, rfl⟩, rfl⟩ | ⟨hf, hold⟩
    · exact hself hrecord
    · exact h.named hold ((hother (hne hf hold)).symm.trans hrecord)
  · intro r r' f x g halive hg
    rcases (functions_getFunction hcall).mp halive with ⟨⟨rfl, rfl⟩, rfl⟩ | ⟨hf, hold⟩
    -- a replica of the new function is itself; one found earlier is in the table as it was
    · rcases hreplica hg with ⟨⟨rfl, rfl⟩, -⟩ | ⟨hbefore, hg⟩
      · exact ⟨_, halive, Or.inl ⟨rfl, rfl⟩⟩
      · obtain ⟨M, hM, hlink⟩ := h.functionReplica (hbefore rfl) hg
        exact ⟨M, functions_stay hcall hM, hlink⟩
    · rcases hreplica hg with ⟨⟨rfl, rfl⟩, heq | hsame⟩ | ⟨-, hg⟩
      · exact absurd heq (hne hf hold)
      · obtain ⟨hname, hlink⟩ := hsame r x hold
        exact ⟨_, (functions_getFunction hcall).mpr (Or.inl ⟨⟨rfl, rfl⟩, by rw [hname]⟩), hlink⟩
      · obtain ⟨M, hM, hlink⟩ := h.functionReplica hold hg
        exact ⟨M, functions_stay hcall hM, hlink⟩
  · intro f record hrecord
    rcases eq_or_ne f handle with rfl | hf
    · exact ⟨route, AList.lookup_insert _, hown (Option.isSome_of_eq_some hrecord)⟩
    · obtain ⟨r, hr, hreplica⟩ := h.own ((hother hf).symm.trans hrecord)
      exact ⟨r, (AList.lookup_insert_ne hf).trans hr, hkeep hf hreplica⟩

/-- **Unloading.** A driver unloads a module that is no replica of another. -/
theorem unload (h : Faithful st) (hcall : (st.servers route).unload module = some server)
    (hnot : st.moduleImages.NotReplica module route module) :
    Faithful (st.setServer route server) := by
  -- The unloaded module is the replica of a module that is alive only if it is that module.
  have hdead {r : ℤ} {M : ℕ} {i : ModuleImage} (hM : (st.servers r).modules M = some i)
      (hmodule : (st.servers route).modules module = some i)
      (hreplica : st.moduleImages.replica? M route = some module) : r = route ∧ M = module := by
    obtain rfl := hnot.eq hreplica
    exact ⟨Option.some_inj.mp ((h.moduleOwner hM).symm.trans (h.moduleOwner hmodule)), rfl⟩
  constructor
  · intro r M i halive
    exact h.moduleOwner ((modules_unload hcall).mp halive).2
  · intro r f x halive
    exact h.functionOwner ((functions_unload hcall).mp halive).2
  · intro r f x halive
    obtain ⟨hother, hold⟩ := (functions_unload hcall).mp halive
    obtain ⟨i, hi⟩ := h.functionModule hold
    exact ⟨i, (modules_unload hcall).mpr ⟨hother, hi⟩⟩
  · intro r x halive
    exact h.nonzero ((functions_unload hcall).mp halive).2
  · intro r M i record halive hrecord
    exact h.image ((modules_unload hcall).mp halive).2 hrecord
  · intro r r' M i N halive hN
    obtain ⟨hother, hold⟩ := (modules_unload hcall).mp halive
    have hreplica := h.moduleReplica hold hN
    refine (modules_unload hcall).mpr ⟨?_, hreplica⟩
    rintro ⟨rfl, rfl⟩
    exact hother (hdead hold hreplica hN)
  · intro r f x record halive hrecord
    exact h.named ((functions_unload hcall).mp halive).2 hrecord
  · intro r r' f x g halive hg
    obtain ⟨hother, hold⟩ := (functions_unload hcall).mp halive
    obtain ⟨M, hM, hlink⟩ := h.functionReplica hold hg
    refine ⟨M, (functions_unload hcall).mpr ⟨?_, hM⟩, hlink⟩
    rintro ⟨rfl, rfl⟩
    rcases hlink with ⟨rfl, hmodule⟩ | hreplica
    · exact hother ⟨rfl, hmodule.symm⟩
    · obtain ⟨i, hi⟩ := h.functionModule hold
      exact hother (hdead hi (h.moduleReplica hi hreplica) hreplica)
  · exact h.own

/-- A replica of a function that is alive denotes the same. -/
theorem denotes_replica (h : Faithful st) (halive : (st.servers r).functions f = some x)
    (hg : st.moduleFunctions.replica? f r' = some g) :
    (st.servers r').denotes g = (st.servers r).denotes f := by
  obtain ⟨M, hM, hlink⟩ := h.functionReplica halive hg
  obtain ⟨i, hi⟩ := h.functionModule halive
  have hi' : (st.servers r').modules M = some i := by
    rcases hlink with ⟨rfl, rfl⟩ | hreplica
    · exact hi
    · exact h.moduleReplica hi hreplica
  rw [ModuleDriver.denotes_eq_some.mpr ⟨M, hM, hi'⟩,
    ModuleDriver.denotes_eq_some.mpr ⟨x.module, halive, hi⟩]

theorem denotes_eq (h : Faithful st) (halive : (st.servers r).functions f = some x)
    (fallback : ℤ) : st.denotes fallback f = (st.servers r).denotes f := by
  rw [denotes, routeForFunction, h.functionOwner halive, Option.getD_some]

end Faithful

/-! ## Resolving a function

A resolution loads a replica of the module where there is none, and hands out a function of it
where there is none. What is alive stays alive meanwhile, so the function that was asked about
denotes what it did. -/

variable (st) in
/-- The image from which a replica of the function's module is loaded. -/
def imageOf (function : ℕ) : Option LoadedImage :=
  (st.moduleFunctions.value? function).bind fun record ↦ st.moduleImages.value? record.module

variable (st) in
/-- The handles that are handed out for a replica are new, or the function is known there already;
and the application's memory still holds the image if it is loaded from there. -/
def NewReplicas (route : ℤ) (function : ℕ) (answers : Answers) : Prop :=
  (∀ loaded ∈ answers.loaded,
    st.NewModule route loaded ∧ st.moduleImages.OnlyAt loaded route) ∧
  (∀ found ∈ answers.found, st.NewFunction route found ∧
    ((st.servers route).functions found ≠ none ∨ st.moduleFunctions.OnlyAt found route)) ∧
  (route = -1 → ∀ image ∈ st.imageOf function, image.packed = answers.memory)

instance {answers : Answers} : Decidable (st.NewReplicas route f answers) :=
  inferInstanceAs (Decidable (_ ∧ _ ∧ _))

structure Extends (st st' : ModuleClient) : Prop where
  modules : ∀ {r module image}, (st.servers r).modules module = some image →
    (st'.servers r).modules module = some image
  functions : ∀ {r f x}, (st.servers r).functions f = some x → (st'.servers r).functions f = some x
  resolved : st'.resolved = st.resolved

structure LoadsOnly (st st' : ModuleClient) : Prop extends Extends st st' where
  functionsEq : ∀ r, (st'.servers r).functions = (st.servers r).functions
  functionOwners : st'.functionOwners = st.functionOwners
  moduleFunctions : st'.moduleFunctions = st.moduleFunctions

theorem Extends.refl (st : ModuleClient) : Extends st st := ⟨id, id, rfl⟩

theorem Extends.trans {st₁ st₂ : ModuleClient} (h₁ : Extends st st₁) (h₂ : Extends st₁ st₂) :
    Extends st st₂ :=
  ⟨h₂.modules ∘ h₁.modules, h₂.functions ∘ h₁.functions, h₂.resolved.trans h₁.resolved⟩

theorem LoadsOnly.refl (st : ModuleClient) : LoadsOnly st st :=
  ⟨Extends.refl st, fun _ ↦ rfl, rfl, rfl⟩

theorem LoadsOnly.newFunction {st' : ModuleClient} (h : LoadsOnly st st')
    (hnew : st.NewFunction route handle) : st'.NewFunction route handle := by
  have hroute : st'.routeForFunction route handle = st.routeForFunction route handle := by
    rw [routeForFunction, h.functionOwners, routeForFunction]
  rwa [NewFunction, hroute, h.functionsEq]

theorem Extends.denotes_eq {st' : ModuleClient} (hext : Extends st st') (h : Faithful st)
    (halive : (st.servers r).functions f = some x) :
    (st'.servers r).denotes f = (st.servers r).denotes f := by
  obtain ⟨i, hi⟩ := h.functionModule halive
  rw [ModuleDriver.denotes_eq_some.mpr ⟨x.module, halive, hi⟩,
    ModuleDriver.denotes_eq_some.mpr ⟨x.module, hext.functions halive, hext.modules hi⟩]

namespace Faithful

variable {answers : Answers} {st' : ModuleClient} {found : Option ℕ} {source : ℕ}

theorem loadReplica (h : Faithful st) {loaded : ℕ} {record : LoadedImage}
    (hnew : st.NewModule route loaded) (honly : st.moduleImages.OnlyAt loaded route)
    (hrecord : st.moduleImages.value? source = some record)
    (hnone : st.moduleImages.replica? source route = none)
    (hload : (st.servers route).load record.packed loaded = some server) :
    Faithful { (st.setServer route server).noteModuleOwner loaded route with
      moduleImages := (st.moduleImages.addReplica source route loaded).record loaded record route
        loaded } := by
  have hsome := Option.isSome_of_eq_some hrecord
  apply h.load hnew hload
  · intro record' hrecord'
    rw [ReplicaTable.value?_record_self] at hrecord'
    rw [Option.some_inj.mp hrecord']
  · intro M hM
    rw [ReplicaTable.value?_record_of_ne hM, ReplicaTable.value?_addReplica]
  · intro M r' N hN
    rcases ReplicaTable.replica?_record_eq_some.mp hN with ⟨⟨rfl, rfl⟩, rfl⟩ | ⟨hother, hN⟩
    · exact Or.inl ⟨⟨rfl, rfl⟩, Or.inl rfl⟩
    · rcases (ReplicaTable.replica?_addReplica_eq_some hsome).mp hN with
        ⟨⟨rfl, rfl⟩, rfl⟩ | ⟨-, hold⟩
      · exact Or.inl ⟨⟨rfl, rfl⟩, Or.inr ⟨record, hrecord, rfl⟩⟩
      · refine Or.inr ⟨?_, hold⟩
        rintro rfl
        exact hother ⟨rfl, honly.eq hold⟩
  · intro M r' N hM hN
    rw [ReplicaTable.replica?_record_of_ne hM, ReplicaTable.replica?_addReplica_eq_some hsome]
    refine Or.inr ⟨?_, hN⟩
    rintro ⟨rfl, rfl⟩
    exact nomatch hnone.symm.trans hN

/-- The module that is found for a route where its source is not owned is a replica. -/
theorem loadRecordedModuleOnRoute (h : Faithful st)
    (halive : (st.servers r).modules source = some image) (hr : r ≠ route)
    (hnew : ∀ loaded ∈ answers.loaded,
      st.NewModule route loaded ∧ st.moduleImages.OnlyAt loaded route)
    (hmemory : route = -1 → ∀ record, st.moduleImages.value? source = some record →
      record.packed = answers.memory)
    (hload : st.loadRecordedModuleOnRoute answers source route = some (st', found)) :
    Faithful st' ∧ LoadsOnly st st' ∧
      ∀ M, found = some M → st'.moduleImages.replica? source route = some M := by
  rw [ModuleClient.loadRecordedModuleOnRoute] at hload
  split at hload
  -- an unrecorded module can only be used where it was loaded
  · have howner : st.routeForModule answers.fallback source ≠ route := by
      rw [routeForModule, h.moduleOwner halive, Option.getD_some]
      exact hr
    obtain ⟨rfl, rfl⟩ := Prod.mk.inj (Option.some_inj.mp hload)
    rw [if_neg howner]
    exact ⟨h, LoadsOnly.refl st, fun _ hM ↦ absurd hM (Option.some_ne_none _).symm⟩
  · rename_i record hrecord
    split at hload
    · rename_i cached hcached
      obtain ⟨rfl, rfl⟩ := Prod.mk.inj (Option.some_inj.mp hload)
      exact ⟨h, LoadsOnly.refl st, fun M hM ↦ Option.some_inj.mp hM ▸ hcached⟩
    · obtain ⟨rfl, rfl⟩ := Prod.mk.inj (Option.some_inj.mp hload)
      exact ⟨h, LoadsOnly.refl st, fun _ hM ↦ absurd hM (Option.some_ne_none _).symm⟩
    · rename_i loaded hnone hloaded
      split at hload
      · obtain ⟨rfl, rfl⟩ := Prod.mk.inj (Option.some_inj.mp hload)
        exact ⟨h, LoadsOnly.refl st, fun _ hM ↦ absurd hM (Option.some_ne_none _).symm⟩
      -- the local driver loads from memory, which has what was recorded, by the hypothesis
      · have himage : (if route = -1 then answers.memory else record.packed) = record.packed := by
          split_ifs with hlocal
          · exact (hmemory hlocal record hrecord).symm
          · rfl
        rw [himage] at hload
        obtain ⟨server, hserver, heq⟩ := Option.map_eq_some_iff.mp hload
        obtain ⟨rfl, rfl⟩ := Prod.mk.inj heq
        obtain ⟨hfresh, honly⟩ := hnew loaded hloaded
        refine ⟨h.loadReplica hfresh honly hrecord hnone hserver, ?_, ?_⟩
        · have hfunctions := functions_load hserver
          exact ⟨⟨modules_stay hserver, fun halive ↦ (hfunctions _).symm ▸ halive, rfl⟩, hfunctions,
            rfl, rfl⟩
        · rintro M hM
          obtain rfl := Option.some_inj.mp hM
          show ReplicaTable.replica? (ReplicaTable.record _ _ _ _ _) _ _ = _
          rw [ReplicaTable.replica?_record_eq_some]
          by_cases hself : source = loaded
          · exact Or.inl ⟨⟨hself, rfl⟩, rfl⟩
          · have hsome := Option.isSome_of_eq_some hrecord
            exact Or.inr ⟨fun heq ↦ hself heq.1,
              (ReplicaTable.replica?_addReplica_eq_some hsome).mpr (Or.inl ⟨⟨rfl, rfl⟩, rfl⟩)⟩

theorem getReplica (h : Faithful st) (hx : st.moduleFunctions.value? f = some x)
    (hnone : st.moduleFunctions.replica? f route = none)
    (hmodule : st.moduleImages.replica? x.module route = some module)
    (hnew : st.NewFunction route g)
    (hbefore : (st.servers route).functions g ≠ none ∨ st.moduleFunctions.OnlyAt g route)
    (hcall : (st.servers route).getFunction { x with module } g = some server) :
    Faithful { (st.setServer route server).noteFunctionOwner g route with
      moduleFunctions := (st.moduleFunctions.addReplica f route g).record g { x with module } route
        g } := by
  have hsome := Option.isSome_of_eq_some hx
  apply h.getFunction hnew hcall
  · intro record hrecord
    rw [ReplicaTable.value?_record_self] at hrecord
    exact (Option.some_inj.mp hrecord).symm
  · intro _
    exact ReplicaTable.replica?_record_self
  · intro f' hf'
    rw [ReplicaTable.value?_record_of_ne hf', ReplicaTable.value?_addReplica]
  · intro f' r' g' hg'
    rcases ReplicaTable.replica?_record_eq_some.mp hg' with ⟨⟨rfl, rfl⟩, rfl⟩ | ⟨hother, hg'⟩
    · exact Or.inl ⟨⟨rfl, rfl⟩, Or.inl rfl⟩
    · rcases (ReplicaTable.replica?_addReplica_eq_some hsome).mp hg' with
        ⟨⟨rfl, rfl⟩, rfl⟩ | ⟨-, hold⟩
      · refine Or.inl ⟨⟨rfl, rfl⟩, Or.inr fun r₀ x₀ hx₀ ↦ ?_⟩
        obtain rfl := h.named hx₀ hx
        exact ⟨rfl, Or.inr hmodule⟩
      · refine Or.inr ⟨?_, hold⟩
        rintro rfl
        rcases hbefore with hknown | honly
        · exact ((ModuleDriver.getFunction_eq_some.mp hcall).1.2.2).resolve_left hknown
        · exact absurd ⟨rfl, honly.eq hold⟩ hother
  · intro f' r' hf' hreplica
    rw [ReplicaTable.replica?_record_of_ne hf']
    refine (ReplicaTable.replica?_addReplica_eq_some hsome).mpr (Or.inr ⟨?_, hreplica⟩)
    rintro ⟨rfl, rfl⟩
    exact nomatch hnone.symm.trans hreplica

theorem getFunctionOnRoute (h : Faithful st) (halive : (st.servers r).functions f = some x)
    (hr : r ≠ route) (hx : st.moduleFunctions.value? f = some x)
    (hnone : st.moduleFunctions.replica? f route = none)
    (hmodule : st.moduleImages.replica? x.module route = some module)
    (hnew : ∀ found ∈ answers.found, st.NewFunction route found ∧
      ((st.servers route).functions found ≠ none ∨ st.moduleFunctions.OnlyAt found route))
    (hcall : st.getFunctionOnRoute answers f x route module = some (st', found)) :
    Faithful st' ∧ Extends st st' ∧
      ∀ g, found = some g → st'.moduleFunctions.replica? f route = some g := by
  rw [ModuleClient.getFunctionOnRoute] at hcall
  split at hcall
  · obtain ⟨rfl, rfl⟩ := Prod.mk.inj (Option.some_inj.mp hcall)
    exact ⟨h, Extends.refl st, fun _ hg ↦ absurd hg (Option.some_ne_none _).symm⟩
  · rename_i g hg
    obtain ⟨server, hserver, heq⟩ := Option.map_eq_some_iff.mp hcall
    obtain ⟨rfl, rfl⟩ := Prod.mk.inj heq
    obtain ⟨hfresh, hbefore⟩ := hnew g hg
    refine ⟨h.getReplica hx hnone hmodule hfresh hbefore hserver,
      ⟨fun hM ↦ modules_getFunction hserver _ ▸ hM, functions_stay hserver, rfl⟩, ?_⟩
    intro g' hg'
    have hg' : g = g' := by
      split_ifs at hg'
      exact Option.some_inj.mp hg'
    have hfg : f ≠ g := by
      rintro rfl
      exact hr (h.eq_of_newFunction hfresh halive)
    have hsome := Option.isSome_of_eq_some hx
    exact (ReplicaTable.replica?_record_of_ne hfg).trans
      ((ReplicaTable.replica?_addReplica_eq_some hsome).mpr (Or.inl ⟨⟨rfl, rfl⟩, hg'⟩))

/-- A function that is alive is resolved to one of its replicas. -/
theorem right_of_replica (h : Faithful st) (h' : Faithful st') (hext : Extends st st')
    (halive : (st.servers r).functions f = some x)
    (hg : st'.moduleFunctions.replica? f route = some g) (fallback : ℤ) :
    (st.resolution st' route fallback f g).Right := by
  have halive' := hext.functions halive
  obtain ⟨M, hM, -⟩ := h'.functionReplica halive' hg
  have hfound : (st'.servers route).denotes g = st.denotes fallback f := by
    rw [h'.denotes_replica halive' hg, hext.denotes_eq h halive, h.denotes_eq halive]
  exact ⟨fun _ _ ↦ hfound, fun _ ↦ (h'.denotes_eq hM fallback).trans hfound⟩

theorem right_self {fallback : ℤ}
    (hroute : -1 ≤ route → st.denotes fallback f ≠ none → st.routeForFunction fallback f = route) :
    (st.resolution st route fallback f f).Right := by
  refine ⟨fun hvalid hasked ↦ ?_, fun _ ↦ rfl⟩
  show (st.servers route).denotes f = st.denotes fallback f
  rw [denotes, hroute hvalid hasked]

theorem alive_of_denotes {fallback : ℤ} (h : (st.denotes fallback f).isSome) :
    ∃ r x, (st.servers r).functions f = some x := by
  obtain ⟨⟨name, i⟩, hdenotes⟩ := Option.isSome_iff_exists.mp h
  obtain ⟨M, hM, -⟩ := ModuleDriver.denotes_eq_some.mp hdenotes
  exact ⟨_, _, hM⟩

end Faithful

variable (st) in
/-- The function is resolved for the invalid route or that of its owner, or is recorded exactly if
it is alive; and a replica that is made is new. -/
def MayResolve (route : ℤ) (function : ℕ) (answers : Answers) : Prop :=
  route < -1 ∨ st.routeForFunction answers.fallback function = route ∨
    (st.moduleFunctions.value? function).isSome = (st.denotes answers.fallback function).isSome ∧
      st.NewReplicas route function answers

instance {answers : Answers} : Decidable (st.MayResolve route f answers) :=
  inferInstanceAs (Decidable (_ ∨ _ ∨ _))

theorem Faithful.resolveRecordedFunction (h : Faithful st) {answers : Answers} {st' : ModuleClient}
    {found : Option ℕ} (halive : (st.servers r).functions f = some x)
    (hx : st.moduleFunctions.value? f = some x) (hr : r ≠ route)
    (hnew : st.NewReplicas route f answers)
    (hcall : st.resolveRecordedFunction answers f x route = some (st', found)) :
    Faithful st' ∧ st'.resolved = st.resolved ∧
      ∀ g, found = some g → (st.resolution st' route answers.fallback f g).Right := by
  obtain ⟨hloaded, hfound, hmemory⟩ := hnew
  rw [ModuleClient.resolveRecordedFunction] at hcall
  split at hcall
  · rename_i cached hcached
    obtain ⟨rfl, rfl⟩ := Prod.mk.inj (Option.some_inj.mp hcall)
    refine ⟨h, rfl, fun g hg ↦ ?_⟩
    obtain rfl := Option.some_inj.mp hg
    exact h.right_of_replica h (Extends.refl st) halive hcached _
  · rename_i hnone
    obtain ⟨⟨st₁, module⟩, hload, hcall⟩ := Option.bind_eq_some_iff.mp hcall
    obtain ⟨i, hi⟩ := h.functionModule halive
    have hmemory (hlocal : route = -1) (record : LoadedImage)
        (hrecord : st.moduleImages.value? x.module = some record) :
        record.packed = answers.memory := by
      apply hmemory hlocal record
      rw [imageOf, hx]
      exact hrecord
    obtain ⟨h₁, honly, hmodule⟩ := h.loadRecordedModuleOnRoute hi hr hloaded hmemory hload
    cases module with
    | none =>
      obtain ⟨rfl, rfl⟩ := Prod.mk.inj (Option.some_inj.mp hcall)
      exact ⟨h₁, honly.resolved, fun _ hg ↦ absurd hg (Option.some_ne_none _).symm⟩
    | some module =>
      have hfunctions := honly.moduleFunctions
      obtain ⟨h₂, hext, hg⟩ := h₁.getFunctionOnRoute (honly.functions halive) hr
        (hfunctions.symm ▸ hx) (hfunctions.symm ▸ hnone) (hmodule module rfl)
        (fun g hg ↦ by
          rw [honly.functionsEq, hfunctions]
          exact (hfound g hg).imp_left honly.newFunction) hcall
      refine ⟨h₂, hext.resolved.trans honly.resolved, fun g heq ↦ ?_⟩
      exact h.right_of_replica h₂ (honly.toExtends.trans hext) halive (hg g heq) _

/-- **One resolution.** -/
theorem Faithful.resolve (h : Faithful st) {answers : Answers} {st' : ModuleClient}
    {found : Option ℕ} (hmay : st.MayResolve route f answers)
    (hcall : st.resolveModuleFunctionForRoute answers f route = some (st', found)) :
    Faithful st' ∧ st'.resolved = st.resolved ∧
      ∀ g, found = some g → (st.resolution st' route answers.fallback f g).Right := by
  have hself (hroute : -1 ≤ route → st.denotes answers.fallback f ≠ none →
      st.routeForFunction answers.fallback f = route) (g : ℕ) (hg : some f = some g) :
      (st.resolution st route answers.fallback f g).Right := by
    obtain rfl := Option.some_inj.mp hg
    exact Faithful.right_self hroute
  rw [resolveModuleFunctionForRoute] at hcall
  split_ifs at hcall with hfirst
  · obtain ⟨rfl, rfl⟩ := Prod.mk.inj (Option.some_inj.mp hcall)
    refine ⟨h, rfl, hself fun hvalid hasked ↦ ?_⟩
    rcases hfirst with rfl | hinvalid
    · obtain ⟨r, x, hx⟩ := Faithful.alive_of_denotes (Option.ne_none_iff_isSome.mp hasked)
      exact absurd hx h.nonzero
    · omega
  · split at hcall
    · rename_i hrecord
      obtain ⟨rfl, rfl⟩ := Prod.mk.inj (Option.some_inj.mp hcall)
      refine ⟨h, rfl, hself fun hvalid hasked ↦ ?_⟩
      rcases hmay with hinvalid | hroute | ⟨hiff, -⟩
      · omega
      · exact hroute
      · rw [hrecord, Option.ne_none_iff_isSome.mp hasked] at hiff
        exact absurd hiff (by decide)
    · rename_i record hrecord
      by_cases hroute : st.routeForFunction answers.fallback f = route
      · -- A recorded function is found on the route of its owner.
        obtain ⟨owner, howner, hown⟩ := h.own hrecord
        obtain rfl : owner = route := by
          rw [← hroute, routeForFunction, howner, Option.getD_some]
        rw [ModuleClient.resolveRecordedFunction, hown] at hcall
        obtain ⟨rfl, rfl⟩ := Prod.mk.inj (Option.some_inj.mp hcall)
        exact ⟨h, rfl, hself fun _ _ ↦ hroute⟩
      · have hvalid : ¬route < -1 := fun hlt ↦ hfirst (Or.inr hlt)
        obtain ⟨halive, hnew⟩ := (hmay.resolve_left hvalid).resolve_left hroute
        rw [hrecord, Option.isSome_some] at halive
        obtain ⟨r, x, hx⟩ := Faithful.alive_of_denotes halive.symm
        obtain rfl := h.named hx hrecord
        refine h.resolveRecordedFunction hx hrecord (fun heq ↦ hroute ?_) hnew hcall
        rw [routeForFunction, h.functionOwner hx, Option.getD_some, heq]

/-! ## Runs

The condition is on the handles that a call is given: none is handed out while there are replicas
of what it was before. The lemmas take the kinds of calls one by one. -/

variable (st) in
/-- No handle is handed out while there are replicas of what it was before. A module that is loaded
from a file has no record at all, and no function whose parameter layout cannot be read. What is
unloaded is no replica. -/
def Fresh : ModuleCall → Prop
  | .moduleLoadData route image handle =>
    st.NewModule route handle ∧
      if image.packed.image = [] then st.moduleImages.value? handle = none
      else st.moduleImages.OnlyAt handle route
  | .moduleLoad route _ handle =>
    st.NewModule route handle ∧ st.moduleImages.value? handle = none
  | .moduleGetFunction fallback function handle warmed =>
    let route := st.routeForModule fallback function.module
    st.NewFunction route handle ∧
      ((st.servers route).functions handle ≠ none ∨
        if warmed then st.moduleFunctions.OnlyAt handle route
        else st.moduleFunctions.value? handle = none)
  | .moduleUnload fallback module =>
    st.moduleImages.NotReplica module (st.routeForModule fallback module) module
  | .resolve route function answers => st.MayResolve route function answers

instance : ∀ call, Decidable (st.Fresh call)
  | .moduleLoadData _ _ _ => inferInstanceAs (Decidable (_ ∧ _))
  | .moduleLoad _ _ _ => inferInstanceAs (Decidable (_ ∧ _))
  | .moduleGetFunction _ _ _ _ => inferInstanceAs (Decidable (_ ∧ (_ ∨ _)))
  | .moduleUnload _ _ => inferInstanceAs (Decidable (ReplicaTable.NotReplica _ _ _ _))
  | .resolve _ _ _ => inferInstanceAs (Decidable (MayResolve _ _ _ _))

namespace Faithful

theorem moduleLoad (h : Faithful st) (hnew : st.NewModule route handle)
    (hnone : st.moduleImages.value? handle = none)
    (hload : (st.servers route).load image handle = some server) :
    Faithful ((st.setServer route server).noteModuleOwner handle route) := by
  apply h.load hnew hload
  · intro record hrecord
    exact nomatch hnone.symm.trans hrecord
  · intro M _
    rfl
  · intro M r' N hN
    refine Or.inr ⟨?_, hN⟩
    rintro rfl
    exact absurd (ReplicaTable.isSome_of_replica? hN) (Option.not_isSome_iff_eq_none.mpr hnone)
  · intro M r' N _ hN
    exact hN

theorem recordModuleImage (h : Faithful st) {record : LoadedImage}
    (hnew : st.NewModule route handle) (honly : st.moduleImages.OnlyAt handle route)
    (hload : (st.servers route).load record.packed handle = some server) :
    Faithful { (st.setServer route server).noteModuleOwner handle route with
      moduleImages := st.moduleImages.record handle record route handle } := by
  apply h.load hnew hload
  · intro record' hrecord'
    rw [ReplicaTable.value?_record_self] at hrecord'
    rw [Option.some_inj.mp hrecord']
  · intro M hM
    exact ReplicaTable.value?_record_of_ne hM
  · intro M r' N hN
    rcases ReplicaTable.replica?_record_eq_some.mp hN with ⟨⟨rfl, rfl⟩, rfl⟩ | ⟨hother, hold⟩
    · exact Or.inl ⟨⟨rfl, rfl⟩, Or.inl rfl⟩
    · refine Or.inr ⟨?_, hold⟩
      rintro rfl
      exact hother ⟨rfl, honly.eq hold⟩
  · intro M r' N hM hN
    exact (ReplicaTable.replica?_record_of_ne hM).trans hN

theorem recordModuleFunction (h : Faithful st) (hnew : st.NewFunction route handle)
    (hbefore : (st.servers route).functions handle ≠ none ∨
      st.moduleFunctions.OnlyAt handle route)
    (hcall : (st.servers route).getFunction function handle = some server) :
    Faithful { (st.setServer route server).noteFunctionOwner handle route with
      moduleFunctions := st.moduleFunctions.record handle function route handle } := by
  apply h.getFunction hnew hcall
  · intro record hrecord
    rw [ReplicaTable.value?_record_self] at hrecord
    exact (Option.some_inj.mp hrecord).symm
  · intro _
    exact ReplicaTable.replica?_record_self
  · intro f hf
    exact ReplicaTable.value?_record_of_ne hf
  · intro f r' g hg
    rcases ReplicaTable.replica?_record_eq_some.mp hg with ⟨⟨rfl, rfl⟩, rfl⟩ | ⟨hother, hold⟩
    · exact Or.inl ⟨⟨rfl, rfl⟩, Or.inl rfl⟩
    · refine Or.inr ⟨?_, hold⟩
      rintro rfl
      rcases hbefore with hknown | honly
      · exact ((ModuleDriver.getFunction_eq_some.mp hcall).1.2.2).resolve_left hknown
      · exact absurd ⟨rfl, honly.eq hold⟩ hother
  · intro f r' hf hreplica
    exact (ReplicaTable.replica?_record_of_ne hf).trans hreplica

theorem noteFunctionOwner (h : Faithful st) (hnew : st.NewFunction route handle)
    (hbefore : (st.servers route).functions handle ≠ none ∨
      st.moduleFunctions.value? handle = none)
    (hcall : (st.servers route).getFunction function handle = some server) :
    Faithful ((st.setServer route server).noteFunctionOwner handle route) := by
  -- A function that has a record is the one that was handed out before.
  have hknown (hsome : (st.moduleFunctions.value? handle).isSome) :
      (st.servers route).functions handle = some function := by
    rcases hbefore with hknown | hnone
    · exact ((ModuleDriver.getFunction_eq_some.mp hcall).1.2.2).resolve_left hknown
    · exact absurd hsome (Option.not_isSome_iff_eq_none.mpr hnone)
  apply h.getFunction hnew hcall
  · intro record hrecord
    exact h.named (hknown (Option.isSome_of_eq_some hrecord)) hrecord
  · intro hsome
    obtain ⟨record, hrecord⟩ := Option.isSome_iff_exists.mp hsome
    obtain ⟨r, hr, hown⟩ := h.own hrecord
    obtain rfl := Option.some_inj.mp ((h.functionOwner (hknown hsome)).symm.trans hr)
    exact hown
  · intro f _
    rfl
  · intro f r' g hg
    refine Or.inr ⟨?_, hg⟩
    rintro rfl
    exact hknown (ReplicaTable.isSome_of_replica? hg)
  · intro f r' _ hreplica
    exact hreplica

theorem init : Faithful {} where
  moduleOwner h := nomatch h
  functionOwner h := nomatch h
  functionModule h := nomatch h
  nonzero h := nomatch h
  image h := nomatch h
  moduleReplica h := nomatch h
  named h := nomatch h
  functionReplica h := nomatch h
  own h := nomatch h

end Faithful

variable (st) in
/-- The tables are right, and so was everything that was resolved. -/
def Sound : Prop := st.Faithful ∧ ∀ resolution ∈ st.resolved, resolution.Right

/-- **One call.** -/
theorem Sound.call {st' : ModuleClient} {call : ModuleCall} (h : st.Sound)
    (hfresh : st.Fresh call) (hcall : st.call call = some st') : st'.Sound := by
  obtain ⟨hfaithful, hright⟩ := h
  cases call with
  | moduleLoadData route record handle =>
    obtain ⟨-, hcall⟩ := Option.ite_none_left_eq_some.mp hcall
    obtain ⟨server, hload, rfl⟩ := Option.map_eq_some_iff.mp hcall
    obtain ⟨hnew, hrecord⟩ := hfresh
    rw [ModuleClient.recordModuleImage]
    split_ifs at hrecord ⊢
    · exact ⟨hfaithful.moduleLoad hnew hrecord hload, hright⟩
    · exact ⟨hfaithful.recordModuleImage hnew hrecord hload, hright⟩
  | moduleLoad route image handle =>
    obtain ⟨-, hcall⟩ := Option.ite_none_left_eq_some.mp hcall
    obtain ⟨server, hload, rfl⟩ := Option.map_eq_some_iff.mp hcall
    exact ⟨hfaithful.moduleLoad hfresh.1 hfresh.2 hload, hright⟩
  | moduleGetFunction fallback function handle warmed =>
    obtain ⟨-, hcall⟩ := Option.ite_none_left_eq_some.mp hcall
    obtain ⟨server, hget, rfl⟩ := Option.map_eq_some_iff.mp hcall
    obtain ⟨hnew, hbefore⟩ := hfresh
    cases warmed with
    | false => exact ⟨hfaithful.noteFunctionOwner hnew hbefore hget, hright⟩
    | true => exact ⟨hfaithful.recordModuleFunction hnew hbefore hget, hright⟩
  | moduleUnload fallback module =>
    obtain ⟨-, hcall⟩ := Option.ite_none_left_eq_some.mp hcall
    obtain ⟨server, hunload, rfl⟩ := Option.map_eq_some_iff.mp hcall
    exact ⟨hfaithful.unload hunload hfresh, hright⟩
  | resolve route function answers =>
    obtain ⟨⟨st₁, found⟩, hresolve, rfl⟩ := Option.map_eq_some_iff.mp hcall
    obtain ⟨h₁, hresolved, hfound⟩ := hfaithful.resolve hfresh hresolve
    cases found with
    | none => exact ⟨h₁, hresolved.symm ▸ hright⟩
    | some g =>
      refine ⟨⟨h₁.moduleOwner, h₁.functionOwner, h₁.functionModule, h₁.nonzero, h₁.image,
        h₁.moduleReplica, h₁.named, h₁.functionReplica, h₁.own⟩, ?_⟩
      exact List.forall_mem_cons.mpr ⟨hfound g rfl, hresolved.symm ▸ hright⟩

end ModuleClient

/-- **Functions on other routes.** In a run whose calls all meet the condition, every function was
resolved to the function that its handle denoted, on the route that was asked for, and nothing else
was ever launched. -/
theorem resolved_functions_denote (calls : List ModuleCall) {st : ModuleClient}
    (hrun : (moduleMachine.restrict ModuleClient.Fresh).run {} calls = some st) :
    ∀ resolution ∈ st.resolved, resolution.Right := by
  have hstep (st : ModuleClient) (call : ModuleCall) (st' : ModuleClient) (h : st.Sound)
      (hcall : (moduleMachine.restrict ModuleClient.Fresh).step st call = some st') :
      st'.Sound := by
    obtain ⟨hfresh, hcall⟩ := Machine.step_restrict.mp hcall
    exact h.call hfresh hcall
  exact (Machine.run_invariant _ hstep ⟨ModuleClient.Faithful.init, fun _ h ↦ nomatch h⟩ hrun).2

def firstImage : LoadedImage := ⟨⟨1, [65]⟩, 4096⟩

def secondImage : LoadedImage := ⟨⟨1, [66]⟩, 8192⟩

/-- What a resolution finds when it has to load a replica. -/
def replicaAnswers (loaded found : ℕ) : ModuleClient.Answers where
  fallback := 0
  memory := firstImage.packed
  loaded := some loaded
  found := some found
  warmed := true

/-- A module is loaded on route 0, and its function looked up and launched on route 1. -/
def launchedElsewhere : List ModuleCall :=
  [.moduleLoadData 0 firstImage 1, .moduleGetFunction 0 ⟨1, "add"⟩ 10 true,
    .resolve 1 10 (replicaAnswers 2 20)]

/-- A second launch, one on the local route, and one after another module has been loaded. -/
def launchedAgain : List ModuleCall :=
  launchedElsewhere ++ [.resolve 1 10 (replicaAnswers 2 20), .resolve (-1) 10 (replicaAnswers 3 30),
    .moduleLoadData 0 secondImage 4, .moduleGetFunction 0 ⟨4, "add"⟩ 40 true, .moduleUnload 0 1,
    .resolve 1 40 (replicaAnswers 5 50)]

theorem resolved_functions_denote_launchedAgain :
    ∃ st, (moduleMachine.restrict ModuleClient.Fresh).run {} launchedAgain = some st ∧
      st.resolved.length = 4 ∧ ∀ resolution ∈ st.resolved, resolution.Right := by
  have hrun : ∃ st, (moduleMachine.restrict ModuleClient.Fresh).run {} launchedAgain = some st ∧
      st.resolved.length = 4 := ⟨_, rfl, rfl⟩
  obtain ⟨st, hrun, hlength⟩ := hrun
  exact ⟨st, hrun, hlength, resolved_functions_denote _ hrun⟩

/-- The function of a module that has been unloaded. -/
def launchedAfterUnload : List ModuleCall :=
  launchedElsewhere ++ [.moduleUnload 0 1, .resolve 1 10 (replicaAnswers 6 60)]

/-- Another module gets both handles. -/
def handlesReused : List ModuleCall :=
  launchedElsewhere ++ [.moduleUnload 0 1, .moduleLoadData 0 secondImage 1,
    .moduleGetFunction 0 ⟨1, "add"⟩ 10 true, .resolve 1 10 (replicaAnswers 6 60)]

/-- Another module gets the handle of the module, through `cuModuleLoad`. -/
def handleReusedByFile : List ModuleCall :=
  launchedElsewhere ++ [.moduleUnload 0 1, .moduleLoad 0 secondImage.packed 1,
    .moduleGetFunction 0 ⟨1, "add"⟩ 11 true, .resolve 1 11 (replicaAnswers 6 20)]

/-- The application has used the memory of the image for another one. -/
def memoryReused : List ModuleCall :=
  launchedElsewhere ++ [.resolve (-1) 10 { replicaAnswers 3 30 with memory := secondImage.packed }]

/-- **Replicas that are out of date.** -/
theorem stale_replicas_launched :
    [launchedAfterUnload, handlesReused, handleReusedByFile, memoryReused].Forall fun calls ↦
      ∃ st, moduleMachine.run {} calls = some st ∧
        ∃ resolution ∈ st.resolved, resolution.ran ≠ none ∧ ¬resolution.Right := by
  refine ⟨?_, ?_, ?_, ?_⟩
  · exact ⟨_, rfl, by decide⟩
  · exact ⟨_, rfl, by decide⟩
  · exact ⟨_, rfl, by decide⟩
  · exact ⟨_, rfl, by decide⟩

end Lupine
