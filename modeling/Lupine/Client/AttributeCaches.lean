import Lupine.Cuda
import Lupine.Foundation.Machine
import Lupine.Foundation.ReadThrough

/-!
# The attribute and limit caches

The client keeps the attributes of functions and of kernels and the limits of contexts that a driver
has told it. Each cache has its own key, and the code generator gives each CUDA call the
invalidations that it is to make.

## What a call can change

* `cuFuncSetAttribute` drops both attribute caches, and so do the unloading of a module and that of
  a library;
* `cuCtxSetLimit` and the end of a context drop the limit cache;
* `cuKernelSetAttribute` stores the value it has set, and skips the call where the value is stored
  already.

An attribute of a kernel is also one of its functions, so the last of them changes what
`cuFuncGetAttribute` answers and leaves that cache as it is. So does the end of a context for the
functions of its modules, whose handles the driver can hand out again. A value may be stored of an
attribute that cannot be set; then the call that is skipped would have been refused. And the limit
cache has the context that the client believes to be current in its key, while the server asks the
one that is.

The calls come with the route to which their handles lead, and with the handles of that route.

## Read-through caches

Each of the three caches is a cache of a function, with the driver's answers as its source, so what
is to be shown of a call is the same for all of them: what is kept is what the source would answer.
A call changes the source at some keys, drops some entries and may store one. It leaves the caches
coherent when it has dropped, or stored anew, every key at which it changed the source.
-/

open Foundation

namespace Lupine

/-! ## The driver

What a driver answers is given by its gets. Its other calls change the driver, or refuse. -/

/-- A CUDA driver, as far as its attributes and limits go. A get that fails has no answer; a call
that is refused leaves the driver as it is. -/
structure AttributeDriver where
  State : Type
  /-- What a call creates: a module, a library, a kernel, a function or a context. -/
  Object : Type
  /-- A module or a library. -/
  Image : Type
  /-- `cuFuncGetAttribute`. -/
  getFunction : State → ℕ → ℤ → Option ℤ
  /-- `cuKernelGetAttribute`, of a kernel on a device. -/
  getKernel : State → ℕ → ℤ → ℤ → Option ℤ
  /-- `cuCtxGetLimit` where that context is current. -/
  getLimit : State → CUcontext → ℤ → Option ℤ
  setFunction : State → ℕ → ℤ → ℤ → Option State
  /-- `cuKernelSetAttribute`: the attribute, the value, the kernel and the device. -/
  setKernel : State → ℤ → ℤ → ℕ → ℤ → Option State
  setLimit : State → CUcontext → ℤ → ℤ → Option State
  create : State → Object → Option State
  unload : State → Image → Option State
  /-- The context is destroyed, detached, or a primary one that is released or reset. -/
  destroy : State → CUcontext → Option State
  /-- The kernel and the device for which `cuKernelGetFunction` gave the function. -/
  kernelOf : State → ℕ → Option (ℕ × ℤ)
  /-- The context of the function's module. -/
  contextOf : State → ℕ → Option CUcontext
  /-- The attributes that can be set. -/
  settable : ℤ → Bool
  setFunction_limit : ∀ {st st' function attrib value}, setFunction st function attrib value =
    some st' → ∀ context limit, getLimit st' context limit = getLimit st context limit
  setKernel_self : ∀ {st st' attrib value kernel dev}, setKernel st attrib value kernel dev =
    some st' → getKernel st' kernel attrib dev = some value
  setKernel_kernel : ∀ {st st' attrib value kernel dev}, setKernel st attrib value kernel dev =
    some st' → ∀ kernel' attrib' dev', ¬(kernel' = kernel ∧ attrib' = attrib ∧ dev' = dev) →
      getKernel st' kernel' attrib' dev' = getKernel st kernel' attrib' dev'
  setKernel_function : ∀ {st st' attrib value kernel dev}, setKernel st attrib value kernel dev =
    some st' → ∀ function attrib', ¬(attrib' = attrib ∧ kernelOf st function = some (kernel, dev)) →
      getFunction st' function attrib' = getFunction st function attrib'
  setKernel_limit : ∀ {st st' attrib value kernel dev}, setKernel st attrib value kernel dev =
    some st' → ∀ context limit, getLimit st' context limit = getLimit st context limit
  /-- What can be set can be set to the value it has. -/
  setKernel_again : ∀ {st attrib value kernel dev}, getKernel st kernel attrib dev = some value →
    settable attrib = true → (setKernel st attrib value kernel dev).isSome = true
  setLimit_function : ∀ {st st' context limit value}, setLimit st context limit value = some st' →
    ∀ function attrib, getFunction st' function attrib = getFunction st function attrib
  setLimit_kernel : ∀ {st st' context limit value}, setLimit st context limit value = some st' →
    ∀ kernel attrib dev, getKernel st' kernel attrib dev = getKernel st kernel attrib dev
  /-- What is alive is not affected by what is created. -/
  create_function : ∀ {st st' object}, create st object = some st' → ∀ function attrib value,
    getFunction st function attrib = some value → getFunction st' function attrib = some value
  create_kernel : ∀ {st st' object}, create st object = some st' → ∀ kernel attrib dev value,
    getKernel st kernel attrib dev = some value → getKernel st' kernel attrib dev = some value
  create_limit : ∀ {st st' object}, create st object = some st' → ∀ context limit value,
    getLimit st context limit = some value → getLimit st' context limit = some value
  unload_limit : ∀ {st st' image}, unload st image = some st' → ∀ context limit,
    getLimit st' context limit = getLimit st context limit
  /-- Kernels belong to libraries, which are of no context. -/
  destroy_kernel : ∀ {st st' context}, destroy st context = some st' → ∀ kernel attrib dev,
    getKernel st' kernel attrib dev = getKernel st kernel attrib dev
  destroy_function : ∀ {st st' context}, destroy st context = some st' → ∀ function attrib,
    contextOf st function ≠ some context →
      getFunction st' function attrib = getFunction st function attrib

/-! ## The client

The caches are keyed by what the client knows: the route, and the handle or the context that it
believes to be current. Every answer is kept with what the driver would have said. -/

/-- `lupine_function_attribute_key`. -/
structure FunctionAttributeKey where
  routeId : ℤ
  function : ℕ
  attrib : ℤ
  deriving DecidableEq, Repr

/-- `lupine_kernel_attribute_key`. -/
structure KernelAttributeKey where
  routeId : ℤ
  kernel : ℕ
  attrib : ℤ
  dev : ℤ
  deriving DecidableEq, Repr

/-- `lupine_ctx_limit_key`. -/
structure CtxLimitKey where
  routeId : ℤ
  context : CUcontext
  limit : ℤ
  deriving DecidableEq, Repr

/-- What a call returned, and what the driver would have returned at that moment. For a call that
sets a value it is the value, where the call succeeds. -/
structure AttributeAnswer where
  given : Option ℤ
  driver : Option ℤ
  deriving DecidableEq, Repr

variable (driver : AttributeDriver)

namespace AttributeDriver

/-- What a driver answers for a key, whatever the route in it. -/
def functionAt (server : driver.State) (key : FunctionAttributeKey) : Option ℤ :=
  driver.getFunction server key.function key.attrib

def kernelAt (server : driver.State) (key : KernelAttributeKey) : Option ℤ :=
  driver.getKernel server key.kernel key.attrib key.dev

def limitAt (server : driver.State) (key : CtxLimitKey) : Option ℤ :=
  driver.getLimit server key.context key.limit

end AttributeDriver

/-- The drivers by the routes to them, the three caches, and the answers given so far. -/
structure AttributeClient where
  servers : ℤ → driver.State
  functions : Cache FunctionAttributeKey ℤ := ∅
  kernels : Cache KernelAttributeKey ℤ := ∅
  limits : Cache CtxLimitKey ℤ := ∅
  answers : List AttributeAnswer := []

inductive AttributeCall where
  | funcGetAttribute (route : ℤ) (function : ℕ) (attrib : ℤ)
  | funcSetAttribute (route : ℤ) (function : ℕ) (attrib value : ℤ)
  | kernelGetAttribute (route attrib : ℤ) (kernel : ℕ) (dev : ℤ)
  | kernelSetAttribute (route attrib value : ℤ) (kernel : ℕ) (dev : ℤ)
  /-- `hint` is `lupine_current_context_hint`, `current` the context of the lane in the server. -/
  | ctxGetLimit (route : ℤ) (hint current : CUcontext) (limit : ℤ)
  | ctxSetLimit (route : ℤ) (current : CUcontext) (limit value : ℤ)
  | create (route : ℤ) (object : driver.Object)
  | moduleUnload (route : ℤ) (image : driver.Image)
  /-- To a server the call is deferred: it is taken to succeed. -/
  | libraryUnload (route : ℤ) (image : driver.Image)
  | destroyContext (route : ℤ) (context : CUcontext)

variable {driver}

namespace AttributeClient

variable (st : AttributeClient driver)

def functionSource (key : FunctionAttributeKey) : Option ℤ :=
  driver.functionAt (st.servers key.routeId) key

def kernelSource (key : KernelAttributeKey) : Option ℤ :=
  driver.kernelAt (st.servers key.routeId) key

def limitSource (key : CtxLimitKey) : Option ℤ :=
  driver.limitAt (st.servers key.routeId) key

def setServer (route : ℤ) (server : driver.State) : AttributeClient driver :=
  { st with servers := Function.update st.servers route server }

def answer (given actual : Option ℤ) : AttributeClient driver :=
  { st with answers := ⟨given, actual⟩ :: st.answers }

/-- `lupine_invalidate_kernel_attribute_cache`, and what `lupine_invalidate_function_caches` does to
these two. -/
def dropAttributes : AttributeClient driver := { st with functions := ∅, kernels := ∅ }

/-- `lupine_invalidate_ctx_limit_cache`. -/
def dropLimits : AttributeClient driver := { st with limits := ∅ }

/-- `lupine_kernel_attribute_cache_store`. -/
def storeKernel (key : KernelAttributeKey) (value : ℤ) : AttributeClient driver :=
  { st with kernels := st.kernels.insert key value }

def call : AttributeCall driver → AttributeClient driver
  | .funcGetAttribute route function attrib =>
    let key : FunctionAttributeKey := ⟨route, function, attrib⟩
    let actual := st.functionSource key
    -- the local branch stores what it is told and never looks it up
    if route = -1 then
      { st with functions := actual.elim st.functions (st.functions.insert key) }.answer actual
        actual
    else
      { st with functions := (st.functions.readThrough key actual).2 }.answer
        (st.functions.readThrough key actual).1 actual
  | .funcSetAttribute route function attrib value =>
    match driver.setFunction (st.servers route) function attrib value with
    | none => st
    | some server => (st.setServer route server).dropAttributes
  | .kernelGetAttribute route attrib kernel dev =>
    let key : KernelAttributeKey := ⟨route, kernel, attrib, dev⟩
    let actual := st.kernelSource key
    { st with kernels := (st.kernels.readThrough key actual).2 }.answer
      (st.kernels.readThrough key actual).1 actual
  | .kernelSetAttribute route attrib value kernel dev =>
    let key : KernelAttributeKey := ⟨route, kernel, attrib, dev⟩
    if st.kernels.lookup key = some value then
      st.answer (some value)
        ((driver.setKernel (st.servers route) attrib value kernel dev).map fun _ ↦ value)
    else
      match driver.setKernel (st.servers route) attrib value kernel dev with
      | none => st
      | some server => (st.setServer route server).storeKernel key value
  | .ctxGetLimit route hint current limit =>
    let key : CtxLimitKey := ⟨route, hint, limit⟩
    let actual := st.limitSource ⟨route, current, limit⟩
    { st with limits := (st.limits.readThrough key actual).2 }.answer
      (st.limits.readThrough key actual).1 actual
  | .ctxSetLimit route current limit value =>
    match driver.setLimit (st.servers route) current limit value with
    | none => st
    | some server => (st.setServer route server).dropLimits
  | .create route object =>
    match driver.create (st.servers route) object with
    | none => st
    | some server => st.setServer route server
  | .moduleUnload route image =>
    match driver.unload (st.servers route) image with
    | none => st
    | some server => (st.setServer route server).dropAttributes
  | .libraryUnload route image =>
    match driver.unload (st.servers route) image with
    | none => if route = -1 then st else st.dropAttributes
    | some server => (st.setServer route server).dropAttributes
  | .destroyContext route context =>
    match driver.destroy (st.servers route) context with
    | none => st
    | some server => (st.setServer route server).dropLimits

/-- Every answer is the one that the driver would have given. -/
def AnswersAgree : Prop := ∀ answer ∈ st.answers, answer.given = answer.driver

instance : Decidable st.AnswersAgree := inferInstanceAs (Decidable (∀ answer ∈ st.answers, _))

/-- A call after which the caches tell the truth: a kernel's attribute is not set while one of its
functions' is kept, nor is an attribute taken to be set that cannot be; no context ends while an
attribute of a function of its own is kept; and a limit is asked of the context that is current. -/
def Noticed : AttributeCall driver → Prop
  | .kernelSetAttribute route attrib value kernel dev =>
    if st.kernels.lookup ⟨route, kernel, attrib, dev⟩ = some value then
      driver.settable attrib = true
    else ∀ key ∈ st.functions.keys, key.routeId ≠ -1 → key.routeId = route → key.attrib = attrib →
      driver.kernelOf (st.servers route) key.function ≠ some (kernel, dev)
  | .destroyContext route context => ∀ key ∈ st.functions.keys, key.routeId ≠ -1 →
      key.routeId = route → driver.contextOf (st.servers route) key.function ≠ some context
  | .ctxGetLimit _ hint current _ => hint = current
  | .funcGetAttribute .. | .funcSetAttribute .. | .kernelGetAttribute .. | .ctxSetLimit .. |
    .create .. | .moduleUnload .. | .libraryUnload .. => True

instance (call : AttributeCall driver) : Decidable (st.Noticed call) :=
  match call with
  | .kernelSetAttribute .. => inferInstanceAs (Decidable (ite _ _ _))
  | .destroyContext .. => inferInstanceAs (Decidable (∀ key ∈ st.functions.keys, _ → _))
  | .ctxGetLimit .. => inferInstanceAs (Decidable (_ = _))
  | .funcGetAttribute .. | .funcSetAttribute .. | .kernelGetAttribute .. | .ctxSetLimit .. |
    .create .. | .moduleUnload .. | .libraryUnload .. => inferInstanceAs (Decidable True)

/-- The caches are coherent, and were whenever an answer was given. -/
structure Coherent : Prop where
  functions : Cache.Coherent (fun key ↦ key.routeId ≠ -1) st.functionSource st.functions
  kernels : Cache.Coherent (fun _ ↦ True) st.kernelSource st.kernels
  limits : Cache.Coherent (fun _ ↦ True) st.limitSource st.limits
  answers : st.AnswersAgree

variable {st}

theorem AnswersAgree.answer (h : st.AnswersAgree) {given actual : Option ℤ}
    (heq : given = actual) : (st.answer given actual).AnswersAgree := by
  intro answer hmem
  rcases List.mem_cons.mp hmem with rfl | hmem
  · exact heq
  · exact h answer hmem

/-! ## What a call keeps

After a call that drops the attributes it is enough that the limits are as they were, and the other
way round. What is created changes nothing that is kept. -/

section Frames

variable (h : st.Coherent) {route : ℤ} {server : driver.State}

include h

theorem Coherent.setServer_functions
    (hkeep : ∀ key ∈ st.functions, key.routeId ≠ -1 → key.routeId = route → ∀ value,
      driver.functionAt (st.servers route) key = some value →
        driver.functionAt server key = some value) :
    Cache.Coherent (fun key ↦ key.routeId ≠ -1) (st.setServer route server).functionSource
      st.functions :=
  h.functions.update FunctionAttributeKey.routeId driver.functionAt hkeep

theorem Coherent.setServer_kernels
    (hkeep : ∀ key value, driver.kernelAt (st.servers route) key = some value →
      driver.kernelAt server key = some value) :
    Cache.Coherent (fun _ ↦ True) (st.setServer route server).kernelSource st.kernels :=
  h.kernels.update KernelAttributeKey.routeId driver.kernelAt fun key _ _ _ ↦ hkeep key

theorem Coherent.setServer_limits
    (hkeep : ∀ key value, driver.limitAt (st.servers route) key = some value →
      driver.limitAt server key = some value) :
    Cache.Coherent (fun _ ↦ True) (st.setServer route server).limitSource st.limits :=
  h.limits.update CtxLimitKey.routeId driver.limitAt fun key _ _ _ ↦ hkeep key

theorem Coherent.dropAttributes
    (hlimit : ∀ context limit, driver.getLimit server context limit =
      driver.getLimit (st.servers route) context limit) :
    (st.setServer route server).dropAttributes.Coherent where
  functions := Cache.coherent_empty
  kernels := Cache.coherent_empty
  limits := h.setServer_limits fun key _ hvalue ↦ (hlimit key.context key.limit).trans hvalue
  answers := h.answers

theorem Coherent.dropLimits
    (hfunction : ∀ key ∈ st.functions, key.routeId ≠ -1 → key.routeId = route →
      driver.functionAt server key = driver.functionAt (st.servers route) key)
    (hkernel : ∀ kernel attrib dev, driver.getKernel server kernel attrib dev =
      driver.getKernel (st.servers route) kernel attrib dev) :
    (st.setServer route server).dropLimits.Coherent where
  functions := h.setServer_functions fun key hmem hlive hroute _ hvalue ↦
    (hfunction key hmem hlive hroute).trans hvalue
  kernels := h.setServer_kernels fun key _ hvalue ↦
    (hkernel key.kernel key.attrib key.dev).trans hvalue
  limits := Cache.coherent_empty
  answers := h.answers

theorem Coherent.storeKernel {attrib value dev : ℤ} {kernel : ℕ}
    (hset : driver.setKernel (st.servers route) attrib value kernel dev = some server)
    (hkept : ∀ key ∈ st.functions.keys, key.routeId ≠ -1 → key.routeId = route →
      key.attrib = attrib → driver.kernelOf (st.servers route) key.function ≠ some (kernel, dev)) :
    ((st.setServer route server).storeKernel ⟨route, kernel, attrib, dev⟩ value).Coherent where
  functions := by
    apply h.setServer_functions
    intro key hmem hlive hroute answer hanswer
    refine (driver.setKernel_function hset key.function key.attrib ?_).trans hanswer
    rintro ⟨hattrib, hkernel⟩
    exact hkept key hmem hlive hroute hattrib hkernel
  kernels := by
    -- what was kept under the key is replaced, so that only the other keys matter
    intro key answer _ hlookup
    by_cases hkey : key = ⟨route, kernel, attrib, dev⟩
    · subst hkey
      rw [AttributeClient.storeKernel, AList.lookup_insert, Option.some_inj] at hlookup
      rw [← hlookup]
      show driver.getKernel (Function.update st.servers route server route) kernel attrib dev = _
      rw [Function.update_self]
      exact driver.setKernel_self hset
    · rw [AttributeClient.storeKernel, AList.lookup_insert_ne hkey] at hlookup
      have hkernels := h.kernels key answer trivial hlookup
      show driver.getKernel (Function.update st.servers route server key.routeId) key.kernel
        key.attrib key.dev = _
      rcases eq_or_ne key.routeId route with hroute | hroute
      · rw [hroute, Function.update_self, driver.setKernel_kernel hset, ← hroute]
        · exact hkernels
        · rintro ⟨hkernel, hattrib, hdev⟩
          exact hkey (by rw [← hroute, ← hkernel, ← hattrib, ← hdev])
      · rw [Function.update_of_ne hroute]
        exact hkernels
  limits := h.setServer_limits fun key _ hvalue ↦
    (driver.setKernel_limit hset key.context key.limit).trans hvalue
  answers := h.answers

theorem Coherent.create {object : driver.Object}
    (hcreate : driver.create (st.servers route) object = some server) :
    (st.setServer route server).Coherent where
  functions := h.setServer_functions fun key _ _ _ ↦
    driver.create_function hcreate key.function key.attrib
  kernels := h.setServer_kernels fun key ↦
    driver.create_kernel hcreate key.kernel key.attrib key.dev
  limits := h.setServer_limits fun key ↦ driver.create_limit hcreate key.context key.limit
  answers := h.answers

end Frames

/-- **One call.** A call after which the caches tell the truth leaves them coherent, and what it
answers is what the driver answers. -/
theorem Coherent.call (h : st.Coherent) {call : AttributeCall driver} (hcall : st.Noticed call) :
    (st.call call).Coherent := by
  cases call with
  | funcGetAttribute route function attrib =>
    rw [AttributeClient.call]
    split_ifs with hlocal
    -- keys of the local driver are never read back, so what is stored there does not matter
    · refine ⟨?_, h.kernels, h.limits, h.answers.answer rfl⟩
      show Cache.Coherent _ st.functionSource _
      cases st.functionSource ⟨route, function, attrib⟩ with
      | none => exact h.functions
      | some value => exact h.functions.insert fun hlive ↦ absurd hlocal hlive
    · obtain ⟨hanswer, hfunctions⟩ := h.functions.readThrough ⟨route, function, attrib⟩ hlocal
      exact ⟨hfunctions, h.kernels, h.limits, h.answers.answer hanswer⟩
  | funcSetAttribute route function attrib value =>
    rw [AttributeClient.call]
    split
    · exact h
    · exact h.dropAttributes (driver.setFunction_limit ‹_›)
  | kernelGetAttribute route attrib kernel dev =>
    obtain ⟨hanswer, hkernels⟩ := h.kernels.readThrough ⟨route, kernel, attrib, dev⟩ trivial
    exact ⟨h.functions, hkernels, h.limits, h.answers.answer hanswer⟩
  | kernelSetAttribute route attrib value kernel dev =>
    rw [Noticed] at hcall
    rw [AttributeClient.call]
    -- the value is the cached one and no request is made: the server would have answered the same
    split_ifs at hcall ⊢ with hmatch
    · refine ⟨h.functions, h.kernels, h.limits, h.answers.answer ?_⟩
      have hvalue := h.kernels _ value trivial hmatch
      obtain ⟨server, hset⟩ := Option.isSome_iff_exists.mp (driver.setKernel_again hvalue hcall)
      rw [hset, Option.map_some]
    · split
      · exact h
      · exact h.storeKernel ‹_› hcall
  | ctxGetLimit route hint current limit =>
    -- the hint is the current context, by the condition on the call
    obtain rfl : hint = current := hcall
    obtain ⟨hanswer, hlimits⟩ := h.limits.readThrough ⟨route, hint, limit⟩ trivial
    exact ⟨h.functions, h.kernels, hlimits, h.answers.answer hanswer⟩
  | ctxSetLimit route current limit value =>
    rw [AttributeClient.call]
    split
    next => exact h
    next hset =>
      apply h.dropLimits
      · intro key _ _ _
        exact driver.setLimit_function hset key.function key.attrib
      · exact driver.setLimit_kernel hset
  | create route object =>
    rw [AttributeClient.call]
    split
    · exact h
    · exact h.create ‹_›
  | moduleUnload route image =>
    rw [AttributeClient.call]
    split
    · exact h
    · exact h.dropAttributes (driver.unload_limit ‹_›)
  | libraryUnload route image =>
    rw [AttributeClient.call]
    split
    -- a failed unload at a server still drops what is cached of functions and kernels
    · split_ifs
      · exact h
      · exact ⟨Cache.coherent_empty, Cache.coherent_empty, h.limits, h.answers⟩
    · exact h.dropAttributes (driver.unload_limit ‹_›)
  | destroyContext route context =>
    rw [AttributeClient.call]
    split
    next => exact h
    next hdestroy =>
      apply h.dropLimits
      · intro key hmem hlive hroute
        exact driver.destroy_function hdestroy key.function key.attrib (hcall key hmem hlive hroute)
      · exact driver.destroy_kernel hdestroy

end AttributeClient

/-! ## Runs

The answers are right as long as each call was coherent, so the condition is on every call of the
run. -/

def attributeCacheMachine (driver : AttributeDriver) :
    Machine (AttributeClient driver) (AttributeCall driver) where
  step st call := some (st.call call)

/-- **The caches.** In a run all of whose calls are noticed, every answer is the one that the driver
would have given at that moment, from a cache or not. -/
theorem attribute_answers_agree (servers : ℤ → driver.State) (calls : List (AttributeCall driver))
    {st : AttributeClient driver}
    (hrun : ((attributeCacheMachine driver).restrict AttributeClient.Noticed).run { servers }
      calls = some st) :
    st.AnswersAgree := by
  have hcoherent : st.Coherent := by
    refine Machine.run_invariant _ ?_ ?_ hrun
    · intro st call st' h hstep
      obtain ⟨hcall, hstep⟩ := Machine.step_restrict.mp hstep
      exact Option.some_inj.mp hstep ▸ h.call hcall
    · exact ⟨Cache.coherent_empty, Cache.coherent_empty, Cache.coherent_empty,
        fun _ hmem ↦ nomatch hmem⟩
  exact hcoherent.answers

/-! ## A driver of tables

This driver shows that the condition can be met and violated. An attribute of a function is its own,
if it has it, or that of its kernel, and a handle is given to one object at a time. -/

/-- A function: its context, the kernel and the device it was got for, and its own attributes. -/
structure TableFunction where
  context : CUcontext
  origin : Option (ℕ × ℤ) := none
  own : ℤ → Option ℤ := fun _ ↦ none

/-- What is alive in a driver. The attributes of a kernel are by attribute and device. -/
structure AttributeTables where
  functions : ℕ → Option TableFunction := fun _ ↦ none
  kernels : ℕ → Option (ℤ → ℤ → ℤ) := fun _ ↦ none
  contexts : CUcontext → Option (ℤ → ℤ) := fun _ ↦ none

namespace AttributeTables

variable (st : AttributeTables)

inductive Object where
  | function (handle : ℕ) (function : TableFunction)
  | kernel (handle : ℕ) (attribs : ℤ → ℤ → ℤ)
  | context (handle : CUcontext) (limits : ℤ → ℤ)

def getKernel (kernel : ℕ) (attrib dev : ℤ) : Option ℤ :=
  (st.kernels kernel).map fun attribs ↦ attribs attrib dev

/-- The attribute of its own, if the function has it, or else the kernel's. -/
def getFunction (function : ℕ) (attrib : ℤ) : Option ℤ :=
  (st.functions function).bind fun f ↦
    (f.own attrib).or (f.origin.bind fun origin ↦ st.getKernel origin.1 attrib origin.2)

def getLimit (context : CUcontext) (limit : ℤ) : Option ℤ :=
  (st.contexts context).map fun limits ↦ limits limit

/-- The size of the dynamic shared memory and the preferred carveout can be set. -/
def settable (attrib : ℤ) : Bool := attrib = 8 || attrib = 9

def setFunction (function : ℕ) (attrib value : ℤ) : Option AttributeTables :=
  if settable attrib then
    (st.functions function).map fun f ↦
      let own := Function.update f.own attrib (some value)
      { st with functions := Function.update st.functions function (some { f with own }) }
  else none

def setKernel (attrib value : ℤ) (kernel : ℕ) (dev : ℤ) : Option AttributeTables :=
  if settable attrib then
    (st.kernels kernel).map fun attribs ↦
      let attribs := Function.update attribs attrib (Function.update (attribs attrib) dev value)
      { st with kernels := Function.update st.kernels kernel (some attribs) }
  else none

def setLimit (context : CUcontext) (limit value : ℤ) : Option AttributeTables :=
  (st.contexts context).map fun limits ↦
    let limits := Function.update limits limit value
    { st with contexts := Function.update st.contexts context (some limits) }

/-- A handle is given to one object at a time. -/
def create : Object → Option AttributeTables
  | .function handle function =>
    if (st.functions handle).isSome then none
    else some { st with functions := Function.update st.functions handle (some function) }
  | .kernel handle attribs =>
    if (st.kernels handle).isSome then none
    else some { st with kernels := Function.update st.kernels handle (some attribs) }
  | .context handle limits =>
    if (st.contexts handle).isSome then none
    else some { st with contexts := Function.update st.contexts handle (some limits) }

/-- The kernels and the functions of an image go. -/
def unload (image : List ℕ × List ℕ) : AttributeTables :=
  { st with
    kernels := fun kernel ↦ if kernel ∈ image.1 then none else st.kernels kernel
    functions := fun function ↦ if function ∈ image.2 then none else st.functions function }

/-- The functions of a context go with it. -/
def destroy (context : CUcontext) : AttributeTables :=
  { st with
    functions := fun function ↦ (st.functions function).filter (·.context ≠ context)
    contexts := Function.update st.contexts context none }

variable {st} {st' : AttributeTables}

/-- An attribute of a function depends on the function and on the same attribute of its kernel. -/
theorem getFunction_congr {function : ℕ} {attrib : ℤ}
    (hfunction : st'.functions function = st.functions function)
    (hkernel : ∀ kernel dev, (st.functions function).bind (·.origin) = some (kernel, dev) →
      st'.getKernel kernel attrib dev = st.getKernel kernel attrib dev) :
    st'.getFunction function attrib = st.getFunction function attrib := by
  rw [getFunction, getFunction, hfunction]
  cases hf : st.functions function with
  | none => rfl
  | some f =>
    cases horigin : f.origin with
    | none => simp [horigin]
    | some origin =>
      have heq := hkernel origin.1 origin.2 (by rw [hf, Option.bind_some, horigin])
      simp [horigin, heq]

theorem getFunction_of_subset {function : ℕ} {attrib value : ℤ}
    (hfunctions : ∀ handle f, st.functions handle = some f → st'.functions handle = some f)
    (hkernels : ∀ kernel attribs, st.kernels kernel = some attribs →
      st'.kernels kernel = some attribs)
    (h : st.getFunction function attrib = some value) :
    st'.getFunction function attrib = some value := by
  obtain ⟨f, hf, hvalue⟩ := Option.bind_eq_some_iff.mp h
  rw [getFunction, hfunctions function f hf, Option.bind_some]
  rcases Option.or_eq_some_iff.mp hvalue with hown | ⟨hown, hbind⟩
  · rw [hown, Option.some_or]
  · obtain ⟨origin, horigin, hkernel⟩ := Option.bind_eq_some_iff.mp hbind
    obtain ⟨attribs, hattribs, rfl⟩ := Option.map_eq_some_iff.mp hkernel
    rw [hown, Option.none_or, horigin, Option.bind_some, getKernel, hkernels _ attribs hattribs]
    rfl

theorem update_of_free {β : Type} {table : ℕ → Option β} {handle k : ℕ} {x y : β}
    (hfree : ¬(table handle).isSome = true) (hk : table k = some y) :
    Function.update table handle (some x) k = some y := by
  rcases eq_or_ne k handle with rfl | hne
  · exact absurd (Option.isSome_of_eq_some hk) hfree
  · rw [Function.update_of_ne hne, hk]

theorem create_subset {object : Object} (h : st.create object = some st') :
    (∀ handle f, st.functions handle = some f → st'.functions handle = some f) ∧
    (∀ kernel attribs, st.kernels kernel = some attribs → st'.kernels kernel = some attribs) ∧
    ∀ context limits, st.contexts context = some limits → st'.contexts context = some limits := by
  rcases object with ⟨handle, function⟩ | ⟨handle, attribs⟩ | ⟨handle, limits⟩ <;>
    obtain ⟨hfree, h⟩ := Option.ite_none_left_eq_some.mp h <;>
    obtain rfl := Option.some_inj.mp h
  · exact ⟨fun _ _ ↦ update_of_free hfree, fun _ _ ↦ id, fun _ _ ↦ id⟩
  · exact ⟨fun _ _ ↦ id, fun _ _ ↦ update_of_free hfree, fun _ _ ↦ id⟩
  · exact ⟨fun _ _ ↦ id, fun _ _ ↦ id, fun _ _ ↦ update_of_free hfree⟩

theorem setKernel_eq_some {attrib value dev : ℤ} {kernel : ℕ}
    (h : st.setKernel attrib value kernel dev = some st') :
    ∃ attribs, st.kernels kernel = some attribs ∧
      st' = { st with kernels := Function.update st.kernels kernel (some
        (Function.update attribs attrib (Function.update (attribs attrib) dev value))) } := by
  rw [setKernel, Option.ite_none_right_eq_some, Option.map_eq_some_iff] at h
  obtain ⟨-, attribs, hattribs, rfl⟩ := h
  exact ⟨attribs, hattribs, rfl⟩

theorem getKernel_setKernel {attrib value dev : ℤ} {kernel : ℕ}
    (h : st.setKernel attrib value kernel dev = some st') (kernel' : ℕ) (attrib' dev' : ℤ) :
    st'.getKernel kernel' attrib' dev' =
      if kernel' = kernel ∧ attrib' = attrib ∧ dev' = dev then some value
      else st.getKernel kernel' attrib' dev' := by
  obtain ⟨attribs, hattribs, rfl⟩ := setKernel_eq_some h
  rcases eq_or_ne kernel' kernel with rfl | hkernel
  · rcases eq_or_ne attrib' attrib with rfl | hattrib
    · by_cases hdev : dev' = dev <;> simp [getKernel, hattribs, hdev]
    · simp [getKernel, hattribs, hattrib]
  · simp [getKernel, hkernel]

end AttributeTables

def tableDriver : AttributeDriver where
  State := AttributeTables
  Object := AttributeTables.Object
  Image := List ℕ × List ℕ
  getFunction := AttributeTables.getFunction
  getKernel := AttributeTables.getKernel
  getLimit := AttributeTables.getLimit
  setFunction := AttributeTables.setFunction
  setKernel := AttributeTables.setKernel
  setLimit := AttributeTables.setLimit
  create := AttributeTables.create
  unload st image := some (st.unload image)
  destroy st context := some (st.destroy context)
  kernelOf st function := (st.functions function).bind (·.origin)
  contextOf st function := (st.functions function).map (·.context)
  settable := AttributeTables.settable
  setFunction_limit := by
    intro st st' function attrib value h context limit
    rw [AttributeTables.setFunction, Option.ite_none_right_eq_some, Option.map_eq_some_iff] at h
    obtain ⟨-, f, -, rfl⟩ := h
    rfl
  setKernel_self h := by rw [AttributeTables.getKernel_setKernel h, if_pos ⟨rfl, rfl, rfl⟩]
  setKernel_kernel h kernel attrib dev hne := by
    rw [AttributeTables.getKernel_setKernel h, if_neg hne]
  setKernel_function := by
    intro st st' attrib value kernel dev h function attrib' hne
    apply AttributeTables.getFunction_congr
    · obtain ⟨attribs, -, rfl⟩ := AttributeTables.setKernel_eq_some h
      rfl
    · intro kernel' dev' horigin
      rw [AttributeTables.getKernel_setKernel h, if_neg]
      rintro ⟨rfl, rfl, rfl⟩
      exact hne ⟨rfl, horigin⟩
  setKernel_limit := by
    intro st st' attrib value kernel dev h context limit
    obtain ⟨attribs, -, rfl⟩ := AttributeTables.setKernel_eq_some h
    rfl
  setKernel_again := by
    intro st attrib value kernel dev h hset
    obtain ⟨attribs, hattribs, -⟩ := Option.map_eq_some_iff.mp h
    rw [AttributeTables.setKernel, if_pos hset, hattribs]
    rfl
  setLimit_function := by
    intro st st' context limit value h function attrib
    obtain ⟨limits, -, rfl⟩ := Option.map_eq_some_iff.mp h
    rfl
  setLimit_kernel := by
    intro st st' context limit value h kernel attrib dev
    obtain ⟨limits, -, rfl⟩ := Option.map_eq_some_iff.mp h
    rfl
  create_function := by
    intro st st' object h function attrib value hvalue
    obtain ⟨hfunctions, hkernels, -⟩ := AttributeTables.create_subset h
    exact AttributeTables.getFunction_of_subset hfunctions hkernels hvalue
  create_kernel := by
    intro st st' object h kernel attrib dev value hvalue
    obtain ⟨attribs, hattribs, rfl⟩ := Option.map_eq_some_iff.mp hvalue
    rw [AttributeTables.getKernel, (AttributeTables.create_subset h).2.1 kernel attribs hattribs]
    rfl
  create_limit := by
    intro st st' object h context limit value hvalue
    obtain ⟨limits, hlimits, rfl⟩ := Option.map_eq_some_iff.mp hvalue
    rw [AttributeTables.getLimit, (AttributeTables.create_subset h).2.2 context limits hlimits]
    rfl
  unload_limit := by
    rintro st st' image h context limit
    rw [← Option.some_inj.mp h]
    rfl
  destroy_kernel := by
    intro st st' context h kernel attrib dev
    rw [← Option.some_inj.mp h]
    rfl
  destroy_function := by
    intro st st' context h function attrib hne
    rw [← Option.some_inj.mp h]
    apply AttributeTables.getFunction_congr
    · show (st.functions function).filter (·.context ≠ context) = st.functions function
      cases hf : st.functions function with
      | none => rfl
      | some f =>
        have hother : f.context ≠ context := fun heq ↦ hne (by rw [hf, Option.map_some, heq])
        exact Option.filter_some_pos (decide_eq_true hother)
    · intro kernel dev _
      rfl

/-- A driver with context 1, and kernel 2 with its function 3 on device 0. -/
def loadedTables : AttributeTables where
  functions := Function.update (fun _ ↦ none) 3 (some { context := 1, origin := some (2, 0) })
  kernels := Function.update (fun _ ↦ none) 2 (some fun _ _ ↦ 0)
  contexts := Function.update (fun _ ↦ none) 1 (some fun _ ↦ 1024)

/-- Attributes and a limit are set, read, read again, and read after the module is unloaded and its
handle given to another function. -/
def readAfterEachChange : List (AttributeCall tableDriver) :=
  [.kernelSetAttribute 0 8 4096 2 0, .kernelSetAttribute 0 8 4096 2 0, .funcGetAttribute 0 3 8,
    .funcGetAttribute 0 3 8, .funcSetAttribute 0 3 8 512, .funcGetAttribute 0 3 8,
    .moduleUnload 0 ([], [3]), .create 0 (.function 3 { context := 1, own := fun _ ↦ some 256 }),
    .funcGetAttribute 0 3 8, .ctxGetLimit 0 1 1 0, .ctxSetLimit 0 1 0 2048, .ctxGetLimit 0 1 1 0,
    .destroyContext 0 5]

theorem attribute_answers_agree_readAfterEachChange :
    ∃ st, ((attributeCacheMachine tableDriver).restrict AttributeClient.Noticed).run
        { servers := fun _ ↦ loadedTables } readAfterEachChange = some st ∧
      st.answers.length = 7 ∧ st.AnswersAgree := by
  have hrun : ∃ st, ((attributeCacheMachine tableDriver).restrict AttributeClient.Noticed).run
      { servers := fun _ ↦ loadedTables } readAfterEachChange = some st ∧
        st.answers.length = 7 := ⟨_, rfl, rfl⟩
  obtain ⟨st, hrun, hlength⟩ := hrun
  exact ⟨st, hrun, hlength, attribute_answers_agree _ _ hrun⟩

/-- An attribute of a function is read, set through the kernel and read again. -/
def setThroughKernel : List (AttributeCall tableDriver) :=
  [.funcGetAttribute 0 3 8, .kernelSetAttribute 0 8 4096 2 0, .funcGetAttribute 0 3 8]

/-- The context of a function ends, and the handle is given to a function of another. -/
def handleGivenAgain : List (AttributeCall tableDriver) :=
  [.funcGetAttribute 0 3 8, .destroyContext 0 1,
    .create 0 (.function 3 { context := 4, own := fun _ ↦ some 256 }), .funcGetAttribute 0 3 8]

/-- An attribute that cannot be set is read and set to its value. -/
def setReadOnly : List (AttributeCall tableDriver) :=
  [.kernelGetAttribute 0 0 2 0, .kernelSetAttribute 0 0 0 2 0]

/-- **Answers that are out of date.** -/
theorem attribute_answers_differ :
    [setThroughKernel, handleGivenAgain, setReadOnly].Forall fun calls ↦
      ∃ st, (attributeCacheMachine tableDriver).run { servers := fun _ ↦ loadedTables } calls =
          some st ∧
        ¬st.AnswersAgree := by
  refine ⟨?_, ?_, ?_⟩
  · exact ⟨_, rfl, by decide⟩
  · exact ⟨_, rfl, by decide⟩
  · exact ⟨_, rfl, by decide⟩

end Lupine
