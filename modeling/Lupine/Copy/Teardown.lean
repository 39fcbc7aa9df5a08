import Lupine.Copy.HostToDevice
import Lupine.Copy.StagingReuse
import Mathlib.Data.Finset.Option

/-!
# Staging and the end of contexts

The staging of a connection belongs to contexts: a slot or a spill to the one its memory was
allocated in and the one its event was created in, the buffers of synchronous copies to one as well.
Before a context ends its staging is retired, and after that it is forgotten. A copy is a staging
operation, at most one at a time; a teardown makes operations of the context or the device wait or
turn back, and waits until none is active.

## Teardowns

Creation, retention and teardown of contexts are transactions, one at a time. The first step of a
teardown enters the context or the device into the sets of those under teardown. It prepares when no
operation is active; then the driver is called; and it finishes, which may wait for an operation of
another context.

A teardown of a primary context knows the device and looks the context up. What is recorded there
was retained, or is inferred: an operation on a context that is not recorded as created takes it for
the primary one of its device.

## What a failed call leaves

`lupine_server_finish_context_destroy` forgets the context on any result, and the others on any
failure. A context that survives is then no longer recorded as created, so that the next operation
on it is taken for one on the primary context of the device.

## What is shown

While a teardown is under way no operation on its context or device is active or can begin, and
what a finish forgets is gone from slots, spills, pools and records until the driver gives the
handle out again. Both rest on one observation about copies: no step of a copy brings in a context
other than that of the operation, so what refers to no context of a set goes on to do so.
-/

open Foundation

namespace Lupine

/-! ## The buffers of synchronous copies

A buffer that refers to the context becomes a fresh one, whether it is retired or forgotten. -/

abbrev CUdevice := Nat

/-- What `lupine_sync_htod_forget` and `lupine_sync_htod_retire` leave. -/
def SyncHtodPool.forget (pool : SyncHtodPool) (context : CUcontext) : SyncHtodPool :=
  if pool.context = context then {} else pool

/-- What `lupine_async_htod_retire_context` and its sibling do for the retained buffer. -/
def RetainedStaging.forget (retained : RetainedStaging) (context : CUcontext) : RetainedStaging :=
  if retained.allocationContext = context then {} else retained

/-! ## Operations and transactions

An operation has a lane, and it waits, turns back or becomes active. A transaction has a stage; the
answers of the driver and the choice of the next lane come with the step. -/

/-- The arguments of a `lupine_staging_operation`, and whether the copy is asynchronous. -/
structure StagingRequest where
  context : CUcontext
  device : CUdevice
  asynchronous : Bool
  deriving DecidableEq, Repr

inductive Teardown where
  /-- `cuDevicePrimaryCtxRelease` or `cuDevicePrimaryCtxReset`. -/
  | primary (device : CUdevice) (reset : Bool)
  | destroy (context : CUcontext)
  | detach (context : CUcontext)
  deriving DecidableEq, Repr

/-- What the driver answers: the result of the call, that of the query after it (the state of the
primary context, or the version of the detached one), and whether the primary context is active. -/
structure TeardownAnswers where
  result : CUresult
  query : CUresult
  active : Bool
  deriving DecidableEq, Repr

namespace Teardown

/-- The contexts that enter the set before the wait. -/
def contexts : Teardown → Finset CUcontext
  | .primary .. => ∅
  | .destroy context | .detach context => {context}

def devices : Teardown → Finset CUdevice
  | .primary device _ => {device}
  | _ => ∅

/-- What the driver's answers say of the context: it is gone. -/
def Destroyed (answers : TeardownAnswers) : Teardown → Prop
  | .primary _ reset =>
    if reset then answers.result = .success
    else answers.query = .success ∧ answers.active = false
  | .destroy _ => answers.result = .success
  | .detach _ => answers.query ≠ .success

/-- Whether the finish forgets the context. -/
def Forgets (context : CUcontext) (answers : TeardownAnswers) : Teardown → Prop
  | .primary _ reset =>
    context ≠ 0 ∧ (reset = true ∨ answers.result ≠ .success ∨ answers.query ≠ .success ∨
      answers.active = false)
  | .destroy _ => True
  | .detach _ => answers.result ≠ .success ∨ answers.query ≠ .success

instance (context : CUcontext) (answers : TeardownAnswers) :
    ∀ teardown : Teardown, Decidable (teardown.Forgets context answers)
  | .primary .. => inferInstanceAs (Decidable (_ ∧ _))
  | .destroy _ => inferInstanceAs (Decidable True)
  | .detach _ => inferInstanceAs (Decidable (_ ∨ _))

end Teardown

inductive TransactionStage where
  /-- A context is created, retained or attached. -/
  | noting
  /-- The context or the device is in the sets. -/
  | preparing (teardown : Teardown)
  /-- No operation was active, and the context is retired. -/
  | prepared (teardown : Teardown)
  /-- The driver has answered; `context` is what is to be forgotten. -/
  | finishing (teardown : Teardown) (context : CUcontext) (answers : TeardownAnswers)
  deriving DecidableEq, Repr

/-- The teardown that is between its preparation and its finish. -/
def TransactionStage.underway : TransactionStage → Option Teardown
  | .prepared teardown | .finishing teardown _ _ => some teardown
  | _ => none

/-- `lupine_staging_state`, with the lanes that wait to begin an operation, the one whose operation
is active, and the transaction of the lane that holds `lifecycle_mutex`. -/
structure LifecycleState extends StagingState where
  async : AsyncStaging := {}
  primaryContexts : CUdevice → Option CUcontext := fun _ ↦ none
  createdContexts : Finset CUcontext := ∅
  teardownContexts : Finset CUcontext := ∅
  teardownDevices : Finset CUdevice := ∅
  waiting : ℕ → Option StagingRequest := fun _ ↦ none
  active : Option (ℕ × StagingRequest) := none
  transaction : Option (ℕ × TransactionStage) := none

/-- What can happen. The results of calls to the driver are given with the step. -/
inductive TeardownStep where
  /-- A lane has asked for its context and device and constructs its operation. -/
  | request (lane : ℕ) (request : StagingRequest)
  | start (lane : ℕ)
  | turnBack (lane : ℕ)
  /-- A step of the active asynchronous copy, or of the window. -/
  | staging (step : StagingStep)
  | syncPrepare (calls : HtodCalls)
  | syncDisable
  | acquireStaging (calls : HtodCalls) (bytes : ℕ)
  /-- The operation is destroyed. -/
  | leave
  /-- A transaction that tears nothing down begins. -/
  | beginNoting (lane : ℕ)
  | noteCreated (context : CUcontext) (result : CUresult)
  | notePrimary (device : CUdevice) (context : CUcontext) (result : CUresult)
  | noteNothing
  | beginTeardown (lane : ℕ) (teardown : Teardown)
  | prepare (cuda : SweepAnswers)
  | call (answers : TeardownAnswers)
  | finish

namespace LifecycleState

variable (st : LifecycleState)

/-- The operation would not be acquired. -/
def UnderTeardown (request : StagingRequest) : Prop :=
  request.context ∈ st.teardownContexts ∨ request.device ∈ st.teardownDevices

instance (request : StagingRequest) : Decidable (st.UnderTeardown request) :=
  inferInstanceAs (Decidable (_ ∨ _))

/-- The lane serves nothing else. -/
def LaneFree (lane : ℕ) : Prop :=
  st.waiting lane = none ∧ st.active.map Prod.fst ≠ some lane ∧
    st.transaction.map Prod.fst ≠ some lane

instance (lane : ℕ) : Decidable (st.LaneFree lane) := inferInstanceAs (Decidable (_ ∧ _))

/-! ### Operations -/

/-- `lupine_note_inferred_primary_context`. -/
def noteInferredPrimaryContext (context : CUcontext) (device : CUdevice) : LifecycleState :=
  if context = 0 ∨ context ∈ st.createdContexts then st
  else { st with primaryContexts := Function.update st.primaryContexts device (some context) }

/-- `lupine_staging_operation` that is acquired. -/
def start (lane : ℕ) (request : StagingRequest) : LifecycleState :=
  { st with
    waiting := Function.update st.waiting lane none
    active := some (lane, request)
    async := if request.asynchronous then st.async.goTo request.context .choosing else st.async
    }.noteInferredPrimaryContext request.context request.device

/-- The steps that an asynchronous copy takes, and those of the window. -/
def isCopyStep : StagingStep → Bool
  | .begin _ | .retire .. | .forget _ => false
  | _ => true

/-! ### Contexts -/

/-- `lupine_async_htod_retire_context`. -/
def asyncHtodRetireContext (context : CUcontext) (cuda : SweepAnswers) : LifecycleState :=
  if context = 0 then st
  else
    { st with
      async := st.async.retireContext context cuda
      syncStaging := st.syncStaging.forget context
      syncHtod := st.syncHtod.forget context }

/-- `lupine_server_forget_context_metadata`. -/
def forgetContextMetadata (context : CUcontext) : LifecycleState :=
  { st with
    async := st.async.forgetContext context
    syncStaging := st.syncStaging.forget context
    syncHtod := st.syncHtod.forget context
    createdContexts := st.createdContexts.erase context
    primaryContexts := fun device ↦
      if st.primaryContexts device = some context then none else st.primaryContexts device }

/-- The contexts under teardown from the preparation on. -/
def affected : Teardown → Finset CUcontext
  | .primary device _ => (st.primaryContexts device).toFinset
  | .destroy context | .detach context => {context}

def beginTeardown (lane : ℕ) (teardown : Teardown) : LifecycleState :=
  { st with
    transaction := some (lane, .preparing teardown)
    teardownDevices := st.teardownDevices ∪ teardown.devices
    teardownContexts := st.teardownContexts ∪ teardown.contexts }

/-- The rest of `lupine_server_prepare_primary_context` and `lupine_server_prepare_context_destroy`,
after the wait. -/
def prepare (lane : ℕ) (teardown : Teardown) (cuda : SweepAnswers) : LifecycleState :=
  let st := { st with transaction := some (lane, .prepared teardown) }
  match teardown with
  | .primary device _ =>
    match st.primaryContexts device with
    | some context =>
      { st with teardownContexts := insert context st.teardownContexts
        }.asyncHtodRetireContext context cuda
    | none => st
  | .destroy context | .detach context => st.asyncHtodRetireContext context cuda

/-- The context that the finish looks up, or is given. -/
def finishedContext : Teardown → CUcontext
  | .primary device _ => (st.primaryContexts device).getD 0
  | .destroy context | .detach context => context

/-- The end of the three finishing functions, which also ends the transaction. -/
def finish (teardown : Teardown) (context : CUcontext) (answers : TeardownAnswers) :
    LifecycleState :=
  let st := if teardown.Forgets context answers then st.forgetContextMetadata context else st
  { st with
    teardownDevices := st.teardownDevices \ teardown.devices
    teardownContexts := st.teardownContexts.erase context
    transaction := none }

def step (st : LifecycleState) : TeardownStep → Option LifecycleState
  | .request lane request =>
    if st.LaneFree lane ∧ request.context ≠ 0 then
      some { st with waiting := Function.update st.waiting lane (some request) }
    else none
  | .start lane =>
    (st.waiting lane).bind fun request ↦
      if st.active = none ∧ ¬st.UnderTeardown request then some (st.start lane request) else none
  | .turnBack lane =>
    (st.waiting lane).bind fun request ↦
      if st.UnderTeardown request then
        some { st with waiting := Function.update st.waiting lane none }
      else none
  | .staging step =>
    if isCopyStep step then
      (stagingStep st.async step).map fun async ↦ { st with async }
    else none
  | .syncPrepare calls =>
    st.active.bind fun active ↦
      if active.2.asynchronous then none
      else some { st with syncHtod := (syncHtodPrepare calls st.syncHtod active.2.context).2 }
  | .syncDisable =>
    st.active.bind fun active ↦
      if active.2.asynchronous then none
      else some { st with toStagingState := st.disable }
  | .acquireStaging calls bytes =>
    st.active.bind fun active ↦
      -- the context of the operation is still the current one
      if active.2.asynchronous ∨
          ¬(calls.stagingCtxGetCurrent.1 = .success →
            calls.stagingCtxGetCurrent.2 = active.2.context) then none
      else some { st with syncStaging := (acquireStaging calls bytes st.syncStaging).2 }
  | .leave =>
    if st.active.isSome ∧ st.async.operation = none then some { st with active := none } else none
  | .beginNoting lane =>
    if st.LaneFree lane ∧ st.transaction = none then
      some { st with transaction := some (lane, .noting) }
    else none
  | .noteCreated context result =>
    if st.transaction.map Prod.snd = some .noting then
      some { st with
        transaction := none
        createdContexts :=
          if result ≠ .success ∨ context = 0 then st.createdContexts
          else insert context st.createdContexts }
    else none
  | .notePrimary device context result =>
    if st.transaction.map Prod.snd = some .noting then
      some { st with
        transaction := none
        primaryContexts :=
          if result ≠ .success ∨ context = 0 then st.primaryContexts
          else Function.update st.primaryContexts device (some context) }
    else none
  | .noteNothing =>
    if st.transaction.map Prod.snd = some .noting then some { st with transaction := none }
    else none
  | .beginTeardown lane teardown =>
    if st.LaneFree lane ∧ st.transaction = none then some (st.beginTeardown lane teardown)
    else none
  | .prepare cuda =>
    match st.transaction with
    | some (lane, .preparing teardown) =>
      if st.active = none then some (st.prepare lane teardown cuda) else none
    | _ => none
  | .call answers =>
    match st.transaction with
    | some (lane, .prepared teardown) =>
      let stage := .finishing teardown (st.finishedContext teardown) answers
      some { st with transaction := some (lane, stage) }
    | _ => none
  | .finish =>
    match st.transaction with
    | some (_, .finishing teardown context answers) =>
      if teardown.Forgets context answers → st.active = none then
        some (st.finish teardown context answers)
      else none
    | _ => none

variable {st} {st' : LifecycleState}

theorem prepare_cases {cuda : SweepAnswers} (hstep : st.step (.prepare cuda) = some st') :
    ∃ lane teardown, st.transaction = some (lane, .preparing teardown) ∧ st.active = none ∧
      st' = st.prepare lane teardown cuda := by
  simp only [LifecycleState.step] at hstep
  split at hstep
  next lane teardown hstage =>
    obtain ⟨hidle, rfl⟩ := Option.ite_some_none_eq_some.mp hstep
    exact ⟨lane, teardown, hstage, hidle, rfl⟩
  next => exact nomatch hstep

theorem call_cases {answers : TeardownAnswers} (hstep : st.step (.call answers) = some st') :
    ∃ lane teardown, st.transaction = some (lane, .prepared teardown) ∧
      st' = { st with
        transaction :=
          some (lane, .finishing teardown (st.finishedContext teardown) answers) } := by
  simp only [LifecycleState.step] at hstep
  split at hstep
  next lane teardown hstage => exact ⟨lane, teardown, hstage, (Option.some.inj hstep).symm⟩
  next => exact nomatch hstep

theorem finish_cases (hstep : st.step .finish = some st') :
    ∃ lane teardown context answers,
      st.transaction = some (lane, .finishing teardown context answers) ∧
      (teardown.Forgets context answers → st.active = none) ∧
      st' = st.finish teardown context answers := by
  simp only [LifecycleState.step] at hstep
  split at hstep
  next lane teardown context answers hstage =>
    obtain ⟨hidle, rfl⟩ := Option.ite_some_none_eq_some.mp hstep
    exact ⟨lane, teardown, context, answers, hstage, hidle, rfl⟩
  next => exact nomatch hstep

end LifecycleState

/-- The staging of a connection under the calls of its lanes. -/
def teardownMachine : Machine LifecycleState TeardownStep := ⟨LifecycleState.step⟩

/-! ## The contexts that staging belongs to

`OnlyFrom` says that all contexts of a slot, a spill or the whole staging meet a condition. It is
proved for an arbitrary condition, and used for two: to be another than the forgotten context, and
to be that of the operation or one that was there before. Forgetting a slot leaves a fresh one, so
afterwards no slot and no spill belongs to the context. -/

section OnlyFrom

variable (P : CUcontext → Prop)

/-- The contexts of a slot meet a condition. -/
def AsyncHtodSlot.OnlyFrom (slot : AsyncHtodSlot) : Prop :=
  P slot.allocationContext ∧ P slot.eventContext

/-- The contexts of a spill do. -/
def AsyncHtodSpill.OnlyFrom (spill : AsyncHtodSpill) : Prop :=
  P spill.allocationContext ∧ P spill.eventContext

/-- The contexts of all slots and spills do, and those of the active copy. -/
structure AsyncStaging.OnlyFrom (st : AsyncStaging) : Prop where
  slots : ∀ slot ∈ st.slots, slot.OnlyFrom P
  spills : ∀ spill ∈ st.spills, spill.OnlyFrom P
  operation : ∀ op ∈ st.operation,
    P op.context ∧ ∀ spill ∈ op.stage.currentSpill, spill.OnlyFrom P

variable {P}

namespace AsyncHtodSlot

variable {slot : AsyncHtodSlot} {context : CUcontext}

theorem OnlyFrom.reclaim (h : slot.OnlyFrom P) (e : StagingShared) (result : CUresult) :
    (slot.reclaim e context result).1.OnlyFrom P := by
  rw [AsyncHtodSlot.reclaim]
  split_ifs <;> exact h

theorem OnlyFrom.fit (h : slot.OnlyFrom P) (hnull : P 0) (e : StagingShared) (slotBytes : ℕ)
    (switched : Bool) : (slot.fit e context slotBytes switched).1.OnlyFrom P := by
  rw [AsyncHtodSlot.fit, resetAvailable]
  split_ifs
  · exact h
  · exact ⟨hnull, hnull⟩
  · exact h

theorem OnlyFrom.allocate (h : slot.OnlyFrom P) (hcontext : P context) (slotBytes : ℕ)
    (allocated : Bool) : (slot.allocate context slotBytes allocated).2.OnlyFrom P := by
  rw [AsyncHtodSlot.allocate]
  split_ifs
  · exact h
  · exact ⟨hcontext, h.2⟩
  · exact h

theorem OnlyFrom.createEvent (h : slot.OnlyFrom P) (hcontext : P context) (created : Bool) :
    (slot.createEvent context created).2.OnlyFrom P := by
  simp only [AsyncHtodSlot.createEvent]
  split_ifs <;> first | exact h | exact ⟨h.1, hcontext⟩

theorem OnlyFrom.prepare (h : slot.OnlyFrom P) (hnull : P 0) (hcontext : P context)
    (e : StagingShared) (slotBytes : ℕ) (answers : PrepareAnswers) :
    (slot.prepare e context slotBytes answers).2.1.OnlyFrom P := by
  have hfit : (slot.fit e context slotBytes answers.switched).1.OnlyFrom P :=
    h.fit hnull e slotBytes answers.switched
  have hallocated := hfit.allocate hcontext slotBytes answers.allocated
  simp only [AsyncHtodSlot.prepare]
  split_ifs
  · exact h
  · exact hallocated.createEvent hcontext answers.created
  · exact hallocated

theorem OnlyFrom.publish (h : slot.OnlyFrom P) (e : StagingShared) (result : CUresult) :
    (slot.publish e result).1.OnlyFrom P := by
  rw [AsyncHtodSlot.publish]
  split_ifs <;> exact h

theorem OnlyFrom.drop (h : slot.OnlyFrom P) (hnull : P 0) (e : StagingShared) (switched : Bool) :
    (slot.drop e context switched).1.OnlyFrom P := by
  simp only [AsyncHtodSlot.drop]
  split_ifs
  · exact ⟨hnull, hnull⟩
  · exact ⟨h.1, hnull⟩

theorem OnlyFrom.retire (h : slot.OnlyFrom P) (hnull : P 0) (e : StagingShared)
    (result : CUresult) (switched : Bool) :
    (slot.retire e context result switched).1.OnlyFrom P := by
  rw [AsyncHtodSlot.retire]
  split_ifs
  · exact h
  split
  · exact h.drop hnull e switched
  · exact h
  · have hreopened : (slot.reopen (asyncHtodQuery slot.completion result)).OnlyFrom P := h
    simp only
    split_ifs
    · exact h
    · exact h
    · exact hreopened.drop hnull e switched

theorem OnlyFrom.forget (h : slot.OnlyFrom P) (hnull : P 0) (e : StagingShared) :
    (slot.forget e context).1.OnlyFrom P := by
  rw [AsyncHtodSlot.forget]
  split_ifs
  · exact ⟨hnull, hnull⟩
  · exact h

theorem onlyFrom_forget (hcontext : context ≠ 0) (slot : AsyncHtodSlot) (e : StagingShared) :
    (slot.forget e context).1.OnlyFrom (· ≠ context) := by
  rw [AsyncHtodSlot.forget]
  split_ifs with hrefers
  · exact ⟨hcontext.symm, hcontext.symm⟩
  · exact not_or.mp hrefers

end AsyncHtodSlot

namespace AsyncHtodSpill

variable {spill : AsyncHtodSpill} {context : CUcontext}

theorem OnlyFrom.answered (h : spill.OnlyFrom P) (e : StagingShared) (result : CUresult)
    (switched : Bool) : ∀ left ∈ (spill.answered e result switched).1, left.OnlyFrom P := by
  rw [AsyncHtodSpill.answered]
  split_ifs <;> rintro _ ⟨⟩ <;> exact h

theorem OnlyFrom.reclaim (h : spill.OnlyFrom P) (e : StagingShared) (result : CUresult)
    (switched : Bool) :
    ∀ left ∈ (spill.reclaim e context result switched).1, left.OnlyFrom P := by
  rw [AsyncHtodSpill.reclaim]
  split_ifs
  · rintro _ ⟨⟩
    exact h
  · exact h.answered e result switched

theorem OnlyFrom.publish (h : spill.OnlyFrom P) (e : StagingShared) (result : CUresult) :
    (spill.publish e result).1.OnlyFrom P := by
  rw [AsyncHtodSpill.publish]
  split_ifs <;> exact h

theorem OnlyFrom.retire (h : spill.OnlyFrom P) (e : StagingShared) (result : CUresult)
    (switched : Bool) :
    ∀ left ∈ (spill.retire e context result switched).1, left.OnlyFrom P := by
  rw [AsyncHtodSpill.retire]
  split_ifs
  · rintro _ ⟨⟩
    exact h
  · rintro _ ⟨⟩
  · rintro _ ⟨⟩
    exact h
  · exact h.answered e _ switched

theorem OnlyFrom.forget (h : spill.OnlyFrom P) (e : StagingShared) :
    ∀ left ∈ (spill.forget e context).1, left.OnlyFrom P := by
  rw [AsyncHtodSpill.forget]
  split_ifs <;> rintro _ ⟨⟩
  exact h

theorem onlyFrom_forget (spill : AsyncHtodSpill) (e : StagingShared) :
    ∀ left ∈ (spill.forget e context).1, left.OnlyFrom (· ≠ context) := by
  rw [AsyncHtodSpill.forget]
  split_ifs with hother <;> rintro _ ⟨⟩
  exact hother

end AsyncHtodSpill

namespace AsyncStaging

variable {st st' : AsyncStaging} {context : CUcontext}

theorem OnlyFrom.goTo (h : st.OnlyFrom P) (hcontext : P context) {stage : HtodStage}
    (hspill : ∀ spill ∈ stage.currentSpill, spill.OnlyFrom P) :
    (st.goTo context stage).OnlyFrom P where
  slots := h.slots
  spills := h.spills
  operation := by
    rintro _ ⟨⟩
    exact ⟨hcontext, hspill⟩

theorem OnlyFrom.finish (h : st.OnlyFrom P) : st.finish.OnlyFrom P :=
  ⟨h.slots, h.spills, fun _ hop ↦ nomatch hop⟩

theorem OnlyFrom.onSlot (h : st.OnlyFrom P) (i : ℕ)
    {f : AsyncHtodSlot → StagingShared → AsyncHtodSlot × StagingShared}
    (hf : ∀ slot, slot.OnlyFrom P → (f slot st.shared).1.OnlyFrom P) :
    (st.onSlot i f).OnlyFrom P := by
  rw [AsyncStaging.onSlot]
  split
  next slot hslot =>
    refine ⟨fun other hother ↦ ?_, h.spills, h.operation⟩
    rcases List.mem_or_eq_of_mem_set hother with hmem | rfl
    · exact h.slots other hmem
    · exact hf slot (h.slots slot (List.mem_of_getElem? hslot))
  next => exact h

theorem OnlyFrom.reclaim (h : st.OnlyFrom P) (context : CUcontext) (cuda : SweepAnswers) :
    (st.reclaim context cuda).OnlyFrom P where
  slots := (rewriteAll_invariant (I := fun _ ↦ True)
    (fun _ slot hslot _ _ ↦ ⟨(h.slots slot hslot).reclaim _ _, trivial⟩) trivial).1
  spills := (sweep_invariant (I := fun _ ↦ True)
    (fun _ spill hspill _ _ ↦ ⟨(h.spills spill hspill).reclaim _ _ _, trivial⟩) trivial).1
  operation := h.operation

theorem OnlyFrom.retireContext (h : st.OnlyFrom P) (hnull : P 0) (context : CUcontext)
    (cuda : SweepAnswers) : (st.retireContext context cuda).OnlyFrom P := by
  rw [AsyncStaging.retireContext]
  split_ifs
  · exact h
  · constructor
    · exact (rewriteAll_invariant (I := fun _ ↦ True) (fun _ slot hslot _ _ ↦
        ⟨(h.slots slot hslot).retire hnull _ _ _, trivial⟩) trivial).1
    · exact (sweep_invariant (I := fun _ ↦ True) (fun _ spill hspill _ _ ↦
        ⟨(h.spills spill hspill).retire _ _ _, trivial⟩) trivial).1
    · exact h.operation

theorem OnlyFrom.forgetContext (h : st.OnlyFrom P) (hnull : P 0) (context : CUcontext) :
    (st.forgetContext context).OnlyFrom P where
  slots := (rewriteAll_invariant (I := fun _ ↦ True)
    (fun _ slot hslot _ _ ↦ ⟨(h.slots slot hslot).forget hnull _, trivial⟩) trivial).1
  spills := (sweep_invariant (I := fun _ ↦ True)
    (fun _ spill hspill _ _ ↦ ⟨(h.spills spill hspill).forget _, trivial⟩) trivial).1
  operation := h.operation

theorem onlyFrom_forgetContext (hidle : st.operation = none) (hcontext : context ≠ 0) :
    (st.forgetContext context).OnlyFrom (· ≠ context) where
  slots := (rewriteAll_invariant (I := fun _ ↦ True)
    (fun _ slot _ _ _ ↦ ⟨slot.onlyFrom_forget hcontext _, trivial⟩) trivial).1
  spills := (sweep_invariant (I := fun _ ↦ True)
    (fun _ spill _ _ _ ↦ ⟨spill.onlyFrom_forget _, trivial⟩) trivial).1
  operation _ hop := nomatch hidle.symm.trans hop

theorem scanPass_onlyFrom (hnull : P 0) (hcontext : P context) {slotBytes pass k : ℕ}
    {answers : ℕ → AsyncHtodSlot.PrepareAnswers} {slots : List AsyncHtodSlot} {e : StagingShared}
    (hslots : ∀ slot ∈ slots, slot.OnlyFrom P) :
    ∀ slot ∈ (scanPass context slotBytes answers pass k slots e).2.1, slot.OnlyFrom P := by
  induction slots generalizing k e with
  | nil => exact hslots
  | cons slot slots ih =>
    obtain ⟨hslot, hrest⟩ := List.forall_mem_cons.mp hslots
    have hprepared := hslot.prepare hnull hcontext e slotBytes (answers k)
    rw [scanPass]
    split_ifs
    · simp only
      split_ifs
      · exact List.forall_mem_cons.mpr ⟨hprepared, hrest⟩
      · exact List.forall_mem_cons.mpr ⟨hprepared, ih hrest⟩
    · exact List.forall_mem_cons.mpr ⟨hslot, ih hrest⟩

theorem scanPasses_onlyFrom (hnull : P 0) (hcontext : P context) {slotBytes : ℕ}
    {rounds : ℕ → ℕ → AsyncHtodSlot.PrepareAnswers} {passes : List ℕ} {slots : List AsyncHtodSlot}
    {e : StagingShared} (hslots : ∀ slot ∈ slots, slot.OnlyFrom P) :
    ∀ slot ∈ (scanPasses context slotBytes rounds passes slots e).2.1, slot.OnlyFrom P := by
  induction passes generalizing slots e with
  | nil => exact hslots
  | cons pass passes ih =>
    rw [scanPasses]
    split_ifs
    · exact scanPass_onlyFrom hnull hcontext hslots
    · exact ih (scanPass_onlyFrom hnull hcontext hslots)

theorem OnlyFrom.acquireSlot (h : st.OnlyFrom P) (hnull : P 0) (hcontext : P context)
    (cuda : SweepAnswers) (answers : ℕ → ℕ → AsyncHtodSlot.PrepareAnswers) :
    (st.acquireSlot context cuda answers).2.OnlyFrom P where
  slots := scanPasses_onlyFrom hnull hcontext (h.reclaim context cuda).slots
  spills := (h.reclaim context cuda).spills
  operation := h.operation

/-! ### The steps of a copy

A copy keeps to the context of its operation: the slots it acquires, the spill it allocates and the
events it creates are all of that one. -/

/-- What a step of a copy keeps: it brings no context but that of the copy. -/
structure CopyKeeps (st st' : AsyncStaging) : Prop where
  onlyFrom : ∀ P : CUcontext → Prop, P 0 → st.OnlyFrom P → st'.OnlyFrom P
  operation : ∀ op' ∈ st'.operation, ∃ op ∈ st.operation, op.context = op'.context

theorem CopyKeeps.goTo {op : HtodOperation} (hop : st.operation = some op) {stage : HtodStage}
    (hkeeps : ∀ P : CUcontext → Prop, P 0 → st.OnlyFrom P → st'.OnlyFrom P)
    (hspill : ∀ P : CUcontext → Prop, P op.context →
      (∀ spill ∈ op.stage.currentSpill, spill.OnlyFrom P) →
        ∀ spill ∈ stage.currentSpill, spill.OnlyFrom P) :
    CopyKeeps st (st'.goTo op.context stage) where
  onlyFrom P hnull h := by
    obtain ⟨hcontext, hcurrent⟩ := h.operation op hop
    exact (hkeeps P hnull h).goTo hcontext (hspill P hcontext hcurrent)
  operation := by
    rintro _ ⟨⟩
    exact ⟨op, hop, rfl⟩

theorem CopyKeeps.finish (hkeeps : ∀ P : CUcontext → Prop, P 0 → st.OnlyFrom P → st'.OnlyFrom P) :
    CopyKeeps st st'.finish where
  onlyFrom P hnull h := (hkeeps P hnull h).finish
  operation _ hop := nomatch hop

theorem CopyKeeps.onWindow (f : H2Window → H2Window) : CopyKeeps st (st.onWindow f) where
  onlyFrom _ _ h := ⟨h.slots, h.spills, h.operation⟩
  operation op hop := ⟨op, hop, rfl⟩

theorem copyKeeps_holdBegin (hstep : st.holdBegin = some st') : CopyKeeps st st' := by
  have hwindow : CopyKeeps st (st.onWindow (·.holdBegin)) := .onWindow _
  obtain ⟨context, i, hop, rfl⟩ | ⟨context, spill, hop, rfl⟩ := holdBegin_cases hstep
  · exact CopyKeeps.goTo hop hwindow.onlyFrom fun _ _ _ _ hspill ↦ nomatch hspill
  · exact CopyKeeps.goTo hop hwindow.onlyFrom fun _ _ hcurrent ↦ hcurrent

theorem copyKeeps_holdEnd {succeeded switched : Bool}
    (hstep : st.holdEnd succeeded switched = some st') : CopyKeeps st st' := by
  have hwindow : CopyKeeps st (st.onWindow (·.holdEnd.2)) := .onWindow _
  obtain ⟨context, i, hop, rfl⟩ | ⟨context, spill, filled, hop, rfl, hstage⟩ :=
    holdEnd_cases hstep
  · have hfilled : ∀ P : CUcontext → Prop, P 0 → st.OnlyFrom P →
        ((st.onWindow fun window ↦ window.holdEnd.2).onSlot i fun slot e ↦
          ({ slot with heldWindowBytes :=
            slot.heldWindowBytes + st.shared.window.windowHoldBytes }, e)).OnlyFrom P :=
      fun P hnull h ↦ (hwindow.onlyFrom P hnull h).onSlot i fun _ hslot ↦ hslot
    simp only
    split_ifs
    · exact CopyKeeps.goTo hop hfilled fun _ _ _ _ hspill ↦ nomatch hspill
    · exact CopyKeeps.finish hfilled
  · have hspill : ∀ P : CUcontext → Prop, P context →
        (∀ spill' ∈ (HtodStage.spillReading spill).currentSpill, spill'.OnlyFrom P) →
          ∀ held, AsyncHtodSpill.OnlyFrom P { spill with heldWindowBytes := held } :=
      fun _ _ hcurrent _ ↦ hcurrent spill rfl
    rcases hstage with ⟨stage, ⟨-, rfl⟩ | ⟨-, -, rfl⟩, rfl⟩ | ⟨-, -, rfl⟩
    · refine CopyKeeps.goTo hop hwindow.onlyFrom fun P hcontext hcurrent ↦ ?_
      rintro _ ⟨⟩
      exact hspill P hcontext hcurrent _
    · refine CopyKeeps.goTo hop hwindow.onlyFrom fun P hcontext hcurrent ↦ ?_
      rintro _ ⟨⟩
      exact hspill P hcontext hcurrent _
    · exact CopyKeeps.finish fun P hnull h ↦ ⟨h.slots, h.spills, h.operation⟩

theorem copyKeeps_copy {result : CUresult} (hstep : st.copy result = some st') :
    CopyKeeps st st' := by
  obtain ⟨context, i, hop, rfl⟩ | ⟨context, spill, queued, stage, hop, rfl, hstage, rfl⟩ :=
    copy_cases hstep
  · exact CopyKeeps.goTo hop (fun P _ h ↦ h.onSlot i fun _ hslot ↦ hslot)
      fun _ _ _ _ hspill ↦ nomatch hspill
  · refine CopyKeeps.goTo hop (fun _ _ h ↦ h) fun P _ hcurrent ↦ ?_
    have hspill := hcurrent spill rfl
    rcases hstage with ⟨-, rfl⟩ | ⟨-, rfl⟩ <;> rintro _ ⟨⟩ <;> exact hspill

theorem copyKeeps_publish {result : CUresult} (hstep : st.publish result = some st') :
    CopyKeeps st st' := by
  obtain ⟨context, i, succeeded, hop, rfl⟩ | ⟨context, stage, spill, hop, hstage, -, rfl⟩ :=
    publish_cases hstep
  · have hpublished : ∀ P : CUcontext → Prop, P 0 → st.OnlyFrom P →
        (st.onSlot i fun slot e ↦ slot.publish e result).OnlyFrom P :=
      fun P _ h ↦ h.onSlot i fun _ hslot ↦ hslot.publish _ _
    simp only
    split_ifs
    · exact CopyKeeps.goTo hop hpublished fun _ _ _ _ hspill ↦ nomatch hspill
    · exact CopyKeeps.finish hpublished
  · have hcurrent : stage.currentSpill = some spill := by
      rcases hstage with rfl | rfl <;> rfl
    refine CopyKeeps.finish fun P _ h ↦ ⟨h.slots, fun other hother ↦ ?_, h.operation⟩
    rcases List.mem_append.mp hother with hmem | hmem
    · exact h.spills other hmem
    · obtain rfl := List.mem_singleton.mp hmem
      exact ((h.operation _ hop).2 spill hcurrent).publish _ _

theorem copyKeeps_beginSpill {room allocated created switched : Bool}
    (hstep : st.beginSpill room allocated created switched = some st') : CopyKeeps st st' := by
  obtain ⟨context, ptr, spill, hop, -, rfl, hcases⟩ := beginSpill_cases hstep
  rcases hcases with ⟨-, rfl⟩ | ⟨-, -, rfl⟩ | ⟨-, -, rfl⟩
  · exact CopyKeeps.finish fun _ _ h ↦ h
  · refine CopyKeeps.goTo hop (fun _ _ h ↦ ⟨h.slots, h.spills, h.operation⟩)
      fun P hcontext _ ↦ ?_
    rintro _ ⟨⟩
    exact ⟨hcontext, hcontext⟩
  · exact CopyKeeps.finish fun _ _ h ↦ ⟨h.slots, h.spills, h.operation⟩

end AsyncStaging

/-- A step of a copy, or of the window, brings no context but that of the copy. -/
theorem copyKeeps_stagingStep {st st' : AsyncStaging} {step : StagingStep}
    (hcopy : LifecycleState.isCopyStep step = true) (hstep : stagingStep st step = some st') :
    AsyncStaging.CopyKeeps st st' := by
  cases step with
  | begin context => exact nomatch hcopy
  | retire context cuda => exact nomatch hcopy
  | forget context => exact nomatch hcopy
  | acquire cuda answers =>
    obtain ⟨context, hop, hcases⟩ := stagingStep_acquire_cases hstep
    have hfound : ∀ P : CUcontext → Prop, P 0 → st.OnlyFrom P →
        (st.acquireSlot context cuda answers).2.OnlyFrom P :=
      fun P hnull h ↦ h.acquireSlot hnull (h.operation _ hop).1 cuda answers
    rcases hcases with ⟨i, -, rfl⟩ | ⟨-, rfl⟩
    · exact AsyncStaging.CopyKeeps.goTo hop hfound fun _ _ _ _ hspill ↦ nomatch hspill
    · exact ⟨hfound, fun op' hop' ↦ ⟨op', hop', rfl⟩⟩
  | holdBegin => exact AsyncStaging.copyKeeps_holdBegin hstep
  | holdEnd succeeded switched => exact AsyncStaging.copyKeeps_holdEnd hstep
  | copy result => exact AsyncStaging.copyKeeps_copy hstep
  | publish result => exact AsyncStaging.copyKeeps_publish hstep
  | beginSpill room allocated created switched => exact AsyncStaging.copyKeeps_beginSpill hstep
  | finish =>
    obtain ⟨-, -, rfl⟩ := stagingStep_finish_cases hstep
    exact AsyncStaging.CopyKeeps.finish fun _ _ h ↦ h
  | data len =>
    obtain rfl := Option.some.inj hstep
    exact AsyncStaging.CopyKeeps.onWindow _
  | readStaged size =>
    obtain rfl := Option.some.inj hstep
    exact AsyncStaging.CopyKeeps.onWindow _
  | beginNetRead capacity =>
    obtain ⟨-, rfl⟩ := Option.ite_some_none_eq_some.mp hstep
    exact AsyncStaging.CopyKeeps.onWindow _
  | endNetRead =>
    obtain rfl := Option.some.inj hstep
    exact AsyncStaging.CopyKeeps.onWindow _

end OnlyFrom

/-! ## What a teardown leaves

`Forgotten` and `KeepsOthers` are the two halves of what forgetting a context does: nothing refers
to it any more, and what belongs to others is as it was. -/

namespace LifecycleState

variable {st st' : LifecycleState} {context : CUcontext} {teardown : Teardown}

/-- Nothing of the staging refers to the context. -/
structure Forgotten (st : LifecycleState) (context : CUcontext) : Prop where
  async : st.async.OnlyFrom (· ≠ context)
  syncStaging : st.syncStaging.allocationContext ≠ context
  syncHtod : st.syncHtod.context ≠ context
  created : context ∉ st.createdContexts
  primary : ∀ device, st.primaryContexts device ≠ some context

/-- What belongs to other contexts is as it was. -/
structure KeepsOthers (st st' : LifecycleState) (context : CUcontext) : Prop where
  slots : ∀ (i : ℕ) (slot : AsyncHtodSlot), st.async.slots[i]? = some slot →
    slot.OnlyFrom (· ≠ context) → st'.async.slots[i]? = some slot
  spills : ∀ spill ∈ st.async.spills, spill.OnlyFrom (· ≠ context) → spill ∈ st'.async.spills
  syncStaging : st.syncStaging.allocationContext ≠ context → st'.syncStaging = st.syncStaging
  syncHtod : st.syncHtod.context ≠ context → st'.syncHtod = st.syncHtod
  created : ∀ other, other ≠ context → (other ∈ st'.createdContexts ↔ other ∈ st.createdContexts)
  primary : ∀ device, st.primaryContexts device ≠ some context →
    st'.primaryContexts device = st.primaryContexts device

theorem syncStaging_forget {retained : RetainedStaging} {other : CUcontext} (hcontext : context ≠ 0)
    (h : other ≠ context → retained.allocationContext ≠ context) :
    (retained.forget other).allocationContext ≠ context := by
  rw [RetainedStaging.forget]
  split_ifs with hrefers
  · exact hcontext.symm
  · rcases eq_or_ne other context with rfl | hother
    · exact hrefers
    · exact h hother

theorem syncHtod_forget {pool : SyncHtodPool} {other : CUcontext} (hcontext : context ≠ 0)
    (h : other ≠ context → pool.context ≠ context) : (pool.forget other).context ≠ context := by
  rw [SyncHtodPool.forget]
  split_ifs with hrefers
  · exact hcontext.symm
  · rcases eq_or_ne other context with rfl | hother
    · exact hrefers
    · exact h hother

/-- **What is forgotten.** No slot, spill, pool or record refers to the context. -/
theorem forgotten_forgetContextMetadata (hidle : st.async.operation = none)
    (hcontext : context ≠ 0) : (st.forgetContextMetadata context).Forgotten context where
  async := AsyncStaging.onlyFrom_forgetContext hidle hcontext
  syncStaging := syncStaging_forget hcontext (absurd rfl)
  syncHtod := syncHtod_forget hcontext (absurd rfl)
  created := Finset.notMem_erase context _
  primary device := by
    simp only [forgetContextMetadata]
    split_ifs with hrefers
    · exact Option.some_ne_none context ∘ Eq.symm
    · exact hrefers

theorem keepsOthers_forgetContextMetadata :
    st.KeepsOthers (st.forgetContextMetadata context) context where
  slots _ _ hslot hother := getElem?_rewriteAll_of_fixed hslot fun _ _ ↦
    AsyncHtodSlot.forget_other hother.1 hother.2
  spills _ hspill hother := mem_sweep_of_fixed hspill fun _ _ ↦
    AsyncHtodSpill.forget_other hother.1 hother.2
  syncStaging hother := if_neg hother
  syncHtod hother := if_neg hother
  created other hne := by
    rw [forgetContextMetadata, Finset.mem_erase]
    exact and_iff_right hne
  primary _ hother := if_neg hother

/-! ### The invariant

The sets are filled when a teardown begins and emptied when it finishes. In between they are those
of the teardown, and no operation on its context or device is active. They depend on the sets, the
records, the active operation and the transaction alone, so every step that leaves these as they
are keeps the invariant for free. -/

/-- The operation is one on the context or the device of the teardown. -/
def Affects (st : LifecycleState) (teardown : Teardown) (request : StagingRequest) : Prop :=
  request.context ∈ st.affected teardown ∨ request.device ∈ teardown.devices

/-- The sets are those of the teardown, and no operation on it is active. -/
structure Excludes (st : LifecycleState) (teardown : Teardown) : Prop where
  contexts : st.teardownContexts = st.affected teardown
  devices : st.teardownDevices = teardown.devices
  active : ∀ active ∈ st.active, ¬st.UnderTeardown active.2

/-- What the sets are at each stage of a transaction. -/
def SetsFit (st : LifecycleState) : Option (ℕ × TransactionStage) → Prop
  | none | some (_, .noting) => st.teardownContexts = ∅ ∧ st.teardownDevices = ∅
  | some (_, .preparing teardown) =>
    st.teardownContexts = teardown.contexts ∧ st.teardownDevices = teardown.devices
  | some (_, .prepared teardown) => st.Excludes teardown
  | some (_, .finishing teardown context _) =>
    st.Excludes teardown ∧ context = st.finishedContext teardown

theorem affected_congr (hprimary : ∀ device ∈ teardown.devices,
      st'.primaryContexts device = st.primaryContexts device) :
    st'.affected teardown = st.affected teardown ∧
      st'.finishedContext teardown = st.finishedContext teardown := by
  match teardown with
  | .primary device _ =>
    have hdevice := hprimary device (Finset.mem_singleton_self device)
    simp only [affected, finishedContext, hdevice, and_self]
  | .destroy context => exact ⟨rfl, rfl⟩
  | .detach context => exact ⟨rfl, rfl⟩

theorem Excludes.congr (h : st.Excludes teardown)
    (hcontexts : st'.teardownContexts = st.teardownContexts)
    (hdevices : st'.teardownDevices = st.teardownDevices)
    (hprimary : ∀ device ∈ st.teardownDevices,
      st'.primaryContexts device = st.primaryContexts device)
    (hactive : ∀ active ∈ st'.active, active ∈ st.active ∨ ¬st.UnderTeardown active.2) :
    st'.Excludes teardown where
  contexts := by
    rw [hcontexts, (affected_congr (h.devices ▸ hprimary)).1]
    exact h.contexts
  devices := hdevices.trans h.devices
  active active hmem := by
    rw [UnderTeardown, hcontexts, hdevices]
    exact (hactive active hmem).elim (h.active active) id

theorem SetsFit.congr {stage : Option (ℕ × TransactionStage)} (h : st.SetsFit stage)
    (hcontexts : st'.teardownContexts = st.teardownContexts)
    (hdevices : st'.teardownDevices = st.teardownDevices)
    (hprimary : ∀ device ∈ st.teardownDevices,
      st'.primaryContexts device = st.primaryContexts device)
    (hactive : ∀ active ∈ st'.active, active ∈ st.active ∨ ¬st.UnderTeardown active.2) :
    st'.SetsFit stage := by
  match stage with
  | none => exact ⟨hcontexts.trans h.1, hdevices.trans h.2⟩
  | some (_, .noting) => exact ⟨hcontexts.trans h.1, hdevices.trans h.2⟩
  | some (_, .preparing teardown) => exact ⟨hcontexts.trans h.1, hdevices.trans h.2⟩
  | some (_, .prepared teardown) =>
    exact Excludes.congr h hcontexts hdevices hprimary hactive
  | some (_, .finishing teardown context answers) =>
    obtain ⟨hexcludes, hcontext⟩ := h
    refine ⟨hexcludes.congr hcontexts hdevices hprimary hactive, ?_⟩
    rw [(affected_congr (hexcludes.devices ▸ hprimary)).2]
    exact hcontext

theorem Excludes.erase (h : st.Excludes teardown) :
    st.teardownContexts.erase (st.finishedContext teardown) = ∅ := by
  rw [h.contexts]
  match teardown with
  | .primary device _ =>
    simp only [affected, finishedContext]
    match st.primaryContexts device with
    | none => rfl
    | some context => exact Finset.erase_singleton context
  | .destroy context => exact Finset.erase_singleton context
  | .detach context => exact Finset.erase_singleton context

/-- An operation infers at most its own context, and that for its own device. -/
theorem noteInferredPrimaryContext_eq (st : LifecycleState) (context : CUcontext)
    (device : CUdevice) : ∃ primaryContexts,
      st.noteInferredPrimaryContext context device = { st with primaryContexts } ∧
      (∀ other ≠ device, primaryContexts other = st.primaryContexts other) ∧
      ∀ other found, primaryContexts other = some found →
        found = context ∨ st.primaryContexts other = some found := by
  rw [noteInferredPrimaryContext]
  split_ifs
  · exact ⟨_, rfl, fun _ _ ↦ rfl, fun _ _ ↦ Or.inr⟩
  · refine ⟨_, rfl, fun _ hne ↦ Function.update_of_ne hne _ _, fun other found hfound ↦ ?_⟩
    rcases eq_or_of_update hfound with ⟨-, heq⟩ | ⟨-, heq⟩
    · exact Or.inl (Option.some.inj heq).symm
    · exact Or.inr heq

/-- The sets fit, and an asynchronous copy is the one of the active operation. -/
structure Inv (st : LifecycleState) : Prop where
  sets : st.SetsFit st.transaction
  operation : ∀ op ∈ st.async.operation, st.active.isSome

def lifecycle (st : LifecycleState) :=
  (st.primaryContexts, st.teardownContexts, st.teardownDevices, st.active, st.transaction)

namespace Inv

theorem sets_congr (h : st.Inv) (hsame : st'.lifecycle = st.lifecycle) :
    st'.SetsFit st'.transaction := by
  simp only [lifecycle, Prod.mk.injEq] at hsame
  obtain ⟨hprimary, hcontexts, hdevices, hactive, htransaction⟩ := hsame
  rw [htransaction]
  refine h.sets.congr hcontexts hdevices (fun _ _ ↦ by rw [hprimary]) fun active hmem ↦ ?_
  exact Or.inl (hactive ▸ hmem)

theorem init : Inv {} := ⟨⟨rfl, rfl⟩, fun _ hop ↦ nomatch hop⟩

theorem operation_eq_none (h : st.Inv) (hidle : st.active = none) : st.async.operation = none := by
  by_contra hne
  obtain ⟨op, hop⟩ := Option.ne_none_iff_exists'.mp hne
  have hactive := h.operation op hop
  rw [hidle] at hactive
  exact nomatch hactive

theorem sets_of_noting (h : st.Inv) (hstage : st.transaction.map Prod.snd = some .noting) :
    st.teardownContexts = ∅ ∧ st.teardownDevices = ∅ := by
  obtain ⟨⟨lane, stage⟩, htransaction, rfl⟩ := Option.map_eq_some_iff.mp hstage
  have hsets := h.sets
  rw [htransaction] at hsets
  exact hsets

theorem start (h : st.Inv) {lane : ℕ} {request : StagingRequest}
    (hfree : ¬st.UnderTeardown request) : (st.start lane request).Inv := by
  rw [LifecycleState.start]
  obtain ⟨primary, heq, hother, -⟩ := noteInferredPrimaryContext_eq { st with
    waiting := Function.update st.waiting lane none
    active := some (lane, request)
    async := if request.asynchronous then st.async.goTo request.context .choosing else st.async }
      request.context request.device
  rw [heq]
  constructor
  · refine h.sets.congr rfl rfl (fun device hdevice ↦ ?_) ?_
    · apply hother
      rintro rfl
      exact hfree (Or.inr hdevice)
    · rintro _ ⟨⟩
      exact Or.inr hfree
  · exact fun _ _ ↦ rfl

theorem beginTeardown (h : st.Inv) (hnone : st.transaction = none) (lane : ℕ)
    (teardown : Teardown) : (st.beginTeardown lane teardown).Inv := by
  have hsets := h.sets
  rw [hnone] at hsets
  refine ⟨⟨?_, ?_⟩, h.operation⟩
  · rw [LifecycleState.beginTeardown, hsets.1, Finset.empty_union]
  · rw [LifecycleState.beginTeardown, hsets.2, Finset.empty_union]

theorem retire (h : st.Inv) (context : CUcontext) (cuda : SweepAnswers) :
    (st.asyncHtodRetireContext context cuda).Inv := by
  rw [asyncHtodRetireContext]
  split_ifs
  · exact h
  · refine ⟨h.sets.congr rfl rfl (fun _ _ ↦ rfl) fun _ ↦ Or.inl, ?_⟩
    rw [AsyncStaging.operation_retireContext]
    exact h.operation

theorem prepare (h : st.Inv) {lane : ℕ} {teardown : Teardown}
    (hstage : st.transaction = some (lane, .preparing teardown)) (hidle : st.active = none)
    (cuda : SweepAnswers) : (st.prepare lane teardown cuda).Inv := by
  have hsets := h.sets
  rw [hstage] at hsets
  have hactive : ∀ active ∈ st.active, False := by
    rw [hidle]
    exact fun _ hmem ↦ nomatch hmem
  match teardown with
  | .primary device reset =>
    simp only [LifecycleState.prepare]
    split
    next context hprimary =>
      apply retire
      refine ⟨⟨?_, hsets.2, fun active hmem ↦ (hactive active hmem).elim⟩, h.operation⟩
      simp only [affected, hprimary, hsets.1, Teardown.contexts]
      rfl
    next hprimary =>
      refine ⟨⟨?_, hsets.2, fun active hmem ↦ (hactive active hmem).elim⟩, h.operation⟩
      simp only [affected, hprimary, hsets.1, Teardown.contexts]
      rfl
  | .destroy context =>
    apply retire
    exact ⟨⟨hsets.1, hsets.2, fun active hmem ↦ (hactive active hmem).elim⟩, h.operation⟩
  | .detach context =>
    apply retire
    exact ⟨⟨hsets.1, hsets.2, fun active hmem ↦ (hactive active hmem).elim⟩, h.operation⟩

theorem finish (h : st.Inv) {lane : ℕ} {teardown : Teardown} {context : CUcontext}
    {answers : TeardownAnswers}
    (hstage : st.transaction = some (lane, .finishing teardown context answers)) :
    (st.finish teardown context answers).teardownContexts = ∅ ∧
      (st.finish teardown context answers).teardownDevices = ∅ ∧
      (st.finish teardown context answers).Inv := by
  have hsets := h.sets
  rw [hstage] at hsets
  obtain ⟨hexcludes, rfl⟩ := hsets
  have hcontexts := hexcludes.erase
  have hdevices : st.teardownDevices \ teardown.devices = ∅ := by
    rw [hexcludes.devices, Finset.sdiff_self]
  simp only [LifecycleState.finish]
  split_ifs
  · exact ⟨hcontexts, hdevices, ⟨hcontexts, hdevices⟩, h.operation⟩
  · exact ⟨hcontexts, hdevices, ⟨hcontexts, hdevices⟩, h.operation⟩

theorem step (h : st.Inv) {action : TeardownStep} (hstep : st.step action = some st') :
    st'.Inv := by
  have hframe : st.SetsFit st.transaction := h.sets
  cases action with
  | request lane request =>
    obtain ⟨-, rfl⟩ := Option.ite_some_none_eq_some.mp hstep
    exact ⟨h.sets_congr rfl, h.operation⟩
  | start lane =>
    obtain ⟨request, -, hstart⟩ := Option.bind_eq_some_iff.mp hstep
    obtain ⟨⟨-, hfree⟩, rfl⟩ := Option.ite_some_none_eq_some.mp hstart
    exact h.start hfree
  | turnBack lane =>
    obtain ⟨request, -, hturn⟩ := Option.bind_eq_some_iff.mp hstep
    obtain ⟨-, rfl⟩ := Option.ite_some_none_eq_some.mp hturn
    exact ⟨h.sets_congr rfl, h.operation⟩
  | staging step =>
    obtain ⟨hcopy, heq⟩ := Option.ite_none_right_eq_some.mp hstep
    obtain ⟨async, hasync, rfl⟩ := Option.map_eq_some_iff.mp heq
    -- an operation that is there afterwards was there before
    refine ⟨h.sets_congr rfl, fun op' hop' ↦ ?_⟩
    obtain ⟨op, hop, -⟩ := (copyKeeps_stagingStep hcopy hasync).operation op' hop'
    exact h.operation op hop
  | syncPrepare calls =>
    obtain ⟨active, -, heq⟩ := Option.bind_eq_some_iff.mp hstep
    obtain ⟨-, heq⟩ := Option.ite_none_left_eq_some.mp heq
    obtain rfl := Option.some.inj heq
    exact ⟨h.sets_congr rfl, h.operation⟩
  | syncDisable =>
    obtain ⟨active, -, heq⟩ := Option.bind_eq_some_iff.mp hstep
    obtain ⟨-, heq⟩ := Option.ite_none_left_eq_some.mp heq
    obtain rfl := Option.some.inj heq
    exact ⟨h.sets_congr rfl, h.operation⟩
  | acquireStaging calls bytes =>
    obtain ⟨active, -, heq⟩ := Option.bind_eq_some_iff.mp hstep
    obtain ⟨-, heq⟩ := Option.ite_none_left_eq_some.mp heq
    obtain rfl := Option.some.inj heq
    exact ⟨h.sets_congr rfl, h.operation⟩
  | leave =>
    obtain ⟨⟨-, hidle⟩, rfl⟩ := Option.ite_some_none_eq_some.mp hstep
    refine ⟨hframe.congr rfl rfl (fun _ _ ↦ rfl) fun _ hactive ↦ (nomatch hactive), ?_⟩
    exact fun op hop ↦ (nomatch hidle.symm.trans hop)
  | beginNoting lane =>
    obtain ⟨⟨-, hnone⟩, rfl⟩ := Option.ite_some_none_eq_some.mp hstep
    rw [hnone] at hframe
    exact ⟨hframe, h.operation⟩
  -- while a context is noted nobody prepares to end one
  | noteCreated context result =>
    obtain ⟨hstage, rfl⟩ := Option.ite_some_none_eq_some.mp hstep
    exact ⟨h.sets_of_noting hstage, h.operation⟩
  | notePrimary device context result =>
    obtain ⟨hstage, rfl⟩ := Option.ite_some_none_eq_some.mp hstep
    exact ⟨h.sets_of_noting hstage, h.operation⟩
  | noteNothing =>
    obtain ⟨hstage, rfl⟩ := Option.ite_some_none_eq_some.mp hstep
    exact ⟨h.sets_of_noting hstage, h.operation⟩
  | beginTeardown lane teardown =>
    obtain ⟨⟨-, hnone⟩, rfl⟩ := Option.ite_some_none_eq_some.mp hstep
    exact h.beginTeardown hnone lane teardown
  | prepare cuda =>
    obtain ⟨lane, teardown, hstage, hidle, rfl⟩ := prepare_cases hstep
    exact h.prepare hstage hidle cuda
  | call answers =>
    obtain ⟨lane, teardown, hstage, rfl⟩ := call_cases hstep
    rw [hstage] at hframe
    have hexcludes : st.Excludes teardown := hframe
    exact ⟨⟨hexcludes.congr rfl rfl (fun _ _ ↦ rfl) fun _ ↦ Or.inl, rfl⟩, h.operation⟩
  | finish =>
    obtain ⟨lane, teardown, context, answers, hstage, -, rfl⟩ := finish_cases hstep
    exact (h.finish hstage).2.2

end Inv

/-! ### Forgotten contexts stay forgotten

A context comes back in two ways: an operation on it begins, or the driver gives its handle to a
new one. Every other step keeps it gone. -/

/-- An operation on the context begins, or the driver gives its handle to a new one. -/
def Introduces (st : LifecycleState) (context : CUcontext) : TeardownStep → Prop
  | .start lane => ∃ request ∈ st.waiting lane, request.context = context
  | .noteCreated created _ => created = context
  | .notePrimary _ retained _ => retained = context
  | _ => False

instance (st : LifecycleState) (context : CUcontext) :
    ∀ step, Decidable (st.Introduces context step)
  | .start _ => inferInstanceAs (Decidable (∃ _ ∈ _, _))
  | .noteCreated .. | .notePrimary .. => inferInstanceAs (Decidable (_ = _))
  | .request .. | .turnBack _ | .staging _ | .syncPrepare .. | .syncDisable | .acquireStaging ..
  | .leave | .beginNoting _ | .noteNothing | .beginTeardown .. | .prepare _ | .call _ | .finish =>
    inferInstanceAs (Decidable False)

theorem syncStaging_acquire_other {calls : HtodCalls} {retained : RetainedStaging} {bytes : ℕ}
    (hcontext : context ≠ 0)
    (hcurrent : calls.stagingCtxGetCurrent.1 = .success → calls.stagingCtxGetCurrent.2 ≠ context)
    (h : retained.allocationContext ≠ context) :
    (acquireStaging calls bytes retained).2.allocationContext ≠ context := by
  rw [acquireStaging]
  by_cases hfound : calls.stagingCtxGetCurrent.1 ≠ .success ∨ calls.stagingCtxGetCurrent.2 = 0
  · simp only [if_pos hfound]
    split_ifs <;> exact h
  · have hother := hcurrent (not_not.mp (not_or.mp hfound).1)
    simp only [if_neg hfound]
    split_ifs <;> first | exact h | exact hother | exact hcontext.symm

theorem syncHtod_prepare_other {calls : HtodCalls} {pool : SyncHtodPool} {current : CUcontext}
    (hcurrent : current ≠ context) (h : pool.context ≠ context) :
    (syncHtodPrepare calls pool current).2.context ≠ context := by
  simp only [syncHtodPrepare]
  split_ifs <;> first | exact h | exact hcurrent

/-- Nothing refers to the context, and no operation on it is active. -/
structure Gone (st : LifecycleState) (context : CUcontext) : Prop where
  forgotten : st.Forgotten context
  active : ∀ active ∈ st.active, active.2.context ≠ context

def tracked (st : LifecycleState) :=
  (st.async, st.syncStaging, st.syncHtod, st.createdContexts, st.primaryContexts, st.active)

namespace Gone

theorem congr (h : st.Gone context) (hsame : st'.tracked = st.tracked) : st'.Gone context := by
  simp only [tracked, Prod.mk.injEq] at hsame
  obtain ⟨hasync, hstaging, hhtod, hcreated, hprimary, hactive⟩ := hsame
  exact ⟨⟨hasync ▸ h.forgotten.async, hstaging ▸ h.forgotten.syncStaging,
    hhtod ▸ h.forgotten.syncHtod, hcreated ▸ h.forgotten.created,
    hprimary ▸ h.forgotten.primary⟩, hactive ▸ h.active⟩

theorem start (h : st.Gone context) {lane : ℕ} {request : StagingRequest}
    (hother : request.context ≠ context) : (st.start lane request).Gone context := by
  rw [LifecycleState.start]
  obtain ⟨primary, heq, -, hfound⟩ := noteInferredPrimaryContext_eq { st with
    waiting := Function.update st.waiting lane none
    active := some (lane, request)
    async := if request.asynchronous then st.async.goTo request.context .choosing else st.async }
      request.context request.device
  rw [heq]
  obtain ⟨hforgotten, -⟩ := h
  refine ⟨⟨?_, hforgotten.syncStaging, hforgotten.syncHtod, hforgotten.created, ?_⟩, ?_⟩
  · simp only
    split_ifs
    · exact hforgotten.async.goTo hother fun _ hspill ↦ (nomatch hspill)
    · exact hforgotten.async
  · intro device hdevice
    rcases hfound device context hdevice with heq | hold
    · exact hother heq.symm
    · exact hforgotten.primary device hold
  · rintro _ ⟨⟩
    exact hother

theorem retire (h : st.Gone context) (hcontext : context ≠ 0) (retired : CUcontext)
    (cuda : SweepAnswers) : (st.asyncHtodRetireContext retired cuda).Gone context := by
  obtain ⟨hforgotten, hactive⟩ := h
  rw [asyncHtodRetireContext]
  split_ifs
  · exact ⟨hforgotten, hactive⟩
  · exact ⟨⟨hforgotten.async.retireContext hcontext.symm retired cuda,
      syncStaging_forget hcontext fun _ ↦ hforgotten.syncStaging,
      syncHtod_forget hcontext fun _ ↦ hforgotten.syncHtod,
      hforgotten.created, hforgotten.primary⟩, hactive⟩

theorem prepare (h : st.Gone context) (hcontext : context ≠ 0) (lane : ℕ) (teardown : Teardown)
    (cuda : SweepAnswers) : (st.prepare lane teardown cuda).Gone context := by
  have hsame : ∀ contexts stage,
      Gone { st with transaction := stage, teardownContexts := contexts } context :=
    fun _ _ ↦ h.congr rfl
  match teardown with
  | .primary device reset =>
    simp only [LifecycleState.prepare]
    split
    · exact (hsame _ _).retire hcontext _ cuda
    · exact hsame _ _
  | .destroy _ => exact (hsame _ _).retire hcontext _ cuda
  | .detach _ => exact (hsame _ _).retire hcontext _ cuda

theorem finish (h : st.Gone context) (hcontext : context ≠ 0) (teardown : Teardown)
    (other : CUcontext) (answers : TeardownAnswers) :
    (st.finish teardown other answers).Gone context := by
  obtain ⟨hforgotten, hactive⟩ := id h
  simp only [LifecycleState.finish]
  split_ifs
  · refine ⟨⟨hforgotten.async.forgetContext hcontext.symm other,
      syncStaging_forget hcontext fun _ ↦ hforgotten.syncStaging,
      syncHtod_forget hcontext fun _ ↦ hforgotten.syncHtod,
      fun hmem ↦ hforgotten.created (Finset.mem_of_mem_erase hmem), fun device ↦ ?_⟩, hactive⟩
    simp only [forgetContextMetadata]
    split_ifs
    · exact Option.some_ne_none context ∘ Eq.symm
    · exact hforgotten.primary device
  · exact h.congr rfl

theorem step (h : st.Gone context) (hcontext : context ≠ 0) {action : TeardownStep}
    (hother : ¬st.Introduces context action) (hstep : st.step action = some st') :
    st'.Gone context := by
  obtain ⟨hforgotten, hactive⟩ := id h
  cases action with
  | request lane request =>
    obtain ⟨-, rfl⟩ := Option.ite_some_none_eq_some.mp hstep
    exact h.congr rfl
  | start lane =>
    obtain ⟨request, hwaiting, hstart⟩ := Option.bind_eq_some_iff.mp hstep
    obtain ⟨-, rfl⟩ := Option.ite_some_none_eq_some.mp hstart
    -- an operation that starts under this context would introduce it
    exact h.start fun heq ↦ hother ⟨request, hwaiting, heq⟩
  | turnBack lane =>
    obtain ⟨request, -, hturn⟩ := Option.bind_eq_some_iff.mp hstep
    obtain ⟨-, rfl⟩ := Option.ite_some_none_eq_some.mp hturn
    exact h.congr rfl
  | staging step =>
    obtain ⟨hcopy, heq⟩ := Option.ite_none_right_eq_some.mp hstep
    obtain ⟨async, hasync, rfl⟩ := Option.map_eq_some_iff.mp heq
    have hkept := (copyKeeps_stagingStep hcopy hasync).onlyFrom _ hcontext.symm hforgotten.async
    exact ⟨⟨hkept, hforgotten.syncStaging, hforgotten.syncHtod, hforgotten.created,
      hforgotten.primary⟩, hactive⟩
  -- the synchronous paths use the context of the active operation, which is another one
  | syncPrepare calls =>
    obtain ⟨active, hmem, heq⟩ := Option.bind_eq_some_iff.mp hstep
    obtain ⟨-, heq⟩ := Option.ite_none_left_eq_some.mp heq
    obtain rfl := Option.some.inj heq
    exact ⟨⟨hforgotten.async, hforgotten.syncStaging,
      syncHtod_prepare_other (hactive active hmem) hforgotten.syncHtod, hforgotten.created,
      hforgotten.primary⟩, hactive⟩
  | syncDisable =>
    obtain ⟨active, -, heq⟩ := Option.bind_eq_some_iff.mp hstep
    obtain ⟨-, heq⟩ := Option.ite_none_left_eq_some.mp heq
    obtain rfl := Option.some.inj heq
    exact ⟨⟨hforgotten.async, hforgotten.syncStaging, hforgotten.syncHtod, hforgotten.created,
      hforgotten.primary⟩, hactive⟩
  | acquireStaging calls bytes =>
    obtain ⟨active, hmem, heq⟩ := Option.bind_eq_some_iff.mp hstep
    obtain ⟨hcond, heq⟩ := Option.ite_none_left_eq_some.mp heq
    obtain rfl := Option.some.inj heq
    have hcurrent : calls.stagingCtxGetCurrent.1 = .success →
        calls.stagingCtxGetCurrent.2 ≠ context :=
      fun hanswer ↦ (not_not.mp (not_or.mp hcond).2 hanswer).trans_ne (hactive active hmem)
    exact ⟨⟨hforgotten.async, syncStaging_acquire_other hcontext hcurrent hforgotten.syncStaging,
      hforgotten.syncHtod, hforgotten.created, hforgotten.primary⟩, hactive⟩
  | leave =>
    obtain ⟨-, rfl⟩ := Option.ite_some_none_eq_some.mp hstep
    exact ⟨⟨hforgotten.async, hforgotten.syncStaging, hforgotten.syncHtod, hforgotten.created,
      hforgotten.primary⟩, fun _ hmem ↦ nomatch hmem⟩
  | beginNoting lane =>
    obtain ⟨-, rfl⟩ := Option.ite_some_none_eq_some.mp hstep
    exact h.congr rfl
  -- the two notes are where a context may enter again; the condition says that it is another one
  | noteCreated created result =>
    obtain ⟨-, rfl⟩ := Option.ite_some_none_eq_some.mp hstep
    refine ⟨⟨hforgotten.async, hforgotten.syncStaging, hforgotten.syncHtod, ?_,
      hforgotten.primary⟩, hactive⟩
    simp only
    split_ifs
    · exact hforgotten.created
    · rw [Finset.mem_insert]
      exact not_or.mpr ⟨fun heq ↦ hother heq.symm, hforgotten.created⟩
  | notePrimary device retained result =>
    obtain ⟨-, rfl⟩ := Option.ite_some_none_eq_some.mp hstep
    refine ⟨⟨hforgotten.async, hforgotten.syncStaging, hforgotten.syncHtod, hforgotten.created,
      fun other hfound ↦ ?_⟩, hactive⟩
    simp only at hfound
    split_ifs at hfound
    · exact hforgotten.primary other hfound
    · rcases eq_or_of_update hfound with ⟨-, heq⟩ | ⟨-, heq⟩
      · exact hother (Option.some.inj heq)
      · exact hforgotten.primary other heq
  | noteNothing =>
    obtain ⟨-, rfl⟩ := Option.ite_some_none_eq_some.mp hstep
    exact h.congr rfl
  | beginTeardown lane teardown =>
    obtain ⟨-, rfl⟩ := Option.ite_some_none_eq_some.mp hstep
    exact h.congr rfl
  | prepare cuda =>
    obtain ⟨lane, teardown, -, -, rfl⟩ := prepare_cases hstep
    exact h.prepare hcontext lane teardown cuda
  | call answers =>
    obtain ⟨-, -, -, rfl⟩ := call_cases hstep
    exact h.congr rfl
  | finish =>
    obtain ⟨lane, teardown, other, answers, -, -, rfl⟩ := finish_cases hstep
    exact h.finish hcontext teardown other answers

end Gone

/-! ## Runs -/

/-- **What a finish leaves.** A context that is gone, or whose teardown failed, is forgotten, and
stays so until it is introduced again; what belongs to others is as it was; the sets are empty, and
whoever waits can begin as soon as no operation is active. -/
structure FinishedAs (st st' : LifecycleState) (teardown : Teardown) (context : CUcontext)
    (answers : TeardownAnswers) : Prop where
  forgotten : teardown.Destroyed answers ∨ answers.result ≠ .success → context ≠ 0 →
    ∀ (later : List TeardownStep) (st'' : LifecycleState),
      (teardownMachine.restrict fun st step ↦ ¬st.Introduces context step).run st' later
        = some st'' → st''.Forgotten context
  keepsOthers : st.KeepsOthers st' context
  contexts_empty : st'.teardownContexts = ∅
  devices_empty : st'.teardownDevices = ∅
  starts : ∀ (lane : ℕ) (request : StagingRequest), st'.waiting lane = some request →
    st'.active = none → (st'.step (.start lane)).isSome

/-- What is gone, or whose teardown failed, is forgotten by the code. -/
theorem forgets_of_destroyed {answers : TeardownAnswers}
    (h : teardown.Destroyed answers ∨ answers.result ≠ .success) (hcontext : context ≠ 0) :
    teardown.Forgets context answers := by
  match teardown with
  | .primary _ true => exact ⟨hcontext, Or.inl rfl⟩
  | .primary _ false =>
    refine ⟨hcontext, Or.inr ?_⟩
    rcases h with ⟨-, hinactive⟩ | hfailed
    · exact Or.inr (Or.inr hinactive)
    · exact Or.inl hfailed
  | .destroy _ => exact trivial
  | .detach _ => exact h.symm

theorem keepsOthers_finish (teardown : Teardown) (answers : TeardownAnswers) :
    st.KeepsOthers (st.finish teardown context answers) context := by
  simp only [finish]
  split_ifs
  · obtain ⟨hslots, hspills, hstaging, hhtod, hcreated, hprimary⟩ :=
      (keepsOthers_forgetContextMetadata : st.KeepsOthers _ context)
    exact ⟨hslots, hspills, hstaging, hhtod, hcreated, hprimary⟩
  · exact ⟨fun _ _ hslot _ ↦ hslot, fun _ hspill _ ↦ hspill, fun _ ↦ rfl, fun _ ↦ rfl,
      fun _ _ ↦ Iff.rfl, fun _ _ ↦ rfl⟩

theorem Inv.gone_finish (h : st.Inv) {answers : TeardownAnswers}
    (hforgets : teardown.Forgets context answers) (hidle : st.active = none)
    (hcontext : context ≠ 0) : (st.finish teardown context answers).Gone context := by
  have hforgotten :=
    forgotten_forgetContextMetadata (h.operation_eq_none hidle) hcontext
  simp only [LifecycleState.finish, if_pos hforgets]
  refine ⟨⟨hforgotten.async, hforgotten.syncStaging, hforgotten.syncHtod, hforgotten.created,
    hforgotten.primary⟩, fun active hmem ↦ ?_⟩
  exact nomatch hidle.symm.trans hmem

theorem Inv.finishedAs (h : st.Inv) {lane : ℕ} {answers : TeardownAnswers}
    (hstage : st.transaction = some (lane, .finishing teardown context answers))
    (hstep : st.step .finish = some st') : st.FinishedAs st' teardown context answers := by
  simp only [LifecycleState.step, hstage] at hstep
  obtain ⟨hidle, rfl⟩ := Option.ite_some_none_eq_some.mp hstep
  obtain ⟨hcontexts, hdevices, -⟩ := h.finish hstage
  refine ⟨fun hgone hcontext later st'' hrun ↦ ?_, keepsOthers_finish teardown answers, hcontexts,
    hdevices, fun lane request hwaiting hactive ↦ ?_⟩
  · have hforgets := forgets_of_destroyed hgone hcontext
    have hfinished := h.gone_finish hforgets (hidle hforgets) hcontext
    suffices hgone : st''.Gone context from hgone.forgotten
    refine Machine.run_invariant (I := fun st ↦ st.Gone context) _ ?_ hfinished hrun
    intro st step st' hst hstep
    obtain ⟨hother, hstep⟩ := Machine.step_restrict.mp hstep
    exact hst.step hcontext hother hstep
  · have hfree : ¬(st.finish teardown context answers).UnderTeardown request := by
      simp [UnderTeardown, hcontexts, hdevices]
    simp only [LifecycleState.step, hwaiting, Option.bind_some, hactive, hfree, not_false_eq_true,
      and_self, if_true, Option.isSome_some]

/-- While a teardown is under way, an operation on its context or its device cannot begin. -/
theorem Excludes.step_start (h : st.Excludes teardown) {lane : ℕ} {request : StagingRequest}
    (hwaiting : st.waiting lane = some request) (haffects : st.Affects teardown request) :
    st.step (.start lane) = none := by
  have hunder : st.UnderTeardown request := by
    rw [UnderTeardown, h.contexts, h.devices]
    exact haffects
  simp only [LifecycleState.step, hwaiting, Option.bind_some, hunder, not_true_eq_false, and_false,
    if_false]

theorem Inv.excludes (h : st.Inv) {lane : ℕ} {stage : TransactionStage}
    (hstage : st.transaction = some (lane, stage)) (hunderway : stage.underway = some teardown) :
    st.Excludes teardown := by
  have hsets := h.sets
  rw [hstage] at hsets
  match stage with
  | .prepared _ =>
    obtain rfl := Option.some.inj hunderway
    exact hsets
  | .finishing _ _ _ =>
    obtain rfl := Option.some.inj hunderway
    exact hsets.1

end LifecycleState

open LifecycleState

/-- **Operations and teardowns.** In every run, while a teardown is under way no operation on its
context or device is active or can begin. A finish leaves nothing of a context that is gone, nor of
one whose teardown failed, and what belongs to others as it was. Outside teardowns the sets are
empty. -/
theorem teardown_excludes_operations (steps : List TeardownStep) (st : LifecycleState)
    (hrun : teardownMachine.run {} steps = some st) :
    (∀ lane stage teardown, st.transaction = some (lane, stage) → stage.underway = some teardown →
      ∀ request, st.Affects teardown request →
        (∀ other, st.active ≠ some (other, request)) ∧
          ∀ other, st.waiting other = some request → st.step (.start other) = none) ∧
    (∀ lane teardown context answers,
      st.transaction = some (lane, .finishing teardown context answers) →
        context = st.finishedContext teardown ∧
          ∀ st', st.step .finish = some st' → st.FinishedAs st' teardown context answers) ∧
    (st.transaction = none ∨ st.transaction.map Prod.snd = some .noting →
      st.teardownContexts = ∅ ∧ st.teardownDevices = ∅) := by
  have hinv : st.Inv :=
    teardownMachine.run_invariant (fun _ _ _ hst hstep ↦ hst.step hstep) Inv.init hrun
  refine ⟨?_, ?_, ?_⟩
  · intro lane stage teardown hstage hunderway request haffects
    have hexcludes := hinv.excludes hstage hunderway
    refine ⟨fun other hactive ↦ ?_, fun other hwaiting ↦ hexcludes.step_start hwaiting haffects⟩
    apply hexcludes.active _ hactive
    rw [UnderTeardown, hexcludes.contexts, hexcludes.devices]
    exact haffects
  · intro lane teardown context answers hstage
    have hsets := hinv.sets
    rw [hstage] at hsets
    exact ⟨hsets.2, fun st' hstep ↦ hinv.finishedAs hstage hstep⟩
  · rintro (hnone | hnoting)
    · have hsets := hinv.sets
      rw [hnone] at hsets
      exact hsets
    · exact hinv.sets_of_noting hnoting

/-- The steps of an asynchronous copy of one chunk. -/
def copyChunk (lane : ℕ) (context : CUcontext) : List TeardownStep :=
  [.request lane ⟨context, 0, true⟩, .start lane,
    .staging (.acquire (uniformAnswers .errorNotReady) fun _ _ ↦ ⟨true, true, true⟩),
    .staging .holdBegin, .staging (.holdEnd true true), .staging (.copy .success),
    .staging (.publish .success), .staging .finish, .leave]

/-- Device 0 has the primary context 7 and a created context 5, from which a copy runs. -/
def createdRun : List TeardownStep :=
  [.beginNoting 0, .notePrimary 0 7 .success, .beginNoting 0, .noteCreated 5 .success] ++
    copyChunk 1 5

/-- The created context is to be destroyed, and the call fails. -/
def failedDestroy : List TeardownStep :=
  [.beginTeardown 0 (.destroy 5), .prepare (uniformAnswers .errorNotReady),
    .call ⟨.error 700, .success, true⟩]

theorem teardown_excludes_operations_failedDestroy :
    ∃ st st', teardownMachine.run {} (createdRun ++ [.request 1 ⟨5, 0, false⟩] ++ failedDestroy)
        = some st ∧
      st.step (.start 1) = none ∧ st.step .finish = some st' ∧ st'.Forgotten 5 ∧
        (st'.step (.start 1)).isSome := by
  have hpossible : (teardownMachine.run {}
      (createdRun ++ [.request 1 ⟨5, 0, false⟩] ++ failedDestroy)).any fun st ↦
        st.transaction = some (0, .finishing (.destroy 5) 5 ⟨.error 700, .success, true⟩) ∧
          st.waiting 1 = some ⟨5, 0, false⟩ ∧ st.active = none ∧
          (st.step .finish).any fun st' ↦
            st'.waiting 1 = some ⟨5, 0, false⟩ ∧ st'.active = none := by decide +kernel
  obtain ⟨st, hrun, hst⟩ := (Option.any_eq_true _ _).mp hpossible
  obtain ⟨hstage, hwaiting, -, hfinish⟩ := of_decide_eq_true hst
  obtain ⟨st', hstep, hst'⟩ := (Option.any_eq_true _ _).mp hfinish
  obtain ⟨hwaiting', hactive⟩ := of_decide_eq_true hst'
  obtain ⟨hexcluded, hfinished, -⟩ := teardown_excludes_operations _ st hrun
  have hafter := (hfinished 0 (.destroy 5) 5 _ hstage).2 st' hstep
  refine ⟨st, st', hrun, ?_, hstep, ?_, hafter.starts 1 _ hwaiting' hactive⟩
  · apply (hexcluded 0 _ (.destroy 5) hstage rfl ⟨5, 0, false⟩ (Or.inl _)).2 1 hwaiting
    exact Finset.mem_singleton_self 5
  · exact hafter.forgotten (Or.inr (by decide)) (by decide) [] st' rfl

/-- **What a failed call loses.** A created context whose destruction failed is not recorded as
created any more, and its slot is given up. The next copy on it is taken for one on the primary
context of its device; when that is reset, a slot of the one that was retained is left. -/
theorem failed_destroy_loses_records :
    (teardownMachine.run {} createdRun).any (fun st ↦
      st.transaction = none ∧ 5 ∈ st.createdContexts ∧
        ∃ slot ∈ st.async.slots, slot.allocationContext = 5) = true ∧
    (teardownMachine.run {} (createdRun ++ failedDestroy ++ [.finish])).any (fun st ↦
      st.transaction = none ∧ 5 ∉ st.createdContexts ∧
        ∀ slot ∈ st.async.slots, slot.allocationContext ≠ 5) = true ∧
    (teardownMachine.run {} (createdRun ++ failedDestroy ++ [.finish] ++ copyChunk 1 7 ++
      copyChunk 1 5 ++ [.beginTeardown 0 (.primary 0 true), .prepare (uniformAnswers .success),
        .call ⟨.success, .success, false⟩, .finish])).any (fun st ↦
      st.transaction = none ∧ ∃ slot ∈ st.async.slots, slot.allocationContext = 7) = true := by
  decide +kernel

end Lupine
