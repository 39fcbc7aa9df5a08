import Mathlib.Algebra.Group.Nat.Defs
import Mathlib.Data.Int.Notation
import Lupine.Foundation.Machine

/-!
# The contexts of server lanes

Every thread of the client has a lane of its own in every server, and the driver keeps a stack of
contexts for it. The client remembers, for each of its threads, which context it made current on
which route, and leaves out the call that would make it current again. One counter, the epoch,
invalidates what all threads remember.

## What changes a lane

`cuCtxSetCurrent` replaces the top of the stack, and without a context it *pops* it, so that the
context below becomes current. `cuCtxCreate` pushes. A kernel launch and a library call carry the
context that the client believes to be current, and their handlers switch the lane to it. A new
connection has new lanes.

## What the client remembers

`lupine_set_current_context_on_route` remembers the result of its call under the epoch it read
before, so that an invalidation in between is seen. Three things are not:

* unbinding on a lane that has two contexts leaves the lower one current, not none;
* a launch, or a library call, can carry a context other than the one that is remembered, since
  `lupine_restore_default_context_hint` changes the one without the other;
* `lupine_lane_context_cache_store` reads the epoch when it stores, so a connection that is opened
  again between the answer to `cuCtxCreate` and the store is not seen.

In a run that avoids them, what the client remembers of a lane is what is current there.

A thread sends the requests of a lane in order and the lane serves them in order, so a request
without an answer (a launch, a deferred library call) is one step.
-/

open Foundation

namespace Lupine

/-! ## The driver

Any driver will do in which the context that was set, or created, is the current one, and in which
unbinding does nothing where no context is current. What unbinding does elsewhere is left open; the
stack is the driver of the concrete runs. -/

/-- The contexts of a host thread, as the driver keeps them; `none` is `nullptr`. -/
structure ContextDriver where
  Stack : Type
  empty : Stack
  /-- `cuCtxGetCurrent`. -/
  current : Stack → Option ℕ
  /-- `cuCtxSetCurrent`. -/
  setCurrent : Stack → Option ℕ → Stack
  /-- `cuCtxCreate`, with the context it creates. -/
  create : Stack → ℕ → Stack
  /-- `cuCtxDestroy` and `cuCtxDetach`. -/
  destroy : Stack → Option ℕ → Stack
  current_setCurrent : ∀ stack context, current (setCurrent stack (some context)) = some context
  current_create : ∀ stack context, current (create stack context) = some context
  /-- Unbinding is possible where nothing is current, and does nothing. -/
  current_unbind : ∀ stack, current stack = none → current (setCurrent stack none) = none

/-- The driver's stack: `cuCtxSetCurrent` replaces the top, or pops it. -/
def stackDriver : ContextDriver where
  Stack := List ℕ
  empty := []
  current := List.head?
  setCurrent stack context := context.toList ++ stack.tail
  create stack context := context :: stack
  destroy stack context := if stack.head? = context then stack.tail else stack
  current_setCurrent _ _ := rfl
  current_create _ _ := rfl
  current_unbind stack h := by rw [List.head?_eq_none_iff.mp h]; rfl

variable {driver : ContextDriver}

theorem ContextDriver.current_setCurrent_self (stack : driver.Stack) :
    driver.current (driver.setCurrent stack (driver.current stack)) = driver.current stack := by
  cases h : driver.current stack with
  | none => exact driver.current_unbind stack h
  | some context => exact driver.current_setCurrent stack context

/-! ## The cache of a thread

Slots are shared between routes that agree modulo the number of slots, so an update can drop what
another route remembered. An entry is valid under the epoch it was stored with, and nothing that is
remembered outlives a new epoch. -/

/-- `kLaneContextCacheSlots`. -/
def laneContextCacheSlots : ℕ := 32

/-- `lane_context_cache_entry`. -/
structure LaneContextCacheEntry where
  epoch : ℕ := 0
  routeId : ℤ := -2
  context : Option ℕ := none
  deriving DecidableEq, Repr

/-- `lane_context_cache`. -/
abbrev LaneContextCache := Fin laneContextCacheSlots → LaneContextCacheEntry

/-- The slot in `lane_context_cache_entry_for`, which gives no entry below -1. -/
def laneContextCacheSlot (routeId : ℤ) : Fin laneContextCacheSlots :=
  ⟨(routeId % 32).toNat, by rw [laneContextCacheSlots]; omega⟩

namespace LaneContextCache

variable (cache : LaneContextCache) (now : ℕ)

/-- `lupine_lane_context_cache_matches`, where `now` is the epoch. -/
def Matches (routeId : ℤ) (context : Option ℕ) : Prop :=
  -1 ≤ routeId ∧ (cache (laneContextCacheSlot routeId)).routeId = routeId ∧
    (cache (laneContextCacheSlot routeId)).context = context ∧
    (cache (laneContextCacheSlot routeId)).epoch = now

instance (routeId : ℤ) (context : Option ℕ) : Decidable (cache.Matches now routeId context) :=
  inferInstanceAs (Decidable (_ ∧ _))

/-- `lupine_lane_context_cache_update`. -/
def update (routeId : ℤ) (context : Option ℕ) (epoch : ℕ) (succeeded : Bool) : LaneContextCache :=
  let slot := laneContextCacheSlot routeId
  if routeId < -1 then cache
  else if succeeded = false ∨ now ≠ epoch then
    if (cache slot).routeId = routeId then
      Function.update cache slot { cache slot with epoch := 0 }
    else cache
  else Function.update cache slot ⟨epoch, routeId, context⟩

/-- `lupine_lane_context_cache_store`. -/
def store (routeId : ℤ) (context : Option ℕ) : LaneContextCache :=
  cache.update now routeId context now true

variable {cache now}

/-- What matches after an update is what was stored, or another route's. -/
theorem matches_of_update {routeId r : ℤ} {context c : Option ℕ} {epoch : ℕ} {succeeded : Bool}
    (hnow : 0 < now) (h : (cache.update now routeId context epoch succeeded).Matches now r c) :
    r = routeId ∧ c = context ∧ succeeded = true ∧ epoch = now ∨
      r ≠ routeId ∧ cache.Matches now r c := by
  obtain ⟨hr, hroute, hcontext, hepoch⟩ := h
  -- an entry of this route cannot be another route's
  have hne : ∀ entry : LaneContextCacheEntry, entry.routeId ≠ routeId → entry.routeId = r →
      r ≠ routeId := fun entry h hr ↦ hr ▸ h
  simp only [update] at hroute hcontext hepoch
  split at hroute
  next hinvalid => exact Or.inr ⟨by omega, hr, by simp_all⟩
  next hvalid =>
  rw [if_neg hvalid] at hcontext hepoch
  split at hroute
  next hdropped =>
    rw [if_pos hdropped] at hcontext hepoch
    split at hroute
    next hsame =>
      rw [if_pos hsame] at hcontext hepoch
      by_cases hslot : laneContextCacheSlot r = laneContextCacheSlot routeId
      · rw [hslot, Function.update_self] at hepoch
        exact absurd hepoch (Nat.ne_of_lt hnow)
      · rw [Function.update_of_ne hslot] at hroute hcontext hepoch
        exact Or.inr ⟨fun heq ↦ hslot (congrArg _ heq), hr, hroute, hcontext, hepoch⟩
    next hother =>
      rw [if_neg hother] at hcontext hepoch
      refine Or.inr ⟨?_, hr, hroute, hcontext, hepoch⟩
      rintro rfl
      exact hother hroute
  next hkept =>
    rw [if_neg hkept] at hcontext hepoch
    push Not at hkept
    by_cases hslot : laneContextCacheSlot r = laneContextCacheSlot routeId
    · rw [hslot, Function.update_self] at hroute hcontext
      exact Or.inl ⟨hroute.symm, hcontext.symm, by simpa using hkept.1, hkept.2.symm⟩
    · rw [Function.update_of_ne hslot] at hroute hcontext hepoch
      exact Or.inr ⟨fun heq ↦ hslot (congrArg _ heq), hr, hroute, hcontext, hepoch⟩

theorem epoch_update_le (hcache : ∀ slot, (cache slot).epoch ≤ now) (routeId : ℤ)
    (context : Option ℕ) (epoch : ℕ) (succeeded : Bool) (slot : Fin laneContextCacheSlots) :
    (cache.update now routeId context epoch succeeded slot).epoch ≤ now := by
  simp only [update]
  split_ifs with hinvalid hdropped hsame
  · exact hcache slot
  · by_cases hslot : slot = laneContextCacheSlot routeId
    · subst hslot
      rw [Function.update_self]
      exact Nat.zero_le now
    · rw [Function.update_of_ne hslot]
      exact hcache slot
  · exact hcache slot
  · push Not at hdropped
    by_cases hslot : slot = laneContextCacheSlot routeId
    · subst hslot
      rw [Function.update_self]
      exact Nat.le_of_eq hdropped.2.symm
    · rw [Function.update_of_ne hslot]
      exact hcache slot

/-- Nothing that is remembered outlives a new epoch. -/
theorem not_matches_of_lt (hcache : ∀ slot, (cache slot).epoch ≤ now) {later : ℕ}
    (hlater : now < later) (routeId : ℤ) (context : Option ℕ) :
    ¬cache.Matches later routeId context := by
  rintro ⟨-, -, -, hepoch⟩
  have := hcache (laneContextCacheSlot routeId)
  omega

end LaneContextCache

/-! ## The client and its lanes

A thread waits for at most one answer. The request keeps the epoch that was read when the call
began, and the answer keeps how often the connection had been opened when it was given. -/

/-- What follows a call that sets the current context, with its result. -/
inductive AfterSet where
  | setCurrent
  | pushCurrent
  | popCurrent
  /-- `lupine_route_for_default_context_hint`. -/
  | acceptHint
  /-- `cuCtxDestroy`, which unbinds the context that it destroys on that route. -/
  | destroy (routeId : ℤ) (context : Option ℕ)
  deriving DecidableEq, Repr

inductive ContextRequest where
  /-- `cuCtxSetCurrent`, with the epoch that was read before. -/
  | setCurrent (context : Option ℕ) (epoch : ℕ) (after : AfterSet)
  | create
  /-- `cuCtxDestroy`, which forgets the context, or `cuCtxDetach`. -/
  | destroy (context : Option ℕ) (forgets : Bool)
  deriving DecidableEq, Repr

/-- What was answered, with the created context, and how often the connection had been opened. -/
structure LaneReply where
  ok : Bool
  context : ℕ
  opened : ℕ
  deriving DecidableEq, Repr

structure PendingCall where
  routeId : ℤ
  request : ContextRequest
  reply : Option LaneReply := none
  deriving DecidableEq, Repr

structure ClientThread where
  /-- `lupine_current_context`. -/
  current : Option ℕ := none
  /-- `lupine_context_stack`, its last entry first. -/
  stack : List (Option ℕ) := []
  /-- `lupine_default_context_hint`. -/
  defaultHint : Option ℕ := none
  cache : LaneContextCache := fun _ ↦ {}
  pending : Option PendingCall := none

namespace ClientThread

variable (thread : ClientThread)

/-- The context is current, and the default unless there is none. -/
def noteCurrent (context : Option ℕ) : ClientThread :=
  { thread with current := context, defaultHint := context.or thread.defaultHint }

/-- What the caller of `lupine_set_current_context_on_route` does with its result. -/
def finishSet (context : Option ℕ) (ok : Bool) : AfterSet → ClientThread
  | .setCurrent => if ok then thread.noteCurrent context else thread
  | .pushCurrent =>
    if ok then thread.noteCurrent context else { thread with stack := thread.stack.tail }
  | .popCurrent =>
    if ok then thread.noteCurrent context else { thread with stack := context :: thread.stack }
  | .acceptHint => if ok then { thread with current := context } else thread
  | .destroy routeId destroyed =>
    { if ok then thread.noteCurrent context else thread with
      pending := some { routeId, request := .destroy destroyed true } }

/-- What `lupine_note_ctx_create` does to the thread. -/
def noteCtxCreate (now : ℕ) (routeId : ℤ) (context : ℕ) : ClientThread :=
  { thread with
    cache := thread.cache.store now routeId (some context)
    stack := thread.current :: thread.stack
    current := some context
    defaultHint := some context }

/-- What `lupine_forget_destroyed_context` does to the thread. -/
def forgetDestroyed (context : ℕ) : ClientThread :=
  { thread with
    current := if thread.current = some context then none else thread.current
    defaultHint := if thread.defaultHint = some context then none else thread.defaultHint
    stack := thread.stack.filter (· ≠ some context) }

end ClientThread

/-- The client's threads, and their lanes: the contexts of the driver's thread that serves them. -/
structure ContextState (driver : ContextDriver) where
  threads : ℕ → ClientThread := fun _ ↦ {}
  lanes : ℕ → ℤ → driver.Stack := fun _ _ ↦ driver.empty
  /-- How often each connection has been opened again. -/
  opened : ℤ → ℕ := fun _ ↦ 0
  /-- `lane_context_cache_epoch`. -/
  epoch : ℕ := 1
  /-- `lupine_owners` of contexts. -/
  owners : ℕ → Option ℤ := fun _ ↦ none
  /-- `lupine_global_default_context_hint`. -/
  globalHint : Option ℕ := none

/-- What can happen. A `fallback` is the route that `lupine_route_for_default` gives. -/
inductive ContextStep where
  | setCurrent (t : ℕ) (context : Option ℕ) (fallback : ℤ)
  | pushCurrent (t : ℕ) (context : Option ℕ) (fallback : ℤ)
  | popCurrent (t : ℕ) (fallback : ℤ)
  /-- `lupine_route_for_default` tries one of its hints. -/
  | routeForHint (t : ℕ) (context : ℕ)
  | ctxCreate (t : ℕ) (routeId : ℤ)
  | ctxDestroy (t : ℕ) (context : Option ℕ) (fallback : ℤ)
  | ctxDetach (t : ℕ) (context : Option ℕ) (fallback : ℤ)
  /-- The lane serves the request of the thread: the driver accepts it or not. -/
  | serve (t : ℕ) (ok : Bool) (created : ℕ)
  /-- The call of the thread returns, with the answer or without. -/
  | finish (t : ℕ) (delivered : Bool)
  | primaryRetain (context : ℕ) (routeId : ℤ)
  /-- A primary context is released or reset, or a connection is closed. -/
  | invalidate
  /-- `lupine_repair_current_context_device`. -/
  | repairOwner (t : ℕ) (routeId : ℤ)
  /-- `lupine_restore_default_context_hint`. -/
  | restoreHint (t : ℕ)
  | launch (t : ℕ) (routeId fallback : ℤ) (ok : Bool)
  | libraryCall (t : ℕ) (routeId : ℤ) (ok : Bool)
  /-- A connection is opened again, and its lanes are new. -/
  | reopen (routeId : ℤ)
  deriving DecidableEq, Repr

namespace ContextState

variable (st : ContextState driver)

/-- The thread does not wait for an answer. -/
def Idle (t : ℕ) : Prop := (st.threads t).pending = none

instance (t : ℕ) : Decidable (st.Idle t) := inferInstanceAs (Decidable (_ = _))

def withThread (t : ℕ) (thread : ClientThread) : ContextState driver :=
  { st with threads := Function.update st.threads t thread }

def withLane (t : ℕ) (routeId : ℤ) (stack : driver.Stack) : ContextState driver :=
  { st with lanes := Function.update st.lanes t (Function.update (st.lanes t) routeId stack) }

/-- `lupine_route_for_context`. -/
def routeForContext (context : Option ℕ) (fallback : ℤ) : ℤ :=
  (context.bind st.owners).getD fallback

/-- `lupine_invalidate_current_context_cache`. -/
def invalidate : ContextState driver := { st with epoch := (st.epoch + 1) % 2 ^ 64 }

/-! ### Calls -/

def beginCall (t : ℕ) (routeId : ℤ) (request : ContextRequest) : ContextState driver :=
  st.withThread t { st.threads t with pending := some { routeId, request } }

/-- The call that sets the current context has its result. -/
def finishSet (t : ℕ) (context : Option ℕ) (after : AfterSet) (ok : Bool) : ContextState driver :=
  { st.withThread t ((st.threads t).finishSet context ok after) with
    globalHint :=
      if ok = true ∧ after ≠ .acceptHint then context.or st.globalHint else st.globalHint }

/-- `lupine_set_current_context_on_route`. Only `lupine_route_for_default_context_hint` leaves out a
call to the local driver. -/
def setCurrentContextOnRoute (t : ℕ) (routeId : ℤ) (context : Option ℕ) (after : AfterSet) :
    ContextState driver :=
  if routeId < -1 then st.finishSet t context after false
  else if (routeId ≠ -1 ∨ after = .acceptHint) ∧
      (st.threads t).cache.Matches st.epoch routeId context then
    st.finishSet t context after true
  else st.beginCall t routeId (.setCurrent context st.epoch after)

/-- `lupine_set_remote_current_context`. -/
def setRemoteCurrentContext (t : ℕ) (context : Option ℕ) (fallback : ℤ) (after : AfterSet) :
    ContextState driver :=
  let routeId := st.routeForContext (context.or (st.threads t).current) fallback
  st.setCurrentContextOnRoute t routeId context after

/-- `cuCtxDestroy_v2`, which first unbinds the context where it is current. -/
def ctxDestroy (t : ℕ) (context : Option ℕ) (fallback : ℤ) : ContextState driver :=
  let routeId := st.routeForContext context fallback
  if (st.threads t).current = context then
    st.setRemoteCurrentContext t none fallback (.destroy routeId context)
  else st.beginCall t routeId (.destroy context true)

/-- The contexts of a lane after a request that the driver accepts. -/
def servedStack (stack : driver.Stack) (created : ℕ) : ContextRequest → driver.Stack
  | .setCurrent context _ _ => driver.setCurrent stack context
  | .create => driver.create stack created
  | .destroy context _ => driver.destroy stack context

def serve (t : ℕ) (call : PendingCall) (ok : Bool) (created : ℕ) : ContextState driver :=
  let served := if ok then
      st.withLane t call.routeId (servedStack (st.lanes t call.routeId) created call.request)
    else st
  let reply : LaneReply := ⟨ok, created, st.opened call.routeId⟩
  served.withThread t { st.threads t with pending := some { call with reply := some reply } }

/-- `lupine_note_ctx_create`. -/
def noteCtxCreate (t : ℕ) (routeId : ℤ) (context : ℕ) : ContextState driver :=
  { st.withThread t ((st.threads t).noteCtxCreate st.epoch routeId context) with
    owners := Function.update st.owners context (some routeId)
    globalHint := some context }

/-- `lupine_forget_destroyed_context`. -/
def forgetDestroyedContext (t : ℕ) : Option ℕ → ContextState driver
  | none => st
  | some context =>
    { st.withThread t ((st.threads t).forgetDestroyed context) with
      owners := Function.update st.owners context none
      globalHint := if st.globalHint = some context then none else st.globalHint }

/-- The call has returned, with a result and the created context. -/
def finish (t : ℕ) (routeId : ℤ) (ok : Bool) (created : ℕ) : ContextRequest → ContextState driver
  | .setCurrent context epoch after =>
    let thread := st.threads t
    let cache := thread.cache.update st.epoch routeId context epoch ok
    (st.withThread t { thread with cache, pending := none }).finishSet t context after ok
  | .create =>
    let returned := st.withThread t { st.threads t with pending := none }
    if ok then returned.noteCtxCreate t routeId created else returned
  | .destroy context forgets =>
    let returned := st.withThread t { st.threads t with pending := none }
    if ok then
      (if forgets then returned.forgetDestroyedContext t context else returned).invalidate
    else returned

/-! ### Launches and library calls -/

/-- `launch_context` in `cuLaunchKernel`. -/
def launchContext (t : ℕ) (routeId fallback : ℤ) : Option ℕ :=
  let current := (st.threads t).current
  if current ≠ none ∧ st.routeForContext current fallback = routeId then current else none

/-- What `handle_manual_cuLaunchKernel` does with the context it reads. -/
def launchedStack (stack : driver.Stack) : Option ℕ → driver.Stack
  | none => stack
  | some context =>
    if driver.current stack = some context then stack else driver.setCurrent stack (some context)

/-- What `handle_manual_lupineCublasCall` does with the context it reads: it sets it before and
after the call, and without one puts back the one it found. -/
def libraryStack (stack : driver.Stack) : Option ℕ → driver.Stack
  | none => driver.setCurrent stack (driver.current stack)
  | some context => driver.setCurrent (driver.setCurrent stack (some context)) (some context)

/-- The lane runs a request that carries a context, which the driver accepts or not. -/
def switchLane (t : ℕ) (routeId : ℤ) (ok : Bool)
    (handler : driver.Stack → Option ℕ → driver.Stack) (context : Option ℕ) : ContextState driver :=
  if ok = true ∨ context = none then
    st.withLane t routeId (handler (st.lanes t routeId) context)
  else st

/-! ### Hints and connections -/

/-- `lupine_repair_current_context_device`. -/
def repairOwner (t : ℕ) (routeId : ℤ) : ContextState driver :=
  match (st.threads t).current with
  | none => st
  | some context =>
    { st.withThread t { st.threads t with defaultHint := some context } with
      owners := Function.update st.owners context (some routeId)
      globalHint := some context }

/-- `lupine_restore_default_context_hint`. -/
def restoreHint (t : ℕ) : ContextState driver :=
  let thread := st.threads t
  st.withThread t
    { thread with current := thread.current.or (thread.defaultHint.or st.globalHint) }

/-- The connection is opened again: its lanes are new, and what was remembered is not valid. -/
def reopen (routeId : ℤ) : ContextState driver :=
  { st with
    lanes := fun t ↦ Function.update (st.lanes t) routeId driver.empty
    opened := Function.update st.opened routeId (st.opened routeId + 1) }.invalidate

def step : ContextStep → Option (ContextState driver)
  | .setCurrent t context fallback =>
    if st.Idle t then some (st.setRemoteCurrentContext t context fallback .setCurrent) else none
  | .pushCurrent t context fallback =>
    let thread := st.threads t
    if st.Idle t then
      some ((st.withThread t { thread with stack := thread.current :: thread.stack }
        ).setRemoteCurrentContext t context fallback .pushCurrent)
    else none
  | .popCurrent t fallback =>
    let thread := st.threads t
    if st.Idle t then
      some ((st.withThread t { thread with stack := thread.stack.tail }
        ).setRemoteCurrentContext t (thread.stack.headD none) fallback .popCurrent)
    else none
  | .routeForHint t context =>
    let thread := st.threads t
    if st.Idle t ∧ some context ∈ [thread.current, thread.defaultHint, st.globalHint] then
      (st.owners context).map fun routeId ↦
        st.setCurrentContextOnRoute t routeId (some context) .acceptHint
    else none
  | .ctxCreate t routeId => if st.Idle t then some (st.beginCall t routeId .create) else none
  | .ctxDestroy t context fallback =>
    if st.Idle t then some (st.ctxDestroy t context fallback) else none
  | .ctxDetach t context fallback =>
    if st.Idle t then
      some (st.beginCall t (st.routeForContext context fallback) (.destroy context false))
    else none
  | .serve t ok created =>
    (st.threads t).pending.bind fun call ↦
      if call.reply = none ∧ -1 ≤ call.routeId then some (st.serve t call ok created) else none
  | .finish t delivered =>
    (st.threads t).pending.bind fun call ↦
      match call.reply with
      | none => if delivered then none else some (st.finish t call.routeId false 0 call.request)
      | some reply =>
        -- an answer is lost only with its connection
        if delivered then some (st.finish t call.routeId reply.ok reply.context call.request)
        else if reply.opened ≠ st.opened call.routeId then
          some (st.finish t call.routeId false 0 call.request)
        else none
  | .primaryRetain context routeId =>
    some { st with owners := Function.update st.owners context (some routeId) }
  | .invalidate => some st.invalidate
  | .repairOwner t routeId => if st.Idle t then some (st.repairOwner t routeId) else none
  | .restoreHint t => if st.Idle t then some (st.restoreHint t) else none
  | .launch t routeId fallback ok =>
    if st.Idle t ∧ 0 ≤ routeId then
      some (st.switchLane t routeId ok launchedStack (st.launchContext t routeId fallback))
    else none
  | .libraryCall t routeId ok =>
    if st.Idle t ∧ 0 ≤ routeId then
      some (st.switchLane t routeId ok libraryStack (st.threads t).current)
    else none
  | .reopen routeId => if 0 ≤ routeId then some (st.reopen routeId) else none

end ContextState

def laneMachine (driver : ContextDriver) : Machine (ContextState driver) ContextStep :=
  ⟨ContextState.step⟩

/-! ## The condition

The three failures above are left out of a run by a condition on the state before the step: a lane
that is unbound has at most one context, a request carries the context that is remembered, and no
connection is opened again between an answer and its return. The epoch must not come round
either. -/

def ContextRequest.unbinds : ContextRequest → Bool
  | .setCurrent none _ _ => true
  | _ => false

namespace ContextState

variable (st : ContextState driver)

def cachedContext (t : ℕ) (routeId : ℤ) : Option (Option ℕ) :=
  let context := ((st.threads t).cache (laneContextCacheSlot routeId)).context
  if (st.threads t).cache.Matches st.epoch routeId context then some context else none

/-- The request carries no context but the one that is remembered of the lane. -/
def CarriesCached (t : ℕ) (routeId : ℤ) (context : Option ℕ) : Prop :=
  ∀ cached ∈ st.cachedContext t routeId, context = none ∨ context = cached

instance (t : ℕ) (routeId : ℤ) (context : Option ℕ) :
    Decidable (st.CarriesCached t routeId context) :=
  inferInstanceAs (Decidable (∀ _ ∈ _, _))

/-- The lane has at most one context where it is unbound, a switch keeps to what is remembered, and
a connection is not opened again between the answer to `cuCtxCreate` and its return. -/
def StepCond : ContextStep → Prop
  | .serve t ok _ =>
    ∀ call ∈ (st.threads t).pending, ok = true → call.request.unbinds = true →
      driver.current (driver.setCurrent (st.lanes t call.routeId) none) = none
  | .finish t delivered =>
    ∀ call ∈ (st.threads t).pending, ∀ reply ∈ call.reply,
      delivered = true → call.request = .create → reply.ok = true →
        reply.opened = st.opened call.routeId
  | .launch t routeId fallback ok =>
    ok = true → st.CarriesCached t routeId (st.launchContext t routeId fallback)
  | .libraryCall t routeId ok => ok = true → st.CarriesCached t routeId (st.threads t).current
  | _ => True

instance : ∀ step, Decidable (st.StepCond step)
  | .serve .. | .finish .. => inferInstanceAs (Decidable (∀ _ ∈ _, _))
  | .launch .. | .libraryCall .. => inferInstanceAs (Decidable (_ → _))
  | .setCurrent .. | .pushCurrent .. | .popCurrent .. | .routeForHint .. | .ctxCreate ..
  | .ctxDestroy .. | .ctxDetach .. | .primaryRetain .. | .invalidate | .repairOwner ..
  | .restoreHint .. | .reopen .. => inferInstanceAs (Decidable True)

end ContextState

/-- The step keeps what is remembered of the lanes right, and the epoch has not come round. -/
def LaneCond (st : ContextState driver) (step : ContextStep) : Prop :=
  st.epoch + 1 < 2 ^ 64 ∧ st.StepCond step

instance (st : ContextState driver) (step : ContextStep) : Decidable (LaneCond st step) :=
  inferInstanceAs (Decidable (_ ∧ _))

/-! ## The invariant of one thread

While a call is answered and has not returned, the lane may be ahead of what its thread remembers;
the invariant says of that lane what its return will store, and of the others that what is
remembered is right. The lemmas take one event each: a request is sent or served, a call returns, an
epoch begins, a connection is opened again. -/

section ThreadInv

variable (epoch : ℕ) (opened : ℤ → ℕ) (lanes : ℤ → driver.Stack) (cache : LaneContextCache)

/-- What is known of the lane of a call that is answered and has not returned. -/
structure AnsweredInv (call : PendingCall) (reply : LaneReply) : Prop where
  opened_le : reply.opened ≤ opened call.routeId
  stale : reply.opened ≠ opened call.routeId →
    ∀ routeId context, ¬cache.Matches epoch routeId context
  current_set : ∀ context sampled after, call.request = .setCurrent context sampled after →
    reply.ok = true → sampled = epoch → driver.current (lanes call.routeId) = context
  current_created : call.request = .create → reply.ok = true →
    reply.opened = opened call.routeId → driver.current (lanes call.routeId) = some reply.context

/-- What a thread remembers is right, except of the lane of a call that is answered. -/
structure ThreadInv (pending : Option PendingCall) : Prop where
  epoch_le : ∀ slot, (cache slot).epoch ≤ epoch
  sampled_le : ∀ call ∈ pending, ∀ context sampled after,
    call.request = .setCurrent context sampled after → sampled ≤ epoch
  answered : ∀ call ∈ pending, ∀ reply ∈ call.reply, AnsweredInv epoch opened lanes cache call reply
  cached : ∀ routeId context, cache.Matches epoch routeId context →
    driver.current (lanes routeId) = context ∨
      ∃ call ∈ pending, ∃ reply ∈ call.reply, call.routeId = routeId ∧ reply.ok = true

variable {epoch opened lanes cache} {pending : Option PendingCall}

namespace ThreadInv

theorem current_of_matches (h : ThreadInv epoch opened lanes cache none) {routeId : ℤ}
    {context : Option ℕ} (hmatch : cache.Matches epoch routeId context) :
    driver.current (lanes routeId) = context := by
  rcases h.cached routeId context hmatch with hcurrent | ⟨call, hcall, -⟩
  · exact hcurrent
  · exact nomatch hcall

theorem idle (hepoch : ∀ slot, (cache slot).epoch ≤ epoch)
    (hcached : ∀ routeId context, cache.Matches epoch routeId context →
      driver.current (lanes routeId) = context) :
    ThreadInv epoch opened lanes cache none where
  epoch_le := hepoch
  sampled_le _ hcall := nomatch hcall
  answered _ hcall := nomatch hcall
  cached routeId context hmatch := Or.inl (hcached routeId context hmatch)

theorem begin (h : ThreadInv epoch opened lanes cache none) {call : PendingCall}
    (hreply : call.reply = none)
    (hsampled : ∀ context sampled after,
      call.request = .setCurrent context sampled after → sampled ≤ epoch) :
    ThreadInv epoch opened lanes cache (some call) where
  epoch_le := h.epoch_le
  sampled_le := by
    rintro _ ⟨⟩
    exact hsampled
  answered := by
    rintro _ ⟨⟩ reply hmem
    exact nomatch hreply.symm.trans hmem
  cached routeId context hmatch := Or.inl (h.current_of_matches hmatch)

theorem invalidate (h : ThreadInv epoch opened lanes cache pending) :
    ThreadInv (epoch + 1) opened lanes cache pending := by
  have hno := fun routeId context ↦
    LaneContextCache.not_matches_of_lt h.epoch_le (Nat.lt_succ_self epoch) routeId context
  constructor
  · exact fun slot ↦ Nat.le_succ_of_le (h.epoch_le slot)
  · exact fun call hcall context sampled after hrequest ↦
      Nat.le_succ_of_le (h.sampled_le call hcall context sampled after hrequest)
  · intro call hcall reply hreply
    have hanswered := h.answered call hcall reply hreply
    refine ⟨hanswered.opened_le, fun _ ↦ hno, ?_, hanswered.current_created⟩
    rintro context sampled after hrequest - rfl
    have := h.sampled_le call hcall context _ after hrequest
    omega
  · exact fun routeId context hmatch ↦ absurd hmatch (hno routeId context)

theorem return_invalidate (h : ThreadInv epoch opened lanes cache pending) :
    ThreadInv (epoch + 1) opened lanes cache none :=
  idle h.invalidate.epoch_le fun _ _ hmatch ↦
    absurd hmatch (LaneContextCache.not_matches_of_lt h.epoch_le (Nat.lt_succ_self epoch) _ _)

theorem reopen (h : ThreadInv epoch opened lanes cache pending) (routeId : ℤ) :
    ThreadInv (epoch + 1) (Function.update opened routeId (opened routeId + 1))
      (Function.update lanes routeId driver.empty) cache pending := by
  have hnext := h.invalidate
  have hno := fun r context ↦
    LaneContextCache.not_matches_of_lt h.epoch_le (Nat.lt_succ_self epoch) r context
  refine ⟨hnext.epoch_le, hnext.sampled_le, ?_, fun r c hmatch ↦ absurd hmatch (hno r c)⟩
  intro call hcall reply hreply
  have hanswered := hnext.answered call hcall reply hreply
  have hopened : reply.opened ≤ opened call.routeId := hanswered.opened_le
  rcases eq_or_ne call.routeId routeId with rfl | hne
  · -- the answer came over the connection that is gone
    refine ⟨?_, fun _ ↦ hno, ?_, ?_⟩
    · rw [Function.update_self]
      exact Nat.le_succ_of_le hopened
    · rintro context sampled after hrequest - rfl
      have := h.sampled_le call hcall context _ after hrequest
      omega
    · intro _ _ hsame
      rw [Function.update_self] at hsame
      omega
  · refine ⟨?_, fun _ ↦ hno, ?_, ?_⟩ <;> simp only [Function.update_of_ne hne]
    · exact hopened
    · exact hanswered.current_set
    · exact hanswered.current_created

theorem serve {call : PendingCall} (h : ThreadInv epoch opened lanes cache (some call))
    (hreply : call.reply = none) {ok : Bool} (created : ℕ)
    (hunbind : ok = true → call.request.unbinds = true →
      driver.current (driver.setCurrent (lanes call.routeId) none) = none) :
    ThreadInv epoch opened
      (if ok then
        Function.update lanes call.routeId
          (ContextState.servedStack (lanes call.routeId) created call.request)
      else lanes)
      cache (some { call with reply := some ⟨ok, created, opened call.routeId⟩ }) := by
  -- so far nothing was answered, so the cache is right about every lane
  have hcurrent : ∀ routeId context, cache.Matches epoch routeId context →
      driver.current (lanes routeId) = context := by
    intro routeId context hmatch
    rcases h.cached routeId context hmatch with hcurrent | ⟨_, ⟨⟩, reply, hmem, -⟩
    · exact hcurrent
    · exact nomatch hreply.symm.trans hmem
  refine ⟨h.epoch_le, ?_, ?_, ?_⟩
  · rintro _ ⟨⟩
    exact h.sampled_le call rfl
  · rintro _ ⟨⟩ _ ⟨⟩
    refine ⟨Nat.le_refl _, fun hne ↦ absurd rfl hne, ?_, ?_⟩
    · rintro context sampled after hrequest hok -
      obtain rfl : ok = true := hok
      replace hrequest : call.request = .setCurrent context sampled after := hrequest
      rw [if_pos rfl, Function.update_self, hrequest]
      cases context with
      | none => exact hunbind rfl (by rw [hrequest]; rfl)
      | some context => exact driver.current_setCurrent _ context
    · rintro hrequest hok -
      obtain rfl : ok = true := hok
      replace hrequest : call.request = .create := hrequest
      rw [if_pos rfl, Function.update_self, hrequest]
      exact driver.current_create _ created
  -- the cache may be behind now, but of this lane only
  · intro routeId context hmatch
    cases ok with
    | false => exact Or.inl (hcurrent routeId context hmatch)
    | true =>
      rcases eq_or_ne call.routeId routeId with rfl | hne
      · exact Or.inr ⟨_, rfl, _, rfl, rfl, rfl⟩
      · left
        rw [if_pos rfl, Function.update_of_ne hne.symm]
        exact hcurrent routeId context hmatch

theorem returnSet (h : ThreadInv epoch opened lanes cache pending) (hepoch : 0 < epoch)
    {call : PendingCall} (hcall : pending = some call) {context : Option ℕ} {sampled : ℕ}
    {ok : Bool}
    (hset : ok = true → sampled = epoch → driver.current (lanes call.routeId) = context) :
    ThreadInv epoch opened lanes (cache.update epoch call.routeId context sampled ok) none := by
  subst hcall
  refine idle (LaneContextCache.epoch_update_le h.epoch_le _ _ _ _) fun routeId c hmatch ↦ ?_
  rcases LaneContextCache.matches_of_update hepoch hmatch with
    ⟨rfl, rfl, hok, hsampled⟩ | ⟨hne, hmatch⟩
  · exact hset hok hsampled
  · rcases h.cached routeId c hmatch with hcurrent | ⟨_, ⟨⟩, reply, -, hroute, -⟩
    · exact hcurrent
    · exact absurd hroute.symm hne

theorem returnFailed {call : PendingCall} (h : ThreadInv epoch opened lanes cache (some call))
    (hfailed : ∀ reply ∈ call.reply, reply.ok = true → reply.opened ≠ opened call.routeId) :
    ThreadInv epoch opened lanes cache none := by
  refine idle h.epoch_le fun routeId context hmatch ↦ ?_
  rcases h.cached routeId context hmatch with hcurrent | ⟨_, ⟨⟩, reply, hreply, -, hok⟩
  · exact hcurrent
  · exact absurd hmatch ((h.answered call rfl reply hreply).stale (hfailed reply hreply hok) _ _)

end ThreadInv

end ThreadInv

/-! ## The invariant of all threads

Threads share only the epoch. A step of one thread changes that thread and the lane it has, and the
rest of the invariant goes over unchanged. -/

/-- Every thread keeps its invariant, with its own lanes. -/
structure LaneInv (st : ContextState driver) : Prop where
  epoch_pos : 0 < st.epoch
  thread : ∀ t,
    ThreadInv st.epoch st.opened (st.lanes t) (st.threads t).cache (st.threads t).pending

@[simp] theorem ClientThread.finishSet_cache (thread : ClientThread) (context : Option ℕ)
    (ok : Bool) (after : AfterSet) : (thread.finishSet context ok after).cache = thread.cache := by
  cases after <;> cases ok <;> rfl

/-- It sends at most the request to destroy the context. -/
theorem ClientThread.finishSet_pending {thread : ClientThread} (hidle : thread.pending = none)
    (context : Option ℕ) (ok : Bool) (after : AfterSet) :
    (thread.finishSet context ok after).pending = none ∨ ∃ routeId destroyed,
      (thread.finishSet context ok after).pending =
        some { routeId, request := .destroy destroyed true } := by
  cases after with
  | destroy routeId destroyed => exact Or.inr ⟨routeId, destroyed, rfl⟩
  | _ => cases ok <;> exact Or.inl hidle

namespace LaneInv

variable {st : ContextState driver}

theorem init : LaneInv ({} : ContextState driver) where
  epoch_pos := Nat.zero_lt_one
  thread _ := by
    refine ThreadInv.idle (fun _ ↦ Nat.zero_le 1) ?_
    rintro routeId context ⟨hroute, hentry, -⟩
    replace hentry : -2 = routeId := hentry
    omega

theorem threadInv_of_idle (hinv : LaneInv st) {t : ℕ} (hidle : st.Idle t) :
    ThreadInv st.epoch st.opened (st.lanes t) (st.threads t).cache none :=
  hidle ▸ hinv.thread t

theorem withThread (hinv : LaneInv st) {t : ℕ} {thread : ClientThread}
    (hthread : ThreadInv st.epoch st.opened (st.lanes t) thread.cache thread.pending) :
    LaneInv (st.withThread t thread) where
  epoch_pos := hinv.epoch_pos
  thread s := by
    simp only [ContextState.withThread]
    rcases eq_or_ne s t with rfl | hne
    · rw [Function.update_self]
      exact hthread
    · rw [Function.update_of_ne hne]
      exact hinv.thread s

theorem withHints (hinv : LaneInv st) {t : ℕ} {thread : ClientThread}
    (hcache : thread.cache = (st.threads t).cache)
    (hpending : thread.pending = (st.threads t).pending) :
    LaneInv (st.withThread t thread) :=
  hinv.withThread (by rw [hcache, hpending]; exact hinv.thread t)

theorem beginCall (hinv : LaneInv st) {t : ℕ} (hidle : st.Idle t) {request : ContextRequest}
    (hsampled : ∀ context sampled after,
      request = .setCurrent context sampled after → sampled ≤ st.epoch) (routeId : ℤ) :
    LaneInv (st.beginCall t routeId request) :=
  hinv.withThread ((hinv.threadInv_of_idle hidle).begin rfl hsampled)

theorem finishSet (hinv : LaneInv st) {t : ℕ} (hidle : st.Idle t) (context : Option ℕ)
    (after : AfterSet) (ok : Bool) : LaneInv (st.finishSet t context after ok) := by
  have hthread := hinv.threadInv_of_idle hidle
  have hnext : LaneInv (st.withThread t ((st.threads t).finishSet context ok after)) := by
    apply hinv.withThread
    rw [ClientThread.finishSet_cache]
    rcases ClientThread.finishSet_pending hidle context ok after with hp | ⟨_, _, hp⟩ <;> rw [hp]
    · exact hthread
    · exact hthread.begin rfl fun _ _ _ h ↦ (nomatch h)
  exact ⟨hnext.epoch_pos, hnext.thread⟩

theorem setCurrentContextOnRoute (hinv : LaneInv st) {t : ℕ} (hidle : st.Idle t) (routeId : ℤ)
    (context : Option ℕ) (after : AfterSet) :
    LaneInv (st.setCurrentContextOnRoute t routeId context after) := by
  rw [ContextState.setCurrentContextOnRoute]
  split_ifs with hinvalid hskip
  · exact hinv.finishSet hidle context after false
  · exact hinv.finishSet hidle context after true
  · apply hinv.beginCall hidle
    rintro _ _ _ ⟨⟩
    exact Nat.le_refl _

theorem setCurrent_withStack (hinv : LaneInv st) {t : ℕ} (hidle : st.Idle t)
    (stack : List (Option ℕ)) (context : Option ℕ) (fallback : ℤ) (after : AfterSet) :
    LaneInv ((st.withThread t { st.threads t with stack }).setRemoteCurrentContext t context
      fallback after) := by
  have hnext : LaneInv (st.withThread t { st.threads t with stack }) := hinv.withHints rfl rfl
  have hidle' : (st.withThread t { st.threads t with stack }).Idle t := by
    simpa [ContextState.Idle, ContextState.withThread] using hidle
  exact hnext.setCurrentContextOnRoute hidle' _ _ _

theorem ctxDestroy (hinv : LaneInv st) {t : ℕ} (hidle : st.Idle t) (context : Option ℕ)
    (fallback : ℤ) : LaneInv (st.ctxDestroy t context fallback) := by
  simp only [ContextState.ctxDestroy]
  split_ifs with hcurrent
  · exact hinv.setCurrentContextOnRoute hidle _ _ _
  · apply hinv.beginCall hidle
    rintro _ _ _ ⟨⟩

theorem invalidate (hinv : LaneInv st) (hbound : st.epoch + 1 < 2 ^ 64) :
    LaneInv st.invalidate := by
  have hepoch : (st.epoch + 1) % 2 ^ 64 = st.epoch + 1 := Nat.mod_eq_of_lt hbound
  refine ⟨?_, fun t ↦ ?_⟩ <;> simp only [ContextState.invalidate, hepoch]
  · exact Nat.succ_pos _
  · exact (hinv.thread t).invalidate

theorem reopen (hinv : LaneInv st) (hbound : st.epoch + 1 < 2 ^ 64) (routeId : ℤ) :
    LaneInv (st.reopen routeId) := by
  have hepoch : (st.epoch + 1) % 2 ^ 64 = st.epoch + 1 := Nat.mod_eq_of_lt hbound
  refine ⟨?_, fun t ↦ ?_⟩ <;> simp only [ContextState.reopen, ContextState.invalidate, hepoch]
  · exact Nat.succ_pos _
  · exact (hinv.thread t).reopen routeId

theorem serve (hinv : LaneInv st) {t : ℕ} {call : PendingCall}
    (hpending : (st.threads t).pending = some call) (hreply : call.reply = none) {ok : Bool}
    (created : ℕ)
    (hunbind : ok = true → call.request.unbinds = true →
      driver.current (driver.setCurrent (st.lanes t call.routeId) none) = none) :
    LaneInv (st.serve t call ok created) := by
  have hcall := (hpending ▸ hinv.thread t).serve hreply created hunbind
  refine ⟨?_, fun s ↦ ?_⟩
  · cases ok <;> exact hinv.epoch_pos
  · rcases eq_or_ne s t with rfl | hne
    · cases ok <;>
        simpa [ContextState.serve, ContextState.withThread, ContextState.withLane] using hcall
    · cases ok <;>
        simpa [ContextState.serve, ContextState.withThread, ContextState.withLane, hne]
          using hinv.thread s

/-- The handler of a launch leaves the context current that it reads. -/
theorem current_launchedStack (stack : driver.Stack) (context : ℕ) :
    driver.current (ContextState.launchedStack stack (some context)) = some context := by
  rw [ContextState.launchedStack]
  split_ifs with hsame
  · exact hsame
  · exact driver.current_setCurrent stack context

theorem switchLane (hinv : LaneInv st) {t : ℕ} (hidle : st.Idle t) {routeId : ℤ} {ok : Bool}
    {handler : driver.Stack → Option ℕ → driver.Stack} {context : Option ℕ}
    (hnone : ∀ stack, driver.current (handler stack none) = driver.current stack)
    (hsome : ∀ stack c, driver.current (handler stack (some c)) = some c)
    (hcarries : ok = true → st.CarriesCached t routeId context) :
    LaneInv (st.switchLane t routeId ok handler context) := by
  rw [ContextState.switchLane]
  split_ifs with hserved
  · refine ⟨hinv.epoch_pos, fun s ↦ ?_⟩
    rcases eq_or_ne s t with rfl | hne
    · have hthread := hinv.threadInv_of_idle hidle
      have hlanes : ∀ r c, (st.threads s).cache.Matches st.epoch r c →
          driver.current (Function.update (st.lanes s) routeId
            (handler (st.lanes s routeId) context) r) = c := by
        intro r c hmatch
        have hcurrent := hthread.current_of_matches hmatch
        rcases eq_or_ne r routeId with rfl | hne
        · rw [Function.update_self]
          have hcached : st.cachedContext s r = some c := by
            obtain ⟨-, -, hcontext, -⟩ := id hmatch
            rw [ContextState.cachedContext, hcontext]
            exact if_pos hmatch
          match context with
          | none => exact (hnone _).trans hcurrent
          | some context =>
            have hok : ok = true := hserved.resolve_right (Option.some_ne_none context)
            rw [hsome]
            exact (hcarries hok c hcached).resolve_left (Option.some_ne_none context)
        · rw [Function.update_of_ne hne]
          exact hcurrent
      have hnext : ThreadInv st.epoch st.opened _ _ none :=
        ThreadInv.idle hthread.epoch_le hlanes
      simpa [ContextState.withLane, show (st.threads s).pending = none from hidle] using hnext
    · simpa [ContextState.withLane, hne] using hinv.thread s
  · exact hinv

theorem returnInvalidate (hinv : LaneInv st) (hbound : st.epoch + 1 < 2 ^ 64) {t : ℕ}
    {thread : ClientThread} (hcache : thread.cache = (st.threads t).cache)
    (hpending : thread.pending = none) : LaneInv (st.withThread t thread).invalidate := by
  have hnext := hinv.invalidate hbound
  have hepoch : (st.epoch + 1) % 2 ^ 64 = st.epoch + 1 := Nat.mod_eq_of_lt hbound
  have hthread : LaneInv (st.invalidate.withThread t thread) := by
    apply hnext.withThread
    simp only [ContextState.invalidate, hepoch, hcache, hpending]
    exact (hinv.thread t).return_invalidate
  exact ⟨hthread.epoch_pos, hthread.thread⟩

theorem forgetDestroyedContext {t : ℕ} (hinv : LaneInv st.invalidate) (context : Option ℕ) :
    LaneInv (st.forgetDestroyedContext t context).invalidate := by
  match context with
  | none => exact hinv
  | some context =>
    have hnext : LaneInv
        (st.invalidate.withThread t ((st.threads t).forgetDestroyed context)) :=
      hinv.withHints rfl rfl
    exact ⟨hnext.epoch_pos, hnext.thread⟩

theorem finish (hinv : LaneInv st) (hbound : st.epoch + 1 < 2 ^ 64) {t : ℕ} {call : PendingCall}
    (hpending : (st.threads t).pending = some call) {ok : Bool} {created : ℕ}
    (hfailed : ok = false →
      ∀ reply ∈ call.reply, reply.ok = true → reply.opened ≠ st.opened call.routeId)
    (hanswer : ok = true → ∃ reply ∈ call.reply, reply.ok = true ∧ reply.context = created ∧
      (call.request = .create → reply.opened = st.opened call.routeId)) :
    LaneInv (st.finish t call.routeId ok created call.request) := by
  have hthread := hinv.thread t
  rw [hpending] at hthread
  have hreturned : ok = false → LaneInv (st.withThread t { st.threads t with pending := none }) :=
    fun hok ↦ hinv.withThread (hthread.returnFailed (hfailed hok))
  match hrequest : call.request, ok with
  | .setCurrent context sampled after, ok =>
    -- what was set is still current, unless an epoch has begun since
    have hset : ok = true → sampled = st.epoch →
        driver.current (st.lanes t call.routeId) = context := by
      intro hok
      obtain ⟨reply, hreply, hok, -⟩ := hanswer hok
      exact (hthread.answered call rfl reply hreply).current_set _ _ _ hrequest hok
    have hnext : LaneInv (st.withThread t { st.threads t with
        cache := (st.threads t).cache.update st.epoch call.routeId context sampled ok
        pending := none }) :=
      hinv.withThread (hthread.returnSet hinv.epoch_pos rfl hset)
    apply hnext.finishSet
    simp only [ContextState.Idle, ContextState.withThread, Function.update_self]
  | .create, false => exact hreturned rfl
  | .create, true =>
    obtain ⟨reply, hreply, hok, rfl, hopened⟩ := hanswer rfl
    have hcurrent := (hthread.answered call rfl reply hreply).current_created hrequest hok
      (hopened hrequest)
    have hnext : LaneInv (st.withThread t (ClientThread.noteCtxCreate
        { st.threads t with pending := none } st.epoch call.routeId reply.context)) :=
      hinv.withThread (hthread.returnSet hinv.epoch_pos rfl fun _ _ ↦ hcurrent)
    refine ⟨hnext.epoch_pos, ?_⟩
    simpa [ContextState.finish, ContextState.noteCtxCreate, ContextState.withThread]
      using hnext.thread
  | .destroy context forgets, false => exact hreturned rfl
  | .destroy context forgets, true =>
    -- an epoch begins, so nothing that is remembered matches any more
    have hnext : LaneInv (st.withThread t { st.threads t with pending := none }).invalidate :=
      hinv.returnInvalidate hbound rfl rfl
    cases forgets with
    | false => exact hnext
    | true => exact hnext.forgetDestroyedContext context

theorem repairOwner (hinv : LaneInv st) (t : ℕ) (routeId : ℤ) :
    LaneInv (st.repairOwner t routeId) := by
  rw [ContextState.repairOwner]
  split
  next => exact hinv
  next context _ =>
    have hnext : LaneInv
        (st.withThread t { st.threads t with defaultHint := some context }) :=
      hinv.withHints rfl rfl
    exact ⟨hnext.epoch_pos, hnext.thread⟩

theorem step (hinv : LaneInv st) {action : ContextStep} {st' : ContextState driver}
    (hcond : LaneCond st action) (hstep : st.step action = some st') : LaneInv st' := by
  obtain ⟨hbound, hcond⟩ := hcond
  cases action with
  | setCurrent t context fallback =>
    obtain ⟨hidle, rfl⟩ := Option.ite_some_none_eq_some.mp hstep
    exact hinv.setCurrentContextOnRoute hidle _ _ _
  | pushCurrent t context fallback =>
    obtain ⟨hidle, rfl⟩ := Option.ite_some_none_eq_some.mp hstep
    exact hinv.setCurrent_withStack hidle _ _ _ _
  | popCurrent t fallback =>
    obtain ⟨hidle, rfl⟩ := Option.ite_some_none_eq_some.mp hstep
    exact hinv.setCurrent_withStack hidle _ _ _ _
  | routeForHint t context =>
    obtain ⟨⟨hidle, -⟩, heq⟩ := Option.ite_none_right_eq_some.mp hstep
    obtain ⟨routeId, -, rfl⟩ := Option.map_eq_some_iff.mp heq
    exact hinv.setCurrentContextOnRoute hidle _ _ _
  | ctxCreate t routeId =>
    obtain ⟨hidle, rfl⟩ := Option.ite_some_none_eq_some.mp hstep
    apply hinv.beginCall hidle
    rintro _ _ _ ⟨⟩
  | ctxDestroy t context fallback =>
    obtain ⟨hidle, rfl⟩ := Option.ite_some_none_eq_some.mp hstep
    exact hinv.ctxDestroy hidle context fallback
  | ctxDetach t context fallback =>
    obtain ⟨hidle, rfl⟩ := Option.ite_some_none_eq_some.mp hstep
    apply hinv.beginCall hidle
    rintro _ _ _ ⟨⟩
  | serve t ok created =>
    obtain ⟨call, hpending, hserve⟩ := Option.bind_eq_some_iff.mp hstep
    obtain ⟨⟨hreply, -⟩, rfl⟩ := Option.ite_some_none_eq_some.mp hserve
    exact hinv.serve hpending hreply created (hcond call hpending)
  | finish t delivered =>
    obtain ⟨call, hpending, hfinish⟩ := Option.bind_eq_some_iff.mp hstep
    have hcond := hcond call hpending
    -- the reply that came and whether it was delivered; nothing can be delivered that did not come
    match hreply : call.reply, delivered with
    | none, true => simp [hreply] at hfinish
    | none, false =>
      simp only [hreply] at hfinish
      obtain rfl := Option.some.inj hfinish
      apply hinv.finish hbound hpending
      · intro _ reply hmem
        exact nomatch hreply.symm.trans hmem
      · exact fun h ↦ (nomatch h)
    | some reply, true =>
      simp only [hreply] at hfinish
      obtain rfl := Option.some.inj hfinish
      apply hinv.finish hbound hpending
      -- what is delivered is what the server answered, so a refused call was not carried out
      · intro hrefused other hmem hok
        obtain rfl := Option.some.inj (hreply.symm.trans hmem)
        exact nomatch hrefused.symm.trans hok
      · exact fun hok ↦ ⟨reply, hreply, hok, rfl, fun hcreate ↦ hcond reply hreply rfl hcreate hok⟩
    | some reply, false =>
      simp only [hreply] at hfinish
      obtain ⟨hopened, rfl⟩ := Option.ite_some_none_eq_some.mp hfinish
      apply hinv.finish hbound hpending
      -- a reply is lost only with its connection, which has been opened again since
      · intro _ other hmem _
        obtain rfl := Option.some.inj (hreply.symm.trans hmem)
        exact hopened
      · exact fun h ↦ (nomatch h)
  | primaryRetain context routeId =>
    obtain rfl := Option.some.inj hstep
    exact ⟨hinv.epoch_pos, hinv.thread⟩
  | invalidate =>
    obtain rfl := Option.some.inj hstep
    exact hinv.invalidate hbound
  | repairOwner t routeId =>
    obtain ⟨-, rfl⟩ := Option.ite_some_none_eq_some.mp hstep
    exact hinv.repairOwner t routeId
  | restoreHint t =>
    obtain ⟨-, rfl⟩ := Option.ite_some_none_eq_some.mp hstep
    exact hinv.withHints rfl rfl
  -- these two switch the lane by themselves; what they leave current is the condition on the step
  | launch t routeId fallback ok =>
    obtain ⟨⟨hidle, -⟩, rfl⟩ := Option.ite_some_none_eq_some.mp hstep
    exact hinv.switchLane hidle (fun _ ↦ rfl) current_launchedStack hcond
  | libraryCall t routeId ok =>
    obtain ⟨⟨hidle, -⟩, rfl⟩ := Option.ite_some_none_eq_some.mp hstep
    exact hinv.switchLane hidle ContextDriver.current_setCurrent_self
      (fun _ context ↦ driver.current_setCurrent _ context) hcond
  | reopen routeId =>
    obtain ⟨-, rfl⟩ := Option.ite_some_none_eq_some.mp hstep
    exact hinv.reopen hbound routeId

end LaneInv

/-! ## Runs -/

/-- **What is remembered is current.** In a run whose steps all meet the condition, a thread that
waits for no answer leaves out the call that would make a context current only where the context is
current on its lane. -/
theorem lane_context_cache_sound (driver : ContextDriver) (steps : List ContextStep)
    (st : ContextState driver)
    (hrun : ((laneMachine driver).restrict LaneCond).run {} steps = some st)
    (t : ℕ) (hidle : st.Idle t) (routeId : ℤ) (context : Option ℕ)
    (hmatch : (st.threads t).cache.Matches st.epoch routeId context) :
    driver.current (st.lanes t routeId) = context := by
  have hinv : LaneInv st := by
    refine Machine.run_invariant _ ?_ LaneInv.init hrun
    intro st step st' hinv hstep
    obtain ⟨hcond, hstep⟩ := Machine.step_restrict.mp hstep
    exact hinv.step hcond hstep
  exact (hinv.threadInv_of_idle hidle).current_of_matches hmatch

/-- Two threads with a context each on route 0; the first one launches, moves to route 32, which has
the slot of route 0, and destroys its context there. -/
def laneRun : List ContextStep :=
  [.ctxCreate 0 0, .ctxCreate 1 0, .serve 1 true 7, .serve 0 true 5, .finish 0 true, .finish 1 true,
    .launch 0 0 0 true, .ctxCreate 0 32, .serve 0 true 6, .finish 0 true,
    .ctxDestroy 0 (some 6) 0, .serve 0 true 0, .finish 0 true, .serve 0 true 0, .finish 0 true,
    .setCurrent 0 (some 5) 0, .serve 0 true 0, .finish 0 true, .setCurrent 0 (some 5) 0]

theorem lane_context_cache_sound_laneRun :
    ∃ st, ((laneMachine stackDriver).restrict LaneCond).run {} laneRun = some st ∧
      (st.threads 0).cache.Matches st.epoch 0 (some 5) ∧
      stackDriver.current (st.lanes 0 0) = some 5 := by
  have hpossible : (((laneMachine stackDriver).restrict LaneCond).run {} laneRun).any fun st ↦
      st.Idle 0 ∧ (st.threads 0).cache.Matches st.epoch 0 (some 5) := by decide
  obtain ⟨st, hrun, hst⟩ := (Option.any_eq_true _ _).mp hpossible
  obtain ⟨hidle, hmatch⟩ := of_decide_eq_true hst
  exact ⟨st, hrun, hmatch, lane_context_cache_sound stackDriver laneRun st hrun 0 hidle 0 _ hmatch⟩

/-- **What is remembered and is not current.** Two contexts are created and the second is unbound:
the first is current, and the cache says that none is. A default hint is restored and a launch
carries it. A connection is opened again before `cuCtxCreate` stores its context. -/
theorem lane_context_cache_wrong :
    ((laneMachine stackDriver).run {} [.ctxCreate 0 0, .serve 0 true 5, .finish 0 true,
        .ctxCreate 0 0, .serve 0 true 6, .finish 0 true,
        .setCurrent 0 none 0, .serve 0 true 0, .finish 0 true]).any (fun st ↦
          st.Idle 0 ∧ (st.threads 0).cache.Matches st.epoch 0 none ∧
            stackDriver.current (st.lanes 0 0) = some 5) = true ∧
    ((laneMachine stackDriver).run {} [.ctxCreate 0 0, .serve 0 true 5, .finish 0 true,
        .setCurrent 0 none 0, .serve 0 true 0, .finish 0 true,
        .restoreHint 0, .launch 0 0 0 true]).any (fun st ↦
          st.Idle 0 ∧ (st.threads 0).cache.Matches st.epoch 0 none ∧
            stackDriver.current (st.lanes 0 0) = some 5) = true ∧
    ((laneMachine stackDriver).run {} [.ctxCreate 0 0, .serve 0 true 5, .reopen 0,
        .finish 0 true]).any (fun st ↦
          st.Idle 0 ∧ (st.threads 0).cache.Matches st.epoch 0 (some 5) ∧
            stackDriver.current (st.lanes 0 0) = none) = true := by
  decide

end Lupine
