import Lupine.Foundation.Levels
import Lupine.Routing.LaneContext

/-!
# The context stack of a client thread

The driver's stack of contexts is in the servers' lanes, one for each route; the client has a stack
of its own over contexts of all routes, and makes the one on top current where it lives. A push or a
pop changes the stack first, then makes the remote call, and repairs the stack when that fails.

## Finding the route

The remote call goes to the route that owns the context; `nullptr` goes where the current context
is. A context without a known owner takes the default route, and looking for that one is not without
effect: it tries the current context, the thread's default and the process's default, makes each
current on its route, and the first that can be is *adopted* as the current context of the client.

## What an error leaves behind

* A pop of the empty stack that fails puts `nullptr` on it, where nothing was taken off.
* A call that fails after its lookup has adopted a context leaves that one current.

All other failing calls leave the current context and the stack alone, and the client's contexts are
then `Levels`: entered by a push or a creation, left by a pop. Other threads change the table of
owners, the epoch of the cache and the process's default; they do so before a call and before the
answer of each attempt in it.
-/

open Foundation

namespace Lupine

/-! ## The state

A thread shares the owners, the epoch and the process's default with other threads. What those
change during a call comes with the call, as one change for each attempt. -/

/-- What the threads of the client share. -/
structure SharedContexts where
  /-- `lane_context_cache_epoch`. -/
  epoch : ℕ := 1
  /-- `lupine_owners` of contexts. -/
  owners : ℕ → Option ℤ := fun _ ↦ none
  /-- `lupine_global_default_context_hint`. -/
  globalHint : Option ℕ := none

/-- One thread, and what it shares. -/
structure ContextCaller where
  thread : ClientThread := {}
  shared : SharedContexts := {}

/-- An attempt to make a context current on a route, and what other threads change before it
ends. -/
structure SetAttempt where
  /-- `lupine_thread_conn_by_index` gives a connection. -/
  connected : Bool := true
  /-- `cuCtxSetCurrent` succeeds there. -/
  ok : Bool := true
  others : Option SharedContexts := none

/-- How the route of a call is found. -/
structure RouteLookup where
  /-- The route of the known owner has a connection. -/
  connected : Bool := true
  currentHint : SetAttempt := {}
  defaultHint : SetAttempt := {}
  globalHint : SetAttempt := {}
  /-- There is a connection of index 0. -/
  firstConnected : Bool := true
  /-- `lupine_local_cuda_available`. -/
  localAvailable : Bool := false

namespace ContextCaller

variable (caller : ContextCaller)

def meanwhile (others : Option SharedContexts) : ContextCaller :=
  { caller with shared := others.getD caller.shared }

/-- The stack is changed before the remote call. -/
def withStack (stack : List (Option ℕ)) : ContextCaller :=
  { caller with thread := { caller.thread with stack } }

/-- The client's contexts: the current one, and those of the stack. -/
def levels : Levels (Option ℕ) := ⟨caller.thread.current, caller.thread.stack⟩

/-! ## Routes

The functions return what they find together with the thread they leave, since finding a route can
adopt a context. -/

/-- `lupine_route_from_identity`, where `none` is a route that is not valid. -/
def routeFromIdentity (routeId : ℤ) (connected : Bool) : Option ℤ :=
  if routeId = -1 then some routeId
  else if 0 ≤ routeId ∧ connected = true then some routeId
  else none

/-- `lupine_route_for_known_owner`. -/
def routeForKnownOwner (context : Option ℕ) (connected : Bool) : Option ℤ :=
  (context.bind caller.shared.owners).bind fun routeId ↦ routeFromIdentity routeId connected

/-- The client remembers that the context is current on the route. -/
def Remembers (routeId : ℤ) (context : Option ℕ) : Prop :=
  caller.thread.cache.Matches caller.shared.epoch routeId context

instance (routeId : ℤ) (context : Option ℕ) : Decidable (caller.Remembers routeId context) :=
  inferInstanceAs (Decidable (LaneContextCache.Matches _ _ _ _))

/-- `lupine_set_current_context_on_route`. -/
def setCurrentContextOnRoute (route : Option ℤ) (context : Option ℕ) (attempt : SetAttempt) :
    ContextCaller × Bool :=
  match route with
  | none => (caller, false)
  | some routeId =>
    if routeId ≠ -1 ∧ caller.Remembers routeId context then (caller, true)
    else
      let answered := caller.meanwhile attempt.others
      let cache := caller.thread.cache.update answered.shared.epoch routeId context
        caller.shared.epoch attempt.ok
      ({ answered with thread := { caller.thread with cache } }, attempt.ok)

/-- `lupine_accept_current_context_hint`. -/
def acceptCurrentContextHint (context : Option ℕ) : ContextCaller :=
  { caller with thread := caller.thread.finishSet context true .acceptHint }

/-- `lupine_route_for_default_context_hint`. -/
def routeForDefaultContextHint (context : Option ℕ) (attempt : SetAttempt) :
    ContextCaller × Option ℤ :=
  match caller.routeForKnownOwner context attempt.connected with
  | none => (caller, none)
  | some routeId =>
    if caller.Remembers routeId context then
      (caller.acceptCurrentContextHint context, some routeId)
    else
      let (answered, ok) := caller.setCurrentContextOnRoute (some routeId) context attempt
      if ok then (answered.acceptCurrentContextHint context, some routeId) else (answered, none)

/-- `lupine_route_for_default`. -/
def routeForDefault (lookup : RouteLookup) : ContextCaller × Option ℤ :=
  let (caller₁, route₁) :=
    caller.routeForDefaultContextHint caller.thread.current lookup.currentHint
  if route₁.isSome then (caller₁, route₁)
  else
    let (caller₂, route₂) :=
      caller₁.routeForDefaultContextHint caller₁.thread.defaultHint lookup.defaultHint
    if route₂.isSome then (caller₂, route₂)
    else
      let (caller₃, route₃) :=
        caller₂.routeForDefaultContextHint caller₂.shared.globalHint lookup.globalHint
      if route₃.isSome then (caller₃, route₃)
      else if lookup.firstConnected then (caller₃, some 0)
      else (caller₃, if lookup.localAvailable then some (-1) else none)

/-- `lupine_route_for_context`. -/
def routeForContext (context : Option ℕ) (lookup : RouteLookup) : ContextCaller × Option ℤ :=
  match caller.routeForKnownOwner context lookup.connected with
  | some routeId => (caller, some routeId)
  | none => caller.routeForDefault lookup

/-- `lupine_set_remote_current_context`. -/
def setRemoteCurrentContext (context : Option ℕ) (lookup : RouteLookup) (attempt : SetAttempt) :
    ContextCaller × Bool :=
  let (found, route) := caller.routeForContext (context.or caller.thread.current) lookup
  found.setCurrentContextOnRoute route context attempt

end ContextCaller

/-! ## Calls

A push and a pop change the stack before the remote call, with the result of which `finishSet`
either goes on or repairs the stack. -/

/-- The calls; `nullptr` is `none`. -/
inductive ContextCall where
  /-- `cuCtxCreate_v2`, with the context that the driver creates and its route. -/
  | ctxCreate (created : Option (ℕ × ℤ))
  | pushCurrent (context : Option ℕ)
  | popCurrent
  | setCurrent (context : Option ℕ)

structure ContextAction where
  call : ContextCall
  /-- `lupine_cuda_is_initialized`. -/
  initialized : Bool := true
  /-- What other threads have changed since the last call. -/
  others : Option SharedContexts := none
  lookup : RouteLookup := {}
  /-- The attempt to make the context of the call current. -/
  attempt : SetAttempt := {}

/-- What a call returns, with what it writes through `pctx` where that is not null. -/
structure ContextReturn where
  caller : ContextCaller
  ok : Bool
  popped : Option (Option ℕ) := none

namespace ContextCaller

variable (caller : ContextCaller)

def finishSet (context : Option ℕ) (after : AfterSet) (ok : Bool) : ContextCaller where
  thread := caller.thread.finishSet context ok after
  shared :=
    if ok then { caller.shared with globalHint := context.or caller.shared.globalHint }
    else caller.shared

/-- `lupine_note_ctx_create_route`, and `lupine_note_ctx_create` for a connection. -/
def noteCtxCreate (context : ℕ) (routeId : ℤ) : ContextCaller where
  thread := caller.thread.noteCtxCreate caller.shared.epoch routeId context
  shared :=
    { caller.shared with
      owners :=
        if routeId < -1 then caller.shared.owners
        else Function.update caller.shared.owners context (some routeId)
      globalHint := some context }

/-- `cuCtxCreate_v2`, after the driver has answered. -/
def ctxCreate : Option (ℕ × ℤ) → ContextReturn
  | none => ⟨caller, false, none⟩
  | some (context, routeId) => ⟨caller.noteCtxCreate context routeId, true, none⟩

/-- `cuCtxPushCurrent_v2`. -/
def pushCurrent (context : Option ℕ) (lookup : RouteLookup) (attempt : SetAttempt) :
    ContextReturn :=
  let pushed := caller.withStack (caller.thread.current :: caller.thread.stack)
  let (answered, ok) := pushed.setRemoteCurrentContext context lookup attempt
  ⟨answered.finishSet context .pushCurrent ok, ok, none⟩

/-- `cuCtxPopCurrent_v2`. -/
def popCurrent (lookup : RouteLookup) (attempt : SetAttempt) : ContextReturn :=
  let previous := caller.thread.stack.headD none
  let popped := caller.withStack caller.thread.stack.tail
  let (answered, ok) := popped.setRemoteCurrentContext previous lookup attempt
  ⟨answered.finishSet previous .popCurrent ok, ok, some caller.thread.current⟩

/-- `cuCtxSetCurrent`. -/
def setCurrent (context : Option ℕ) (lookup : RouteLookup) (attempt : SetAttempt) :
    ContextReturn :=
  let (answered, ok) := caller.setRemoteCurrentContext context lookup attempt
  ⟨answered.finishSet context .setCurrent ok, ok, none⟩

def perform (action : ContextAction) : ContextReturn :=
  let now := caller.meanwhile action.others
  match action.call with
  | .ctxCreate created => now.ctxCreate created
  | .pushCurrent context =>
    if action.initialized then now.pushCurrent context action.lookup action.attempt
    else ⟨now, false, none⟩
  | .popCurrent =>
    if action.initialized then now.popCurrent action.lookup action.attempt
    else ⟨now, false, none⟩
  | .setCurrent context =>
    if action.initialized then now.setCurrent context action.lookup action.attempt
    else ⟨now, false, none⟩

def afterCalls (actions : List ContextAction) : ContextCaller :=
  actions.foldl (fun caller action ↦ (caller.perform action).caller) caller

end ContextCaller

def contextMachine : Machine ContextCaller ContextAction where
  step caller action := some (caller.perform action).caller

/-! ## What the calls are for

`Levels` has an entry for each context that is current or on the stack. What a call is for is stated
on the levels alone, and an error does nothing to them. -/

/-- What a call does to the levels when it returns; an error does nothing. -/
def ContextCall.effect : ContextCall → Bool → LevelStep (Option ℕ)
  | .ctxCreate (some (context, _)), true => .enter (some context)
  | .pushCurrent context, true => .enter context
  | .popCurrent, true => .leave
  | .setCurrent context, true => .replace context
  | _, _ => .keep

theorem ContextCall.effect_false (call : ContextCall) : call.effect false = .keep := by
  match call with
  | .ctxCreate none => rfl
  | .ctxCreate (some _) => rfl
  | .pushCurrent _ => rfl
  | .popCurrent => rfl
  | .setCurrent _ => rfl

namespace ContextCaller

variable (caller : ContextCaller)

/-- What the calls do to the levels, one after the other. -/
def effects (caller : ContextCaller) : List ContextAction → List (LevelStep (Option ℕ))
  | [] => []
  | action :: actions =>
    action.call.effect (caller.perform action).ok ::
      (caller.perform action).caller.effects actions

/-- An error leaves the current context and the stack as they were. -/
def ErrorKeeps (action : ContextAction) : Prop :=
  (caller.perform action).ok = false →
    (caller.perform action).caller.levels = caller.levels

/-- A push, balanced calls and a pop, where the push and the pop succeed: the contexts are those of
before the push, and the pop returns the context that was current, which is the one pushed unless
`cuCtxSetCurrent` has replaced it. -/
def PopRestores (push : ContextAction) (inner : List ContextAction) (pop : ContextAction) : Prop :=
  ∀ context, push.call = .pushCurrent context → pop.call = .popCurrent →
    (caller.perform push).ok = true →
    let entered := (caller.perform push).caller
    LevelStep.Balanced (entered.effects inner) →
    let left := (entered.afterCalls inner).perform pop
    left.ok = true →
      left.caller.levels = caller.levels ∧
        left.popped = some (entered.afterCalls inner).thread.current ∧
        (LevelStep.KeepsEntry 0 (entered.effects inner) → left.popped = some context)

/-- Both, at every place in a list of calls. -/
def StackKept (actions : List ContextAction) : Prop :=
  (∀ before action after, actions = before ++ action :: after →
    (caller.afterCalls before).ErrorKeeps action) ∧
  ∀ before push inner pop after, actions = before ++ push :: (inner ++ pop :: after) →
    (caller.afterCalls before).PopRestores push inner pop

/-! ## The condition

A call may fail, as long as its lookup adopts no context and it does not pop the empty stack. -/

/-- The context can be made current on the route: it is already, or the call there succeeds. -/
def CanSet (route : Option ℤ) (context : Option ℕ) (attempt : SetAttempt) : Prop :=
  ∃ routeId ∈ route, (routeId ≠ -1 ∧ caller.Remembers routeId context) ∨ attempt.ok = true

instance (route : Option ℤ) (context : Option ℕ) (attempt : SetAttempt) :
    Decidable (caller.CanSet route context attempt) :=
  inferInstanceAs (Decidable (∃ _ ∈ _, _))

/-- `lupine_set_remote_current_context` finds a route on which the context can be made current. -/
def CanSetRemote (context : Option ℕ) (lookup : RouteLookup) (attempt : SetAttempt) : Prop :=
  let (found, route) := caller.routeForContext (context.or caller.thread.current) lookup
  found.CanSet route context attempt

instance (context : Option ℕ) (lookup : RouteLookup) (attempt : SetAttempt) :
    Decidable (caller.CanSetRemote context lookup attempt) :=
  inferInstanceAs (Decidable (CanSet _ _ _ _))

/-- Finding the route of the context makes no other context current. -/
def AdoptsNone (context : Option ℕ) (lookup : RouteLookup) : Prop :=
  let found := (caller.routeForContext (context.or caller.thread.current) lookup).1
  found.thread.current = caller.thread.current

instance (context : Option ℕ) (lookup : RouteLookup) :
    Decidable (caller.AdoptsNone context lookup) :=
  inferInstanceAs (Decidable (_ = _))

/-- The call succeeds, or its lookup adopts no context and it is not a pop of the empty stack. -/
def StackCond (action : ContextAction) : Prop :=
  let now := caller.meanwhile action.others
  let thread := now.thread
  match action.call with
  | .ctxCreate _ => True
  | .pushCurrent context =>
    let pushed := now.withStack (thread.current :: thread.stack)
    action.initialized = true →
      pushed.CanSetRemote context action.lookup action.attempt ∨
        pushed.AdoptsNone context action.lookup
  | .popCurrent =>
    let previous := thread.stack.headD none
    let popped := now.withStack thread.stack.tail
    action.initialized = true →
      popped.CanSetRemote previous action.lookup action.attempt ∨
        popped.AdoptsNone previous action.lookup ∧ thread.stack ≠ []
  | .setCurrent context =>
    action.initialized = true →
      now.CanSetRemote context action.lookup action.attempt ∨ now.AdoptsNone context action.lookup

instance decidableStackCond : ∀ (caller : ContextCaller) (action : ContextAction),
    Decidable (caller.StackCond action)
  | _, ⟨.ctxCreate _, _, _, _, _⟩ => inferInstanceAs (Decidable True)
  | _, ⟨.pushCurrent _, _, _, _, _⟩ => inferInstanceAs (Decidable (_ → _ ∨ _))
  | _, ⟨.popCurrent, _, _, _, _⟩ => inferInstanceAs (Decidable (_ → _ ∨ _ ∧ _))
  | _, ⟨.setCurrent _, _, _, _, _⟩ => inferInstanceAs (Decidable (_ → _ ∨ _))

end ContextCaller

/-! ## Attempts and lookups

An attempt changes the cache and, when it succeeds, the current context. Nothing that looks for a
route touches the stack, and a hint that is tried is one that can become current. -/

namespace ContextCaller

variable (caller : ContextCaller)

/-- An attempt succeeds exactly when the context can be made current on the route. -/
theorem setCurrentContextOnRoute_ok (route : Option ℤ) (context : Option ℕ)
    (attempt : SetAttempt) :
    (caller.setCurrentContextOnRoute route context attempt).2 = true ↔
      caller.CanSet route context attempt := by
  match route with
  | none => simp [setCurrentContextOnRoute, CanSet]
  | some routeId =>
    by_cases hskip : routeId ≠ -1 ∧ caller.Remembers routeId context
    · simp [setCurrentContextOnRoute, CanSet, hskip]
    · simp [setCurrentContextOnRoute, CanSet, hskip]

/-- An attempt changes the cache, and nothing else of the thread. -/
theorem levels_setCurrentContextOnRoute (route : Option ℤ) (context : Option ℕ)
    (attempt : SetAttempt) :
    (caller.setCurrentContextOnRoute route context attempt).1.levels = caller.levels := by
  match route with
  | none => rfl
  | some routeId =>
    rw [setCurrentContextOnRoute]
    split_ifs with hskip
    · rfl
    · rfl

theorem below_routeForDefaultContextHint (context : Option ℕ) (attempt : SetAttempt) :
    (caller.routeForDefaultContextHint context attempt).1.levels.below = caller.levels.below := by
  rw [routeForDefaultContextHint]
  split
  next => rfl
  next routeId _ =>
    have hset := congrArg Levels.below
      (caller.levels_setCurrentContextOnRoute (some routeId) context attempt)
    split_ifs
    · rfl
    · dsimp only
      split_ifs
      · exact hset
      · exact hset

theorem below_routeForDefault (lookup : RouteLookup) :
    (caller.routeForDefault lookup).1.levels.below = caller.levels.below := by
  have hcurrent :=
    caller.below_routeForDefaultContextHint caller.thread.current lookup.currentHint
  rw [routeForDefault]
  generalize caller.routeForDefaultContextHint caller.thread.current lookup.currentHint = first
    at hcurrent ⊢
  obtain ⟨caller₁, route₁⟩ := first
  have hdefault :=
    caller₁.below_routeForDefaultContextHint caller₁.thread.defaultHint lookup.defaultHint
  dsimp only
  generalize caller₁.routeForDefaultContextHint caller₁.thread.defaultHint lookup.defaultHint =
    second at hdefault ⊢
  obtain ⟨caller₂, route₂⟩ := second
  have hglobal :=
    caller₂.below_routeForDefaultContextHint caller₂.shared.globalHint lookup.globalHint
  dsimp only
  generalize caller₂.routeForDefaultContextHint caller₂.shared.globalHint lookup.globalHint =
    third at hglobal ⊢
  have hall := hglobal.trans (hdefault.trans hcurrent)
  split_ifs
  · exact hcurrent
  · exact hdefault.trans hcurrent
  · exact hall
  · exact hall
  · exact hall
  · exact hall

theorem below_routeForContext (context : Option ℕ) (lookup : RouteLookup) :
    (caller.routeForContext context lookup).1.levels.below = caller.levels.below := by
  rw [routeForContext]
  split
  · rfl
  · exact caller.below_routeForDefault lookup

variable (context : Option ℕ) (lookup : RouteLookup) (attempt : SetAttempt)

theorem setRemoteCurrentContext_ok :
    (caller.setRemoteCurrentContext context lookup attempt).2 = true ↔
      caller.CanSetRemote context lookup attempt :=
  setCurrentContextOnRoute_ok _ _ _ _

theorem below_setRemoteCurrentContext :
    (caller.setRemoteCurrentContext context lookup attempt).1.levels.below =
      caller.levels.below :=
  (congrArg Levels.below (levels_setCurrentContextOnRoute _ _ _ _)).trans
    (caller.below_routeForContext _ lookup)

variable {caller context lookup attempt}

/-- **The remote call.** It leaves the stack alone, and the current context too where it fails and
its lookup has adopted none. -/
theorem setRemoteCurrentContext_cases
    (hcond : caller.CanSetRemote context lookup attempt ∨ caller.AdoptsNone context lookup) :
    ∃ answered ok, caller.setRemoteCurrentContext context lookup attempt = (answered, ok) ∧
      answered.thread.stack = caller.thread.stack ∧
      (ok = false → answered.thread.current = caller.thread.current) := by
  refine ⟨_, _, rfl, caller.below_setRemoteCurrentContext context lookup attempt, fun hfailed ↦ ?_⟩
  have hadopts : caller.AdoptsNone context lookup := by
    refine hcond.resolve_left fun hcan ↦ ?_
    exact Bool.false_ne_true
      (hfailed.symm.trans ((caller.setRemoteCurrentContext_ok context lookup attempt).mpr hcan))
  exact (congrArg Levels.top (levels_setCurrentContextOnRoute _ _ _ _)).trans hadopts

/-! ## Calls and levels

A creation and a push enter a level, a pop leaves one, and `cuCtxSetCurrent` replaces the entry on
top. Where the remote call fails each of them takes back what it has done. -/

theorem levels_ctxCreate (created : Option (ℕ × ℤ)) :
    (caller.ctxCreate created).caller.levels =
      caller.levels.after none
        ((ContextCall.ctxCreate created).effect (caller.ctxCreate created).ok) := by
  match created with
  | none => rfl
  | some (context, routeId) => rfl

theorem levels_pushCurrent
    (hcond : let pushed := caller.withStack (caller.thread.current :: caller.thread.stack)
      pushed.CanSetRemote context lookup attempt ∨ pushed.AdoptsNone context lookup) :
    (caller.pushCurrent context lookup attempt).caller.levels =
      caller.levels.after none ((ContextCall.pushCurrent context).effect
        (caller.pushCurrent context lookup attempt).ok) := by
  obtain ⟨answered, ok, hremote, hstack, hfailed⟩ := setRemoteCurrentContext_cases hcond
  rw [pushCurrent, hremote]
  cases ok with
  | true => exact Levels.ext rfl hstack
  | false => exact Levels.ext (hfailed rfl) (congrArg List.tail hstack)

theorem levels_popCurrent
    (hcond : let popped := caller.withStack caller.thread.stack.tail
      let previous := caller.thread.stack.headD none
      popped.CanSetRemote previous lookup attempt ∨
        popped.AdoptsNone previous lookup ∧ caller.thread.stack ≠ []) :
    (caller.popCurrent lookup attempt).caller.levels =
      caller.levels.after none
        (ContextCall.popCurrent.effect (caller.popCurrent lookup attempt).ok) := by
  obtain ⟨answered, ok, hremote, hstack, hfailed⟩ :=
    setRemoteCurrentContext_cases (hcond.imp_right And.left)
  have hok := (setRemoteCurrentContext_ok (caller.withStack caller.thread.stack.tail)
    (caller.thread.stack.headD none) lookup attempt)
  rw [hremote] at hok
  rw [popCurrent, hremote]
  cases ok with
  | true => exact Levels.ext rfl hstack
  | false =>
    -- what was on top of the stack is there again
    have hne : caller.thread.stack ≠ [] :=
      (hcond.resolve_left fun hcan ↦ nomatch hok.mpr hcan).2
    obtain ⟨entry, rest, heq⟩ := List.exists_cons_of_ne_nil hne
    have htop : caller.thread.stack.headD none :: answered.thread.stack = caller.thread.stack := by
      rw [hstack, withStack, heq]
      rfl
    exact Levels.ext (hfailed rfl) htop

theorem levels_setCurrent
    (hcond : caller.CanSetRemote context lookup attempt ∨ caller.AdoptsNone context lookup) :
    (caller.setCurrent context lookup attempt).caller.levels =
      caller.levels.after none ((ContextCall.setCurrent context).effect
        (caller.setCurrent context lookup attempt).ok) := by
  obtain ⟨answered, ok, hremote, hstack, hfailed⟩ := setRemoteCurrentContext_cases hcond
  rw [setCurrent, hremote]
  cases ok with
  | true => exact Levels.ext rfl hstack
  | false => exact Levels.ext (hfailed rfl) hstack

/-- **One call.** A call that meets the condition does to the client's contexts what it is for. -/
theorem levels_perform {action : ContextAction} (hcond : caller.StackCond action) :
    (caller.perform action).caller.levels =
      caller.levels.after none (action.call.effect (caller.perform action).ok) := by
  obtain ⟨call, initialized, others, lookup, attempt⟩ := action
  -- a call before `cuInit` does nothing
  match call, initialized with
  | .ctxCreate created, _ => exact (caller.meanwhile others).levels_ctxCreate created
  | .pushCurrent context, true => exact levels_pushCurrent (hcond rfl)
  | .pushCurrent context, false => rfl
  | .popCurrent, true => exact levels_popCurrent (hcond rfl)
  | .popCurrent, false => rfl
  | .setCurrent context, true => exact levels_setCurrent (hcond rfl)
  | .setCurrent context, false => rfl

/-- A pop that succeeds returns the context that was current. -/
theorem popped_perform {action : ContextAction} (hcall : action.call = .popCurrent)
    (hok : (caller.perform action).ok = true) :
    (caller.perform action).popped = some caller.thread.current := by
  obtain ⟨call, initialized, others, lookup, attempt⟩ := action
  obtain rfl : call = .popCurrent := hcall
  match initialized with
  | true => rfl
  | false => exact nomatch hok

/-! ## Runs

The condition is exact: a failing call that leaves the contexts as they were meets it. A level that
a push has entered is left again by the pop that follows balanced calls, with its entry. -/

theorem levels_afterCalls {actions : List ContextAction} {last : ContextCaller}
    (hrun : (contextMachine.restrict StackCond).run caller actions = some last) :
    last = caller.afterCalls actions ∧
      last.levels = caller.levels.afterAll none (caller.effects actions) := by
  induction actions generalizing caller with
  | nil =>
    obtain rfl := Option.some.inj hrun
    exact ⟨rfl, rfl⟩
  | cons action actions ih =>
    rw [Machine.run_cons] at hrun
    obtain ⟨next, hstep, hrun⟩ := Option.bind_eq_some_iff.mp hrun
    obtain ⟨hcond, hnext⟩ := Machine.step_restrict.mp hstep
    obtain rfl : (caller.perform action).caller = next := Option.some.inj hnext
    obtain ⟨hlast, hlevels⟩ := ih hrun
    refine ⟨hlast, hlevels.trans ?_⟩
    rw [levels_perform hcond]
    rfl

theorem run_at {before after : List ContextAction} {action : ContextAction} {last : ContextCaller}
    (hrun : (contextMachine.restrict StackCond).run caller (before ++ action :: after) =
      some last) :
    (caller.afterCalls before).StackCond action ∧
      (contextMachine.restrict StackCond).run
        ((caller.afterCalls before).perform action).caller after = some last := by
  rw [Machine.run_append] at hrun
  obtain ⟨there, hbefore, hrun⟩ := Option.bind_eq_some_iff.mp hrun
  obtain ⟨rfl, -⟩ := levels_afterCalls hbefore
  rw [Machine.run_cons] at hrun
  obtain ⟨next, hstep, hrun⟩ := Option.bind_eq_some_iff.mp hrun
  obtain ⟨hcond, hnext⟩ := Machine.step_restrict.mp hstep
  obtain rfl := Option.some.inj hnext
  exact ⟨hcond, hrun⟩

theorem errorKeeps {action : ContextAction} (hcond : caller.StackCond action) :
    caller.ErrorKeeps action := by
  intro hfailed
  have hlevels := levels_perform hcond
  rwa [hfailed, ContextCall.effect_false] at hlevels

theorem canSetRemote_or_failed (caller : ContextCaller) (context : Option ℕ) (lookup : RouteLookup)
    (attempt : SetAttempt) :
    caller.CanSetRemote context lookup attempt ∨
      ∃ answered, caller.setRemoteCurrentContext context lookup attempt = (answered, false) ∧
        (answered.thread.current = caller.thread.current → caller.AdoptsNone context lookup) := by
  rw [← setRemoteCurrentContext_ok]
  refine (Classical.em _).imp_right fun hfailed ↦ ⟨_, Prod.ext rfl (by simpa using hfailed), ?_⟩
  intro hcurrent
  exact (congrArg Levels.top (levels_setCurrentContextOnRoute _ _ _ _)).symm.trans hcurrent

/-- The condition is exact: an error that leaves the contexts as they were is none of the two. -/
theorem stackCond_of_errorKeeps {action : ContextAction} (hkeeps : caller.ErrorKeeps action) :
    caller.StackCond action := by
  obtain ⟨call, initialized, others, lookup, attempt⟩ := action
  match call with
  | .ctxCreate created => exact trivial
  | .pushCurrent context =>
    rintro rfl
    refine (canSetRemote_or_failed _ context lookup attempt).imp_right ?_
    rintro ⟨answered, hremote, hadopts⟩
    simp only [ErrorKeeps, perform, pushCurrent, hremote, if_true, forall_const] at hkeeps
    exact hadopts (congrArg Levels.top hkeeps)
  | .setCurrent context =>
    rintro rfl
    refine (canSetRemote_or_failed _ context lookup attempt).imp_right ?_
    rintro ⟨answered, hremote, hadopts⟩
    simp only [ErrorKeeps, perform, setCurrent, hremote, if_true, forall_const] at hkeeps
    exact hadopts (congrArg Levels.top hkeeps)
  | .popCurrent =>
    rintro rfl
    refine (canSetRemote_or_failed _ _ lookup attempt).imp_right ?_
    rintro ⟨answered, hremote, hadopts⟩
    simp only [ErrorKeeps, perform, popCurrent, hremote, if_true, forall_const] at hkeeps
    refine ⟨hadopts (congrArg Levels.top hkeeps), fun hempty ↦ ?_⟩
    -- the stack it leaves is not empty
    exact List.cons_ne_nil _ _ ((congrArg Levels.below hkeeps).trans hempty)

theorem popRestores {push pop : ContextAction} {inner after : List ContextAction}
    {last : ContextCaller} (hpush : caller.StackCond push)
    (hrun : (contextMachine.restrict StackCond).run (caller.perform push).caller
      (inner ++ pop :: after) = some last) :
    caller.PopRestores push inner pop := by
  intro context hpushCall hpopCall hpushed entered hbalanced left hleft
  have hentered : entered.levels = caller.levels.after none (.enter context) := by
    have hlevels := levels_perform hpush
    rwa [hpushed, hpushCall] at hlevels
  have hinner : (entered.afterCalls inner).levels =
      entered.levels.afterAll none (entered.effects inner) := by
    rw [Machine.run_append] at hrun
    obtain ⟨there, hinner, -⟩ := Option.bind_eq_some_iff.mp hrun
    obtain ⟨rfl, hlevels⟩ := levels_afterCalls hinner
    exact hlevels
  have hpopped := popped_perform hpopCall hleft
  refine ⟨?_, hpopped, fun hkeeps ↦ hpopped.trans (congrArg some ?_)⟩
  · have hlevels := levels_perform (run_at hrun).1
    rw [hleft, hpopCall, hinner, hentered] at hlevels
    exact hlevels.trans (Levels.after_leave_of_balanced hbalanced)
  · have htop : (entered.levels.afterAll none (entered.effects inner)).top =
        entered.levels.top := (Levels.afterAll_balanced hbalanced).2 hkeeps
    rw [← hinner, hentered] at htop
    exact htop

end ContextCaller

/-- **The context stack.** In a run whose calls all meet the condition, an error leaves the current
context and the stack as they were, and a push is undone by the pop that follows balanced calls. -/
theorem contextStack_kept (caller : ContextCaller) (actions : List ContextAction)
    (last : ContextCaller)
    (hrun : (contextMachine.restrict ContextCaller.StackCond).run caller actions = some last) :
    caller.StackKept actions := by
  refine ⟨fun before action after heq ↦ ?_, fun before push inner pop after heq ↦ ?_⟩
  · subst heq
    exact ContextCaller.errorKeeps (ContextCaller.run_at hrun).1
  · subst heq
    obtain ⟨hpush, hinner⟩ := ContextCaller.run_at hrun
    exact ContextCaller.popRestores hpush hinner

/-- Two contexts on two servers; one is pushed over the other, and a call fails at each level. -/
def nestedCalls : List ContextAction :=
  [{ call := .ctxCreate (some (5, 0)) }, { call := .ctxCreate (some (6, 1)) },
    { call := .pushCurrent (some 5) }, { call := .setCurrent (some 6), attempt := { ok := false } },
    { call := .pushCurrent (some 6) }, { call := .popCurrent, lookup := { connected := false } },
    { call := .setCurrent (some 5) }, { call := .popCurrent }, { call := .popCurrent }]

theorem contextStack_kept_nestedCalls : ContextCaller.StackKept {} nestedCalls := by
  have hpossible :
      ((contextMachine.restrict ContextCaller.StackCond).run {} nestedCalls).isSome := by decide
  obtain ⟨last, hrun⟩ := Option.isSome_iff_exists.mp hpossible
  exact contextStack_kept {} nestedCalls last hrun

/-- **What an error leaves behind.** A thread without a context pops, and the remote call fails:
there is a `nullptr` on its stack. A thread without a context makes one current that is no longer
known, while another thread's is the default of the process: the call fails, and the other thread's
context is current. -/
theorem contextStack_not_kept :
    ¬ContextCaller.StackKept {} [{ call := .popCurrent, attempt := { ok := false } }] ∧
      ¬ContextCaller.StackKept {}
        [{ call := .setCurrent (some 9), attempt := { ok := false }
           others := some
            { owners := Function.update (fun _ ↦ none) 7 (some 0), globalHint := some 7 } }] := by
  refine ⟨fun hkept ↦ ?_, fun hkept ↦ ?_⟩
  · exact absurd (hkept.1 [] _ [] rfl rfl) (by decide)
  · exact absurd (hkept.1 [] _ [] rfl rfl) (by decide)

end Lupine
