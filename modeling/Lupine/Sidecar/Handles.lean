import Lupine.Foundation.Machine
import Mathlib.Data.List.Nodup
import Mathlib.Tactic.Common

/-!
# The handles of the sidecar

A `SidecarTensor` stands for a tensor of a worker by a number, its handle, and keeps the session
that it came from. Every worker counts its handles from one. A request sends the numbers of its
tensors to the worker that the session of the request has now; the dispatch mode gives every tensor
to its own session, wherever the tensor came from. A tensor that is collected leaves its handle with
its session, and the next request of that session releases it.

## What a handle is for

A session object may be entered again after it was closed, and gets another worker. The model gives
every worker a number that is never used again, so that worker and handle together tell which tensor
is meant; the code has the handle alone.

## Who stands for what

The invariant is that no two `SidecarTensor`s stand for the same tensor of a worker, that the
arguments of a request that is going on are tensors of the last worker of its session, and that what
waits to be released was collected. A worker counts its handles up, so what it stores is new.
-/

open Foundation

namespace Lupine

/-- A `SidecarTensor`, with the worker that returned its handle. -/
structure SidecarTensor where
  session : ℕ
  worker : ℕ
  handle : ℕ
  deriving DecidableEq, Repr

def SidecarTensor.key (x : SidecarTensor) : ℕ × ℕ := (x.worker, x.handle)

/-- A `SidecarSession`. -/
structure SidecarSession where
  /-- `_proc`. -/
  proc : Option ℕ := none
  /-- The last worker that was started. -/
  latest : Option ℕ := none
  /-- `_pending_release`, the newest first; the worker is not written down. -/
  pending : List (ℕ × ℕ) := []
  deriving DecidableEq, Repr

/-- Where a thread is with a request. Its arguments stay alive until it is over. -/
inductive RequestPhase where
  | idle
  /-- In `_flush_released`, with the handles that were popped. -/
  | flushing (session : ℕ) (args : List SidecarTensor) (popped : List (ℕ × ℕ))
  | ready (session : ℕ) (args : List SidecarTensor)
  deriving DecidableEq, Repr

/-- What a worker has done: an operation on the tensors of its handles, or the release of a tensor,
with the `SidecarTensor`s that stood for it. -/
inductive WorkerEvent where
  | operated (worker : ℕ) (args : List SidecarTensor)
  | released (worker handle : ℕ) (held : List SidecarTensor)
  deriving DecidableEq, Repr

/-- The client, its sessions and their workers. -/
structure SidecarClient (threads : ℕ) where
  /-- `_ACTIVE_SESSION`. -/
  active : Option ℕ := none
  sessions : ℕ → SidecarSession := fun _ ↦ {}
  nextWorker : ℕ := 0
  /-- `next_handle` of every worker. -/
  nextHandle : ℕ → ℕ := fun _ ↦ 1
  /-- `objects` of every worker. -/
  objects : List (ℕ × ℕ) := []
  /-- The tensors that are not collected. -/
  live : List SidecarTensor := []
  /-- What the collected ones stood for. -/
  collected : List (ℕ × ℕ) := []
  phase : Fin threads → RequestPhase := fun _ ↦ .idle
  events : List WorkerEvent := []

inductive SidecarStep (threads : ℕ) where
  | enter (session : ℕ) (ok : Bool)
  | close (session : ℕ)
  | request (t : Fin threads) (session : ℕ) (args : List SidecarTensor)
  | popReleased (t : Fin threads)
  | sendReleased (t : Fin threads)
  | send (t : Fin threads) (results : ℕ) (wrapped : Bool)
  | transportFails (t : Fin threads)
  | collect (x : SidecarTensor)
  deriving DecidableEq

namespace RequestPhase

def session? : RequestPhase → Option ℕ
  | idle => none
  | flushing session .. | ready session _ => some session

def args : RequestPhase → List SidecarTensor
  | idle => []
  | flushing _ args _ | ready _ args => args

end RequestPhase

namespace SidecarClient

variable {threads : ℕ} (st : SidecarClient threads)

def setSession (s : ℕ) (session : SidecarSession) : SidecarClient threads :=
  { st with sessions := Function.update st.sessions s session }

def goto (t : Fin threads) (x : RequestPhase) : SidecarClient threads :=
  { st with phase := Function.update st.phase t x }

/-- The tensors of a worker are compared by worker and handle. -/
local instance lawfulBEqObject : LawfulBEq (ℕ × ℕ) := inferInstance

/-- `release`, in a worker: only the handles are sent. -/
def release (worker : ℕ) : SidecarClient threads → List (ℕ × ℕ) → SidecarClient threads
  | st, [] => st
  | st, k :: keys =>
    let st' :=
      if (worker, k.2) ∈ st.objects then
        { st with
          objects := st.objects.filter fun o ↦ o ≠ (worker, k.2)
          events := .released worker k.2 (st.live.filter fun x ↦ x.key = (worker, k.2))
            :: st.events }
      else st
    release worker st' keys

/-- `__enter__`: the ping of the new worker sends what was left to release first. -/
def enter (s : ℕ) (ok : Bool) : Option (SidecarClient threads) :=
  if st.active = none then
    let started := { st with
      nextWorker := st.nextWorker + 1
      active := if ok then some s else none }
    some (release st.nextWorker
      (started.setSession s ⟨if ok then some st.nextWorker else none, some st.nextWorker, []⟩)
      (st.sessions s).pending)
  else none

/-- `close`. -/
def close (s : ℕ) : SidecarClient threads :=
  { st.setSession s { st.sessions s with proc := none } with
    active := if st.active = some s then none else st.active }

/-- `forward`, of the active session or of the session of the first tensor, up to the encoding of
the arguments. -/
def request (t : Fin threads) (s : ℕ) (args : List SidecarTensor) :
    Option (SidecarClient threads) :=
  if st.phase t = .idle ∧ (∀ x ∈ args, x ∈ st.live) ∧
      (st.active = some s ∨ args.head?.map SidecarTensor.session = some s) then
    some (st.goto t (.flushing s args []))
  else none

/-- A round of the loop of `_flush_released`. -/
def popReleased (t : Fin threads) : Option (SidecarClient threads) :=
  match st.phase t with
  | .flushing s args popped =>
    match (st.sessions s).pending with
    | k :: keys =>
      some ((st.setSession s { st.sessions s with pending := keys }).goto t
        (.flushing s args (k :: popped)))
    | [] => none
  | _ => none

/-- The end of `_flush_released`. -/
def sendReleased (t : Fin threads) : Option (SidecarClient threads) :=
  match st.phase t with
  | .flushing s args popped =>
    if (st.sessions s).pending = [] then
      match (st.sessions s).proc with
      | some worker => some (release worker (st.goto t (.ready s args)) popped)
      | none => some (st.goto t (.ready s args))
    else none
  | _ => none

/-- A worker stores so many tensors, and the session wraps them, unless the response is an error. -/
def store (s worker results : ℕ) (wrapped : Bool) : SidecarClient threads :=
  let handles := (List.range results).map (st.nextHandle worker + ·)
  { st with
    nextHandle := Function.update st.nextHandle worker (st.nextHandle worker + results)
    objects := handles.map (worker, ·) ++ st.objects
    live := (if wrapped then handles.map (⟨s, worker, ·⟩) else []) ++ st.live }

/-- `_send` and the turn of the worker, which fails if it does not have a handle, and else stores so
many tensors. -/
def send (t : Fin threads) (results : ℕ) (wrapped : Bool) : Option (SidecarClient threads) :=
  match st.phase t with
  | .ready s args =>
    match (st.sessions s).proc with
    | some worker =>
      if ∀ x ∈ args, (worker, x.handle) ∈ st.objects then
        some { (st.goto t .idle).store s worker results wrapped with
          events := .operated worker args :: st.events }
      else some (st.goto t .idle)
    | none => some (st.goto t .idle)
  | _ => none

/-- The transport fails, and the client terminates the worker. -/
def transportFails (t : Fin threads) : Option (SidecarClient threads) :=
  match st.phase t with
  | .ready s _ =>
    some ((st.setSession s { st.sessions s with proc := none }).goto t .idle)
  | _ => none

/-- The finalizer of a tensor that no request holds. -/
def collect (x : SidecarTensor) : Option (SidecarClient threads) :=
  if x ∈ st.live ∧ ∀ t, x ∉ (st.phase t).args then
    some { st.setSession x.session { st.sessions x.session with
        pending := x.key :: (st.sessions x.session).pending } with
      live := st.live.erase x
      collected := x.key :: st.collected }
  else none

def step : SidecarStep threads → Option (SidecarClient threads)
  | .enter s ok => st.enter s ok
  | .close s => some (st.close s)
  | .request t s args => st.request t s args
  | .popReleased t => st.popReleased t
  | .sendReleased t => st.sendReleased t
  | .send t results wrapped => st.send t results wrapped
  | .transportFails t => st.transportFails t
  | .collect x => st.collect x

end SidecarClient

def sidecarClient (threads : ℕ) : Machine (SidecarClient threads) (SidecarStep threads) where
  step := SidecarClient.step

/-! ## What is right

The events of the workers are recorded with the tensors that were meant, so that right is a
statement about the record. -/

/-- An operation was done on the tensors that were meant, and nothing was released that a tensor
still stands for. -/
def WorkerEvent.Right : WorkerEvent → Prop
  | operated worker args => ∀ x ∈ args, x.worker = worker
  | released _ _ held => held = []

instance WorkerEvent.decidableRight : ∀ event : WorkerEvent, Decidable event.Right
  | .operated .. => inferInstanceAs (Decidable (∀ _ ∈ _, _))
  | .released .. => inferInstanceAs (Decidable (_ = _))

/-- A tensor is given to its own session and not used or collected after the session is entered
again, and a session is not entered while a request of it is going on. -/
def SidecarStep.Timely {threads : ℕ} (st : SidecarClient threads) : SidecarStep threads → Prop
  | enter s _ => ∀ t, (st.phase t).session? ≠ some s
  | request _ s args => ∀ x ∈ args, x.session = s ∧ (st.sessions s).latest = some x.worker
  | collect x => (st.sessions x.session).latest = some x.worker
  | _ => True

instance SidecarStep.decidableTimely {threads : ℕ} (st : SidecarClient threads) :
    ∀ step : SidecarStep threads, Decidable (step.Timely st)
  | .enter .. => inferInstanceAs (Decidable (∀ _, _))
  | .request .. => inferInstanceAs (Decidable (∀ _ ∈ _, _))
  | .collect _ => inferInstanceAs (Decidable (_ = _))
  | .close _ | .popReleased _ | .sendReleased _ | .send .. | .transportFails _ =>
    inferInstanceAs (Decidable True)

/-! ## The invariant

A session changes alone. What is known of the others, and of the tensors, stays. -/

namespace SidecarClient

variable {threads : ℕ} {st st' : SidecarClient threads} {t : Fin threads} {s : ℕ}

/-- The arguments of a request are alive and are tensors of the last worker of its session. -/
def Holds (st : SidecarClient threads) (s : ℕ) (args : List SidecarTensor) : Prop :=
  ∀ x ∈ args, x ∈ st.live ∧ x.session = s ∧ (st.sessions s).latest = some x.worker

/-- Handles to be released stand for collected tensors of the last worker of their session. -/
def Owes (st : SidecarClient threads) (s : ℕ) (keys : List (ℕ × ℕ)) : Prop :=
  ∀ k ∈ keys, k ∈ st.collected ∧ (st.sessions s).latest = some k.1

/-- No two tensors stand for the same, and what is collected stays collected. -/
structure Sound (st : SidecarClient threads) : Prop where
  latest : ∀ s worker, (st.sessions s).proc = some worker →
    (st.sessions s).latest = some worker
  started : ∀ s worker, (st.sessions s).latest = some worker → worker < st.nextWorker
  objects : ∀ o ∈ st.objects, o.1 < st.nextWorker
  keys : (st.live.map SidecarTensor.key).Nodup
  live : ∀ x ∈ st.live, x.key ∉ st.collected ∧ x.handle < st.nextHandle x.worker
  gone : ∀ k ∈ st.collected, k.2 < st.nextHandle k.1
  pending : ∀ s, st.Owes s (st.sessions s).pending
  requests : ∀ t s, (st.phase t).session? = some s → st.Holds s (st.phase t).args
  popped : ∀ t s args popped, st.phase t = .flushing s args popped → st.Owes s popped
  events : ∀ event ∈ st.events, event.Right

theorem release_frame (worker : ℕ) (keys : List (ℕ × ℕ)) (st : SidecarClient threads) :
    ∃ objects events, release worker st keys = { st with objects, events } ∧
      ∀ o ∈ objects, o ∈ st.objects := by
  induction keys generalizing st with
  | nil => exact ⟨st.objects, st.events, rfl, fun _ ↦ id⟩
  | cons k keys ih =>
    rw [release]
    split_ifs
    · obtain ⟨objects, events, h, hsub⟩ := ih _
      exact ⟨objects, events, h, fun o ho ↦ (List.mem_filter.mp (hsub o ho)).1⟩
    · exact ih st

/-- A release of what no tensor stands for is right. -/
theorem release_events {worker : ℕ} {keys : List (ℕ × ℕ)} (hevents : ∀ e ∈ st.events, e.Right)
    (hfree : ∀ k ∈ keys, (worker, k.2) ∈ st.objects → ∀ x ∈ st.live, x.key ≠ (worker, k.2)) :
    ∀ e ∈ (release worker st keys).events, e.Right := by
  induction keys generalizing st with
  | nil => exact hevents
  | cons k keys ih =>
    obtain ⟨hk, hkeys⟩ := List.forall_mem_cons.mp hfree
    rw [release]
    split_ifs with hmem
    · refine ih ?_ fun k' hk' ho ↦ hkeys k' hk' (List.mem_filter.mp ho).1
      intro e he
      rcases List.mem_cons.mp he with rfl | he
      · refine List.filter_eq_nil_iff.mpr fun x hx ↦ ?_
        rw [decide_eq_true_eq]
        exact hk hmem x hx
      · exact hevents e he
    · exact ih hevents hkeys

theorem Sound.release (h : st.Sound) {worker : ℕ} {keys : List (ℕ × ℕ)}
    (hfree : ∀ k ∈ keys, (worker, k.2) ∈ st.objects → ∀ x ∈ st.live, x.key ≠ (worker, k.2)) :
    (SidecarClient.release worker st keys).Sound := by
  have hevents := release_events h.events hfree
  obtain ⟨objects, events, heq, hsub⟩ := release_frame worker keys st
  rw [heq] at hevents ⊢
  exact ⟨h.latest, h.started, fun o ho ↦ h.objects o (hsub o ho), h.keys, h.live, h.gone, h.pending,
    h.requests, h.popped, hevents⟩

theorem sessions_setSession {s s' : ℕ} {session : SidecarSession} :
    (st.setSession s session).sessions s' = if s' = s then session else st.sessions s' :=
  Function.update_apply ..

theorem Sound.setSession (h : st.Sound) (session : SidecarSession)
    (hlatest : session.latest = (st.sessions s).latest)
    (hproc : session.proc = (st.sessions s).proc ∨ session.proc = none)
    (hpending : st.Owes s session.pending) : (st.setSession s session).Sound := by
  have hsame : ∀ s', ((st.setSession s session).sessions s').latest = (st.sessions s').latest := by
    intro s'
    rw [sessions_setSession]
    split_ifs with hs
    · rw [hlatest, hs]
    · rfl
  refine ⟨?_, ?_, h.objects, h.keys, h.live, h.gone, ?_, ?_, ?_, h.events⟩
  · intro s' worker hworker
    rw [hsame]
    rw [sessions_setSession] at hworker
    split_ifs at hworker with hs
    · rcases hproc with hproc | hproc
      · exact hs ▸ h.latest s worker (hproc ▸ hworker)
      · exact (nomatch hproc.symm.trans hworker)
    · exact h.latest s' worker hworker
  · exact fun s' worker hworker ↦ h.started s' worker (hsame s' ▸ hworker)
  · intro s' k hk
    rw [hsame]
    rw [sessions_setSession] at hk
    split_ifs at hk with hs
    · exact hs ▸ hpending k hk
    · exact h.pending s' k hk
  · intro t s' hs' x hx
    rw [hsame]
    exact h.requests t s' hs' x hx
  · intro t s' args popped ht k hk
    rw [hsame]
    exact h.popped t s' args popped ht k hk

theorem Sound.goto (h : st.Sound) {x : RequestPhase}
    (hrequests : ∀ s, x.session? = some s → st.Holds s x.args)
    (hpopped : ∀ s args popped, x = .flushing s args popped → st.Owes s popped) :
    (st.goto t x).Sound := by
  refine ⟨h.latest, h.started, h.objects, h.keys, h.live, h.gone, h.pending, ?_, ?_, h.events⟩
  · intro u s hu
    by_cases hut : u = t
    · subst hut
      rw [SidecarClient.goto] at hu ⊢
      simp only [Function.update_self] at hu ⊢
      exact hrequests s hu
    · rw [SidecarClient.goto] at hu ⊢
      simp only [Function.update_of_ne hut] at hu ⊢
      exact h.requests u s hu
  · intro u s args popped hu
    rcases eq_or_of_update hu with ⟨rfl, hx⟩ | ⟨-, hold⟩
    · exact hpopped s args popped hx
    · exact h.popped u s args popped hold

/-! ### Steps

An operation and a release go to the worker that the session has at the time, which under the
condition is the one the tensors came from. -/

theorem Sound.startWorker (h : st.Sound) (hidle : ∀ t, (st.phase t).session? ≠ some s)
    (active : Option ℕ) (ok : Bool) :
    ({ st with nextWorker := st.nextWorker + 1, active }.setSession s
      ⟨if ok then some st.nextWorker else none, some st.nextWorker, []⟩).Sound := by
  -- the other sessions keep their workers and what they have queued
  have hother : ∀ {s' : ℕ}, s' ≠ s →
      (({ st with nextWorker := st.nextWorker + 1, active }.setSession s
        ⟨if ok then some st.nextWorker else none, some st.nextWorker, []⟩).sessions s')
        = st.sessions s' := fun hne ↦ Function.update_of_ne hne ..
  have hself : (({ st with nextWorker := st.nextWorker + 1, active }.setSession
      s ⟨if ok then some st.nextWorker else none, some st.nextWorker, []⟩).sessions s)
        = ⟨if ok then some st.nextWorker else none, some st.nextWorker, []⟩ :=
    Function.update_self ..
  refine ⟨?_, ?_, fun o ho ↦ Nat.lt_succ_of_lt (h.objects o ho), h.keys, h.live, h.gone,
    ?_, ?_, ?_, h.events⟩
  · intro s' worker hworker
    rcases eq_or_ne s' s with rfl | hne
    · rw [hself] at hworker ⊢
      simp only at hworker
      split_ifs at hworker
      exact hworker
    · rw [hother hne] at hworker ⊢
      exact h.latest s' worker hworker
  · intro s' worker hworker
    rcases eq_or_ne s' s with rfl | hne
    · rw [hself] at hworker
      exact Option.some.inj hworker ▸ Nat.lt_succ_self _
    · rw [hother hne] at hworker
      exact Nat.lt_succ_of_lt (h.started s' worker hworker)
  -- frees that were queued go with the worker that they were for
  · intro s' k hk
    rcases eq_or_ne s' s with rfl | hne
    · rw [hself] at hk
      exact (nomatch hk)
    · rw [hother hne] at hk ⊢
      exact h.pending s' k hk
  · intro t s' ht x hx
    -- no request of this session is under way
    have hne : s' ≠ s := fun hs ↦ hidle t (hs ▸ ht)
    rw [hother hne]
    exact h.requests t s' ht x hx
  · intro t s' args popped ht k hk
    have hne : s' ≠ s := fun hs ↦ hidle t (hs ▸ congrArg RequestPhase.session? ht)
    rw [hother hne]
    exact h.popped t s' args popped ht k hk

theorem Sound.enter (h : st.Sound) {ok : Bool} (hidle : ∀ t, (st.phase t).session? ≠ some s)
    (hstep : st.enter s ok = some st') : st'.Sound := by
  by_cases hnone : st.active = none
  · rw [SidecarClient.enter, if_pos hnone] at hstep
    obtain rfl := Option.some.inj hstep
    refine (h.startWorker hidle (if ok then some s else none) ok).release fun k _ hobject ↦ ?_
    exact absurd (h.objects _ hobject) (Nat.lt_irrefl _)
  · rw [SidecarClient.enter, if_neg hnone] at hstep
    exact (nomatch hstep)

theorem Sound.close (h : st.Sound) (s : ℕ) : (st.close s).Sound := by
  have hset := h.setSession { st.sessions s with proc := none } rfl (Or.inr rfl)
    (h.pending s)
  exact ⟨hset.latest, hset.started, hset.objects, hset.keys, hset.live, hset.gone, hset.pending,
    hset.requests, hset.popped, hset.events⟩

theorem Sound.request (h : st.Sound) {args : List SidecarTensor}
    (hown : ∀ x ∈ args, x.session = s ∧ (st.sessions s).latest = some x.worker)
    (hstep : st.request t s args = some st') : st'.Sound := by
  rw [SidecarClient.request] at hstep
  split_ifs at hstep with hgoes
  obtain rfl := Option.some.inj hstep
  refine h.goto ?_ ?_
  · rintro _ ⟨⟩ x hx
    exact ⟨hgoes.2.1 x hx, hown x hx⟩
  · rintro _ _ _ ⟨⟩ k hk
    exact (nomatch hk)

theorem Sound.popReleased (h : st.Sound) (hstep : st.popReleased t = some st') : st'.Sound := by
  rw [SidecarClient.popReleased] at hstep
  split at hstep
  · next s args popped hphase =>
    split at hstep
    · next k keys hpending =>
      obtain rfl := Option.some.inj hstep
      have howes := h.pending s
      rw [hpending] at howes
      obtain ⟨hk, hkeys⟩ := List.forall_mem_cons.mp howes
      have hset := h.setSession { st.sessions s with pending := keys } rfl (Or.inl rfl)
        hkeys
      have hlatest : ((st.setSession s { st.sessions s with pending := keys }).sessions s).latest
          = (st.sessions s).latest := by
        rw [sessions_setSession, if_pos rfl]
      refine hset.goto ?_ ?_
      · rintro _ ⟨⟩ x hx
        rw [hlatest]
        have hargs := h.requests t s (congrArg RequestPhase.session? hphase)
        rw [hphase] at hargs
        exact hargs x hx
      · rintro _ _ _ ⟨⟩ k' hk'
        rw [hlatest]
        rcases List.mem_cons.mp hk' with rfl | hk'
        · exact hk
        · exact h.popped t s args popped hphase k' hk'
    · exact (nomatch hstep)
  · exact (nomatch hstep)

theorem Sound.sendReleased (h : st.Sound) (hstep : st.sendReleased t = some st') : st'.Sound := by
  rw [SidecarClient.sendReleased] at hstep
  split at hstep
  · next s args popped hphase =>
    have hargs := h.requests t s (congrArg RequestPhase.session? hphase)
    rw [hphase] at hargs
    have hready : (st.goto t (.ready s args)).Sound := by
      refine h.goto ?_ fun _ _ _ hcontra ↦ (nomatch hcontra)
      rintro _ ⟨⟩
      exact hargs
    split_ifs at hstep
    split at hstep
    · next worker hproc =>
      obtain rfl := Option.some.inj hstep
      refine hready.release fun k hk _ x hx hkey ↦ ?_
      obtain ⟨hgone, hlatest⟩ := h.popped t s args popped hphase k hk
      have hworker := Option.some.inj (hlatest.symm.trans (h.latest s worker hproc))
      refine (h.live x hx).1 (hkey ▸ ?_)
      rw [← hworker]
      exact hgone
    · obtain rfl := Option.some.inj hstep
      exact hready
  · exact (nomatch hstep)

theorem Sound.transportFails (h : st.Sound) (hstep : st.transportFails t = some st') :
    st'.Sound := by
  rw [SidecarClient.transportFails] at hstep
  split at hstep
  · next s args hphase =>
    obtain rfl := Option.some.inj hstep
    have hset := h.setSession { st.sessions s with proc := none } rfl (Or.inr rfl)
      (h.pending s)
    exact hset.goto (fun _ hs ↦ (nomatch hs)) fun _ _ _ hcontra ↦ (nomatch hcontra)
  · exact (nomatch hstep)

theorem mem_results {s worker first results : ℕ} {x : SidecarTensor} :
    x ∈ ((List.range results).map (first + ·)).map (⟨s, worker, ·⟩) ↔
      x.session = s ∧ x.worker = worker ∧ first ≤ x.handle ∧ x.handle < first + results := by
  rw [List.map_map, List.mem_map]
  constructor
  · rintro ⟨i, hi, rfl⟩
    have hlt := List.mem_range.mp hi
    exact ⟨rfl, rfl, Nat.le_add_right _ _, Nat.add_lt_add_left hlt _⟩
  · rintro ⟨rfl, rfl, hle, hlt⟩
    refine ⟨x.handle - first, List.mem_range.mpr (by omega), ?_⟩
    rw [Function.comp_apply, Nat.add_sub_cancel' hle]

/-- The handles of a worker only grow. -/
theorem le_nextHandle_store (st : SidecarClient threads) (s worker results : ℕ) (wrapped : Bool)
    (w : ℕ) :
    st.nextHandle w ≤ (st.store s worker results wrapped).nextHandle w := by
  rw [store]
  simp only [Function.update_apply]
  split_ifs with hw
  · rw [hw]
    exact Nat.le_add_right _ _
  · exact Nat.le_refl _

theorem Sound.store (h : st.Sound) {worker : ℕ}
    (hproc : (st.sessions s).proc = some worker) (results : ℕ) (wrapped : Bool) :
    (st.store s worker results wrapped).Sound := by
  have hgrow := le_nextHandle_store st s worker results wrapped
  have hself : (st.store s worker results wrapped).nextHandle worker
      = st.nextHandle worker + results := Function.update_self ..
  -- the handles of the results come after all that the worker has given so far
  have hstarted := h.started s worker (h.latest s worker hproc)
  let fresh : List SidecarTensor :=
    if wrapped then ((List.range results).map (st.nextHandle worker + ·)).map (⟨s, worker, ·⟩)
    else []
  have hlive : (st.store s worker results wrapped).live = fresh ++ st.live := rfl
  have hfresh : ∀ x ∈ fresh, x.worker = worker ∧ st.nextHandle worker ≤ x.handle ∧
      x.handle < st.nextHandle worker + results := by
    intro x hx
    by_cases hwrapped : wrapped = true
    · rw [show fresh = _ from if_pos hwrapped] at hx
      exact (mem_results.mp hx).2
    · rw [show fresh = _ from if_neg hwrapped] at hx
      exact (nomatch hx)
  have hnodup : (fresh.map SidecarTensor.key).Nodup := by
    by_cases hwrapped : wrapped = true
    · rw [show fresh = _ from if_pos hwrapped, List.map_map, List.map_map]
      refine List.Nodup.map (fun i j hij ↦ ?_) List.nodup_range
      exact Nat.add_left_cancel (congrArg Prod.snd hij)
    · rw [show fresh = _ from if_neg hwrapped]
      exact List.nodup_nil
  refine ⟨h.latest, h.started, ?_, ?_, ?_, fun k hk ↦ Nat.lt_of_lt_of_le (h.gone k hk) (hgrow k.1),
    h.pending, ?_, h.popped, h.events⟩
  · intro o ho
    rcases List.mem_append.mp ho with hnew | hold
    · obtain ⟨i, -, rfl⟩ := List.mem_map.mp hnew
      exact hstarted
    · exact h.objects o hold
  -- fresh keys differ among each other, and from the old ones by their number
  · rw [hlive, List.map_append]
    refine List.nodup_append.mpr ⟨hnodup, h.keys, ?_⟩
    intro k hnew k' hold hkk
    obtain ⟨x, hx, rfl⟩ := List.mem_map.mp hnew
    obtain ⟨y, hy, rfl⟩ := List.mem_map.mp hold
    obtain ⟨hworker, hle, -⟩ := hfresh x hx
    have hlt := (h.live y hy).2
    obtain ⟨hw, hhandle⟩ := Prod.mk.inj hkk
    rw [← hw, hworker, ← hhandle] at hlt
    exact absurd hlt (Nat.not_lt.mpr hle)
  · intro x hx
    rw [hlive] at hx
    rcases List.mem_append.mp hx with hnew | hold
    · obtain ⟨hworker, hle, hlt⟩ := hfresh x hnew
      refine ⟨fun hgone ↦ ?_, ?_⟩
      · have hbound := h.gone _ hgone
        rw [SidecarTensor.key, hworker] at hbound
        exact absurd hbound (Nat.not_lt.mpr hle)
      · rw [hworker, hself]
        exact hlt
    · obtain ⟨hgone, hlt⟩ := h.live x hold
      exact ⟨hgone, Nat.lt_of_lt_of_le hlt (hgrow x.worker)⟩
  · intro t s' ht x hx
    obtain ⟨hmem, hown⟩ := h.requests t s' ht x hx
    exact ⟨List.mem_append_right _ hmem, hown⟩

theorem Sound.send (h : st.Sound) {results : ℕ} {wrapped : Bool}
    (hstep : st.send t results wrapped = some st') : st'.Sound := by
  rw [SidecarClient.send] at hstep
  split at hstep
  · next s args hphase =>
    have hidle : (st.goto t .idle).Sound :=
      h.goto (fun _ hs ↦ (nomatch hs)) fun _ _ _ hcontra ↦ (nomatch hcontra)
    split at hstep
    · next worker hproc =>
      split_ifs at hstep with hobjects
      · obtain rfl := Option.some.inj hstep
        have hstore := hidle.store hproc results wrapped
        refine ⟨hstore.latest, hstore.started, hstore.objects, hstore.keys, hstore.live,
          hstore.gone, hstore.pending, hstore.requests, hstore.popped, ?_⟩
        refine List.forall_mem_cons.mpr ⟨fun x hx ↦ ?_, h.events⟩
        -- The session still has the worker that the tensor came from.
        have hargs := h.requests t s (congrArg RequestPhase.session? hphase)
        rw [hphase] at hargs
        exact Option.some.inj ((hargs x hx).2.2.symm.trans (h.latest s worker hproc))
      · obtain rfl := Option.some.inj hstep
        exact hidle
    · obtain rfl := Option.some.inj hstep
      exact hidle
  · exact (nomatch hstep)

theorem Sound.collect (h : st.Sound) {x : SidecarTensor}
    (hlatest : (st.sessions x.session).latest = some x.worker)
    (hstep : st.collect x = some st') : st'.Sound := by
  rw [SidecarClient.collect] at hstep
  split_ifs at hstep with hfree
  obtain rfl := Option.some.inj hstep
  obtain ⟨hx, hheld⟩ := hfree
  have hsub : (st.live.erase x).Sublist st.live := List.erase_sublist
  have hother : ∀ y ∈ st.live.erase x, y.key ≠ x.key := by
    intro y hy hkey
    obtain rfl := List.inj_on_of_nodup_map h.keys (hsub.subset hy) hx hkey
    exact (h.keys.of_map _).not_mem_erase hy
  have hgone : SidecarClient.Sound
      { st with live := st.live.erase x, collected := x.key :: st.collected } := by
    refine ⟨h.latest, h.started, h.objects, h.keys.sublist (hsub.map _), ?_, ?_, ?_, ?_, ?_,
      h.events⟩
    · intro y hy
      obtain ⟨hcollected, hlt⟩ := h.live y (hsub.subset hy)
      exact ⟨List.not_mem_cons_of_ne_of_not_mem (hother y hy) hcollected, hlt⟩
    · exact List.forall_mem_cons.mpr ⟨(h.live x hx).2, h.gone⟩
    · intro s k hk
      obtain ⟨hcollected, hk⟩ := h.pending s k hk
      exact ⟨List.mem_cons_of_mem _ hcollected, hk⟩
    · intro t s ht y hy
      obtain ⟨hmem, hown⟩ := h.requests t s ht y hy
      refine ⟨(List.mem_erase_of_ne fun hyx ↦ ?_).mpr hmem, hown⟩
      exact hheld t (hyx ▸ hy)
    · intro t s args popped ht k hk
      obtain ⟨hcollected, hk⟩ := h.popped t s args popped ht k hk
      exact ⟨List.mem_cons_of_mem _ hcollected, hk⟩
  refine hgone.setSession { st.sessions x.session with
    pending := x.key :: (st.sessions x.session).pending } rfl (Or.inl rfl) ?_
  exact List.forall_mem_cons.mpr ⟨⟨List.mem_cons_self, hlatest⟩, hgone.pending x.session⟩

theorem Sound.step (h : st.Sound) {step : SidecarStep threads} (htimely : step.Timely st)
    (hstep : st.step step = some st') : st'.Sound := by
  rcases step with ⟨s, ok⟩ | s | ⟨t, s, args⟩ | t | t | ⟨t, results, wrapped⟩ | t | x
  · exact h.enter htimely hstep
  · exact Option.some.inj hstep ▸ h.close s
  · exact h.request htimely hstep
  · exact h.popReleased hstep
  · exact h.sendReleased hstep
  · exact h.send hstep
  · exact h.transportFails hstep
  · exact h.collect htimely hstep

theorem sound_init : ({} : SidecarClient threads).Sound :=
  ⟨fun _ _ h ↦ (nomatch h), fun _ _ h ↦ (nomatch h), fun _ h ↦ (nomatch h), List.nodup_nil,
    fun _ h ↦ (nomatch h), fun _ h ↦ (nomatch h), fun _ _ h ↦ (nomatch h),
    fun _ _ h ↦ (nomatch h), fun _ _ _ _ h ↦ (nomatch h), fun _ h ↦ (nomatch h)⟩

end SidecarClient

/-! ## The runs -/

/-- **Every handle denotes its tensor**, and nothing is released that a tensor stands for, as long
as tensors are used and collected before their session is entered again, and by no other session. -/
theorem sidecar_handles_denote {threads : ℕ} {steps : List (SidecarStep threads)}
    {st : SidecarClient threads}
    (hrun : ((sidecarClient threads).restrict fun st step ↦ step.Timely st).run {} steps
      = some st) : ∀ event ∈ st.events, event.Right := by
  have hsound : st.Sound := by
    refine Machine.run_invariant _ ?_ SidecarClient.sound_init hrun
    intro st step st' hst hstep
    obtain ⟨htimely, hstep⟩ := Machine.step_restrict.mp hstep
    exact hst.step htimely hstep
  exact hsound.events

/-- Two threads in a session that is entered twice, with tensors collected in between. -/
theorem sidecar_handles_denote_twice : ∃ st : SidecarClient 2,
    ((sidecarClient 2).restrict fun st step ↦ step.Timely st).run {}
      [.enter 0 true, .request 0 0 [], .sendReleased 0, .send 0 2 true,
        .request 1 0 [⟨0, 0, 1⟩], .collect ⟨0, 0, 2⟩, .popReleased 1, .sendReleased 1,
        .send 1 1 true, .collect ⟨0, 0, 3⟩, .close 0, .enter 0 true, .request 0 0 [],
        .sendReleased 0, .send 0 1 true, .request 1 0 [⟨0, 1, 1⟩], .sendReleased 1,
        .send 1 0 true] = some st ∧
      ∀ event ∈ st.events, event.Right := by
  refine (Option.isSome_iff_exists.mp ?_).imp fun st hrun ↦ ⟨hrun, sidecar_handles_denote hrun⟩
  decide +kernel

/-- A tensor of a closed session is used in the next one, where its handle denotes another; and one
that is collected after its session was entered again has the other released. -/
theorem stale_handles_denote_others :
    (∃ st : SidecarClient 1, (sidecarClient 1).run {}
      [.enter 0 true, .request 0 0 [], .sendReleased 0, .send 0 1 true, .close 0, .enter 1 true,
        .request 0 1 [], .sendReleased 0, .send 0 1 true, .request 0 1 [⟨0, 0, 1⟩],
        .sendReleased 0, .send 0 0 true] = some st ∧
      ∃ event ∈ st.events, event = .operated 1 [⟨0, 0, 1⟩] ∧ ¬event.Right) ∧
    ∃ st : SidecarClient 1, (sidecarClient 1).run {}
      [.enter 0 true, .request 0 0 [], .sendReleased 0, .send 0 1 true, .close 0, .enter 0 true,
        .request 0 0 [], .sendReleased 0, .send 0 1 true, .collect ⟨0, 0, 1⟩, .request 0 0 [],
        .popReleased 0, .sendReleased 0] = some st ∧
      ∃ event ∈ st.events, event = .released 1 1 [⟨0, 1, 1⟩] ∧ ¬event.Right := by
  constructor
  · exact ⟨_, rfl, _, List.mem_cons_self, rfl, by decide⟩
  · exact ⟨_, rfl, _, List.mem_cons_self, rfl, by decide⟩

end Lupine
