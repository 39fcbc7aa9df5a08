import Lupine.Foundation.Machine
import Lupine.Foundation.PointerTable
import Lupine.Transport.RequestIds

/-!
# The dispatch loop of a connection

The dispatcher reads the header of a request, reserves the inbound stream by storing the id in
`read_id`, and posts the opcode to the worker of the lane. The reservation is given back by
`rpc_read_end`, which the handler calls once it has read the body, and the worker again when the
handler fails. Responses to requests of the server itself are left to the thread that waits for
them. When the loop is over, the workers are told to stop, one lane after the other, each by a
reservation with the id -1.

## Dead workers

A worker returns when its handler fails, and its lane stays in the table. What is posted to it from
then on is never read, and the reservation is never given back. The same goes for the ways out of
the loop that leave `read_id` set.

## Two invariants

The reservation needs an owner as long as it is held, which is shown for the whole run, the shutdown
included. A posted opcode needs a worker that takes it, which is shown for the loop, where a worker
returns only because its handler failed or its lane is being terminated. Each has its own condition
on the steps, stated on the state before the step.
-/

namespace Lupine

open Foundation

/-! ## The state

A lane is the opcode that is ready, if one is, and its worker. The dispatcher is in its loop, or it
joins a worker, or it is past the loop with the lanes that are still to be stopped. -/

/-- `LUPINE_RPC_TERMINATE_LANE`. -/
def terminateLane : ℕ := 0xFFFF

/-- `MAX_LANES`. -/
def maxLanes : ℕ := 256

/-- Where a worker is; a handler has called `rpc_read_end` or not. -/
inductive LaneWorker where
  | waiting
  | handling (readEnded : Bool)
  | exited
  deriving DecidableEq, Repr

/-- `lupine_lane`: the opcode that is `ready`, if one is. -/
structure DispatchLane where
  ready : Option ℕ := none
  worker : LaneWorker := .waiting
  deriving DecidableEq, Repr

/-- Where the dispatcher is: in its loop, joining the worker of a lane that terminates, or past the
loop with lanes that are still to be stopped. -/
inductive Dispatcher where
  | loop
  | joining (lane : ℕ)
  | shutdown (remaining : List ℕ)
  | shutdownJoining (lane : ℕ) (remaining : List ℕ)
  deriving DecidableEq, Repr

/-- The connection as `client_handler` sees it. -/
structure DispatchState where
  /-- `read_id`, which is zero when the inbound stream is free. -/
  readId : ℤ := 0
  closed : Bool := false
  connectionReady : Bool := false
  lanes : AList (fun _ : ℕ ↦ DispatchLane) := ∅
  dispatcher : Dispatcher := .loop
  /-- The requests of the server whose threads are in `rpc_read_start`. -/
  waiting : List ℤ := []
  /-- The requests of the server whose threads read the response. -/
  reading : List ℤ := []
  /-- The lanes on which a handler has failed. -/
  failed : List ℕ := []

namespace DispatchState

def setLane (st : DispatchState) (lane : ℕ) (next : DispatchLane) : DispatchState :=
  { st with lanes := st.lanes.insert lane next }

def leave (st : DispatchState) : DispatchState :=
  { st with dispatcher := .shutdown st.lanes.keys }

/-- Posting an opcode, with the lane it is posted to. -/
def post (st : DispatchState) (lane op : ℕ) (next : DispatchLane) : DispatchState :=
  { st.setLane lane { next with ready := some op } with
    dispatcher := if op = terminateLane then .joining lane else .loop }

/-- The dispatcher is about to read an id. -/
def Reads (st : DispatchState) : Prop := st.dispatcher = .loop ∧ !st.closed ∧ st.readId = 0

instance (st : DispatchState) : Decidable st.Reads := inferInstanceAs (Decidable (_ ∧ _ ∧ _))

def InLoop (st : DispatchState) : Prop :=
  match st.dispatcher with
  | .loop | .joining _ => True
  | .shutdown _ | .shutdownJoining _ _ => False

instance (st : DispatchState) : Decidable st.InLoop := by
  unfold InLoop
  cases st.dispatcher <;> infer_instance

end DispatchState

/-! ## Steps

The inversion lemmas say what the dispatcher and the workers can do from where they are; the
invariants are proved from them. -/

/-- A step of the dispatcher, of a worker, or of a thread that makes a request of its own. -/
inductive DispatchStep where
  /-- The header of a request; whether the checkpoint could be restored counts the first time. -/
  | request (id : ℤ) (lane op : ℕ) (restored : Bool)
  /-- The id of a response. -/
  | response (id : ℤ)
  /-- No id, or the id zero. -/
  | endOfStream
  /-- The id of a request whose lane or opcode is cut off. -/
  | truncated (id : ℤ)
  | seeClosed
  | join
  /-- The worker of a lane takes the opcode that is ready. -/
  | take (lane : ℕ)
  /-- The handler of a lane calls `rpc_read_end`. -/
  | readEnd (lane : ℕ)
  /-- The handler of a lane returns. -/
  | finish (lane : ℕ) (succeeded : Bool)
  | callback (id : ℤ)
  | responseStart (id : ℤ) (succeeded : Bool)
  | responseEnd (id : ℤ) (succeeded : Bool)
  | shutdownPost (lane : ℕ)
  | shutdownJoin
  deriving DecidableEq, Repr

/-- The step that reads the header of a request, once the id is stored. -/
def dispatchRequest (st : DispatchState) (lane op : ℕ) (restored : Bool) : DispatchState :=
  if !st.connectionReady ∧ !restored then st.leave
  else
    let st := { st with connectionReady := true }
    match st.lanes.lookup lane with
    | none => if maxLanes ≤ st.lanes.keys.length then st.leave else st.post lane op {}
    | some next => st.post lane op next

def takeOp (st : DispatchState) (lane op : ℕ) : DispatchState :=
  if st.readId = -1 ∨ op = terminateLane then
    { st.setLane lane { worker := .exited } with readId := 0 }
  else st.setLane lane { worker := .handling false }

/-- What happens in a step. A handler that succeeds has called `rpc_read_end`. -/
def dispatchStep (st : DispatchState) : DispatchStep → Option DispatchState
  | .request id lane op restored =>
    if st.Reads ∧ id ≠ 0 ∧ !localParity id then
      some (dispatchRequest { st with readId := id } lane op restored)
    else none
  | .response id =>
    if st.Reads ∧ localParity id then some { st with readId := id } else none
  | .endOfStream => if st.Reads then some st.leave else none
  | .truncated id =>
    if st.Reads ∧ id ≠ 0 ∧ !localParity id then some { st.leave with readId := id } else none
  | .seeClosed => if st.dispatcher = .loop ∧ st.closed then some st.leave else none
  | .join =>
    match st.dispatcher with
    | .joining lane =>
      if (st.lanes.lookup lane).map DispatchLane.worker = some .exited then
        some { st with lanes := st.lanes.erase lane, dispatcher := .loop }
      else none
    | _ => none
  | .take lane =>
    match st.lanes.lookup lane with
    | some ⟨some op, .waiting⟩ => some (takeOp st lane op)
    | _ => none
  | .readEnd lane =>
    match st.lanes.lookup lane with
    | some ⟨ready, .handling false⟩ =>
      some { st.setLane lane ⟨ready, .handling true⟩ with readId := 0 }
    | _ => none
  | .finish lane succeeded =>
    match st.lanes.lookup lane with
    | some ⟨ready, .handling readEnded⟩ =>
      if succeeded then
        if readEnded then some (st.setLane lane ⟨ready, .waiting⟩) else none
      else
        some { st.setLane lane ⟨ready, .exited⟩ with readId := 0, failed := lane :: st.failed }
    | _ => none
  | .callback id => some { st with waiting := id :: st.waiting }
  | .responseStart id succeeded =>
    if id ∈ st.waiting ∧ st.readId = id then
      let st := { st with waiting := st.waiting.erase id }
      -- `rpc_read_start` closes the connection and keeps the reservation.
      some (if succeeded then { st with reading := id :: st.reading }
        else { st with closed := true })
    else none
  | .responseEnd id succeeded =>
    if id ∈ st.reading then
      let st := { st with reading := st.reading.erase id }
      some (if succeeded then { st with readId := 0 } else st)
    else none
  | .shutdownPost lane =>
    match st.dispatcher, st.lanes.lookup lane with
    | .shutdown remaining, some next =>
      if lane ∈ remaining ∧ st.readId = 0 then
        some { st.setLane lane { next with ready := some terminateLane } with
          readId := -1
          dispatcher := .shutdownJoining lane (remaining.erase lane) }
      else none
    | _, _ => none
  | .shutdownJoin =>
    match st.dispatcher with
    | .shutdownJoining lane remaining =>
      if (st.lanes.lookup lane).map DispatchLane.worker = some .exited then
        some { st with dispatcher := .shutdown remaining }
      else none
    | _ => none

def dispatchMachine : Machine DispatchState DispatchStep where
  step := dispatchStep

section Cases

variable {st st' : DispatchState} {lane : ℕ}

theorem dispatchStep_join_cases (hstep : dispatchStep st .join = some st') :
    ∃ lane, st.dispatcher = .joining lane ∧
      (st.lanes.lookup lane).map DispatchLane.worker = some .exited ∧
      st' = { st with lanes := st.lanes.erase lane, dispatcher := .loop } := by
  simp only [dispatchStep] at hstep
  split at hstep
  next lane hdispatcher =>
    obtain ⟨hexited, rfl⟩ := Option.ite_some_none_eq_some.mp hstep
    exact ⟨lane, hdispatcher, hexited, rfl⟩
  next => exact nomatch hstep

theorem dispatchStep_take_cases (hstep : dispatchStep st (.take lane) = some st') :
    ∃ op, st.lanes.lookup lane = some ⟨some op, .waiting⟩ ∧ st' = takeOp st lane op := by
  simp only [dispatchStep] at hstep
  split at hstep
  next op hlane => exact ⟨op, hlane, (Option.some.inj hstep).symm⟩
  next => exact nomatch hstep

theorem dispatchStep_readEnd_cases (hstep : dispatchStep st (.readEnd lane) = some st') :
    ∃ ready, st.lanes.lookup lane = some ⟨ready, .handling false⟩ ∧
      st' = { st.setLane lane ⟨ready, .handling true⟩ with readId := 0 } := by
  simp only [dispatchStep] at hstep
  split at hstep
  next ready hlane => exact ⟨ready, hlane, (Option.some.inj hstep).symm⟩
  next => exact nomatch hstep

theorem dispatchStep_finish_cases {succeeded : Bool}
    (hstep : dispatchStep st (.finish lane succeeded) = some st') :
    ∃ ready readEnded, st.lanes.lookup lane = some ⟨ready, .handling readEnded⟩ ∧
      (succeeded = true ∧ readEnded = true ∧ st' = st.setLane lane ⟨ready, .waiting⟩ ∨
        succeeded = false ∧ st' = { st.setLane lane ⟨ready, .exited⟩ with
          readId := 0
          failed := lane :: st.failed }) := by
  simp only [dispatchStep] at hstep
  split at hstep
  next ready readEnded hlane =>
    refine ⟨ready, readEnded, hlane, ?_⟩
    split_ifs at hstep with hsucceeded hended
    · exact Or.inl ⟨hsucceeded, hended, (Option.some.inj hstep).symm⟩
    · exact Or.inr ⟨eq_false_of_ne_true hsucceeded, (Option.some.inj hstep).symm⟩
  next => exact nomatch hstep

theorem dispatchStep_shutdownPost_cases
    (hstep : dispatchStep st (.shutdownPost lane) = some st') :
    ∃ remaining next, st.dispatcher = .shutdown remaining ∧ st.lanes.lookup lane = some next ∧
      lane ∈ remaining ∧ st.readId = 0 ∧
      st' = { st.setLane lane { next with ready := some terminateLane } with
        readId := -1
        dispatcher := .shutdownJoining lane (remaining.erase lane) } := by
  simp only [dispatchStep] at hstep
  split at hstep
  next remaining next hdispatcher hlane =>
    obtain ⟨⟨hmem, hfree⟩, rfl⟩ := Option.ite_some_none_eq_some.mp hstep
    exact ⟨remaining, next, hdispatcher, hlane, hmem, hfree, rfl⟩
  next => exact nomatch hstep

theorem dispatchStep_shutdownJoin_cases (hstep : dispatchStep st .shutdownJoin = some st') :
    ∃ lane remaining, st.dispatcher = .shutdownJoining lane remaining ∧
      (st.lanes.lookup lane).map DispatchLane.worker = some .exited ∧
      st' = { st with dispatcher := .shutdown remaining } := by
  simp only [dispatchStep] at hstep
  split at hstep
  next lane remaining hdispatcher =>
    obtain ⟨hexited, rfl⟩ := Option.ite_some_none_eq_some.mp hstep
    exact ⟨lane, remaining, hdispatcher, hexited, rfl⟩
  next => exact nomatch hstep

end Cases

/-! ## The reservation

A reservation has an owner as long as something will give it back: a worker that has an opcode to
take or a body to read, or the thread of a response.

What is posted to a worker that has not returned is owned by it, and a lane that changes keeps the
reservation owned unless it stops owning it. -/

/-- A worker that will call `rpc_read_end`. -/
def DispatchLane.Owns (lane : DispatchLane) : Prop :=
  lane.worker ≠ .exited ∧ (lane.ready.isSome ∨ lane.worker = .handling false)

instance (lane : DispatchLane) : Decidable lane.Owns := inferInstanceAs (Decidable (_ ∧ _))

/-- The reservation has an owner. -/
def DispatchState.Owned (st : DispatchState) : Prop :=
  (∃ lane next, st.lanes.lookup lane = some next ∧ next.Owns) ∨ st.readId ∈ st.waiting ∨
    st.readId ∈ st.reading

/-- The steps with which an owner goes on. -/
def DispatchStep.ofOwner : DispatchStep → Bool
  | .take _ | .readEnd _ | .finish _ true | .responseStart _ true | .responseEnd _ true => true
  | _ => false

/-- Steps of owners that lead to a goal. -/
def DispatchState.OwnersReach (st : DispatchState) (goal : DispatchState → Prop) : Prop :=
  ∃ steps st', (∀ a ∈ steps, DispatchStep.ofOwner a) ∧ dispatchMachine.run st steps = some st' ∧
    goal st'

/-- The inbound stream is free, or has an owner whose remaining steps free it. -/
def DispatchState.Released (st : DispatchState) : Prop :=
  st.readId = 0 ∨ st.Owned ∧ st.OwnersReach fun st' ↦ st'.readId = 0

/-- There is a worker for the lane, or room for one. -/
def DispatchState.Admits (st : DispatchState) (lane : ℕ) : Prop :=
  ((st.lanes.lookup lane).isNone → st.lanes.keys.length < maxLanes) ∧
    (st.lanes.lookup lane).map DispatchLane.worker ≠ some .exited

instance (st : DispatchState) (lane : ℕ) : Decidable (st.Admits lane) :=
  inferInstanceAs (Decidable (_ ∧ _))

/-- The steps after which the reservation has an owner: nothing is cut off, the checkpoint is
restored, there is room for the lane, nothing is posted to a worker that has returned, and a
response is one that a thread waits for and reads. -/
def ReservationSound (st : DispatchState) : DispatchStep → Prop
  | .request _ lane _ restored => (st.connectionReady ∨ restored) ∧ st.Admits lane
  | .truncated _ => False
  | .response id => id ∈ st.waiting
  | .responseStart _ succeeded | .responseEnd _ succeeded => succeeded
  | .shutdownPost lane => (st.lanes.lookup lane).map DispatchLane.worker ≠ some .exited
  | .endOfStream | .seeClosed | .join | .take _ | .readEnd _ | .finish _ _ | .callback _
  | .shutdownJoin => True

instance (st : DispatchState) : ∀ a, Decidable (ReservationSound st a)
  | .request _ _ _ _ => inferInstanceAs (Decidable (_ ∧ _))
  | .truncated _ => inferInstanceAs (Decidable False)
  | .response id => inferInstanceAs (Decidable (id ∈ st.waiting))
  | .responseStart _ succeeded | .responseEnd _ succeeded =>
    inferInstanceAs (Decidable (succeeded = true))
  | .shutdownPost lane => inferInstanceAs (Decidable (Option.map _ (st.lanes.lookup lane) ≠ _))
  | .endOfStream | .seeClosed | .join | .take _ | .readEnd _ | .finish _ _ | .callback _
  | .shutdownJoin => inferInstanceAs (Decidable True)

namespace DispatchState

variable {st : DispatchState} {lane : ℕ} {next next' : DispatchLane}

theorem lookup_setLane {k : ℕ} {x : DispatchLane} :
    (st.setLane lane next).lanes.lookup k = some x
      ↔ k = lane ∧ next = x ∨ k ≠ lane ∧ st.lanes.lookup k = some x :=
  lookup_insert_eq_some

theorem lookup_setLane_self : (st.setLane lane next).lanes.lookup lane = some next :=
  lookup_setLane.mpr (Or.inl ⟨rfl, rfl⟩)

theorem Owned.of_lane (h : st.lanes.lookup lane = some next) (hnext : next.Owns) : st.Owned :=
  Or.inl ⟨lane, next, h, hnext⟩

theorem Owned.setLane (h : st.Owned) (hlane : st.lanes.lookup lane = some next)
    (hnext : next.Owns → next'.Owns) : (st.setLane lane next').Owned := by
  rcases h with ⟨k, x, hk, hx⟩ | hresponse
  · rcases eq_or_ne k lane with rfl | hne
    · rw [hlane, Option.some_inj] at hk
      exact Owned.of_lane lookup_setLane_self (hnext (hk ▸ hx))
    · exact Owned.of_lane (lookup_setLane.mpr (Or.inr ⟨hne, hk⟩)) hx
  · exact Or.inr hresponse

theorem Owned.erase (h : st.Owned) (dispatcher : Dispatcher)
    (hlane : (st.lanes.lookup lane).map DispatchLane.worker = some .exited) :
    { st with lanes := st.lanes.erase lane, dispatcher : DispatchState }.Owned := by
  rcases h with ⟨k, x, hk, hx⟩ | hresponse
  · have hne : k ≠ lane := by
      rintro rfl
      rw [hk, Option.map_some, Option.some_inj] at hlane
      exact hx.1 hlane
    exact Owned.of_lane (lookup_erase_eq_some.mpr ⟨hne, hk⟩) hx
  · exact Or.inr hresponse

/-- What is posted to a worker that has not returned is owned by it. -/
theorem owned_post (op : ℕ) (hnext : next.worker ≠ .exited) : (st.post lane op next).Owned :=
  Owned.of_lane lookup_setLane_self ⟨hnext, Or.inl rfl⟩

end DispatchState

/-- Free, or owned. -/
def Reserved (st : DispatchState) : Prop := st.readId = 0 ∨ st.Owned

variable {st st' : DispatchState}

theorem reserved_request {id : ℤ} {lane op : ℕ} {restored : Bool}
    (hsound : ReservationSound st (.request id lane op restored)) :
    Reserved (dispatchRequest { st with readId := id } lane op restored) := by
  obtain ⟨hready, hroom, hworker⟩ := hsound
  have hrestored : ¬ (!st.connectionReady ∧ !restored) := by
    rcases hready with h | h <;> simp [h]
  rw [dispatchRequest, if_neg hrestored]
  show Reserved (match st.lanes.lookup lane with | none => _ | some next => _)
  cases hlookup : st.lanes.lookup lane with
  | none =>
    have hlane := hroom (by rw [hlookup]; rfl)
    show Reserved (if maxLanes ≤ st.lanes.keys.length then _ else _)
    rw [if_neg (Nat.not_le.mpr hlane)]
    exact Or.inr (DispatchState.owned_post op (by decide))
  | some next =>
    rw [hlookup] at hworker
    exact Or.inr (DispatchState.owned_post op fun h ↦ hworker (congrArg some h))

theorem reserved_takeOp {lane op : ℕ} {ready : Option ℕ} (h : Reserved st)
    (hlane : st.lanes.lookup lane = some ⟨ready, .waiting⟩) : Reserved (takeOp st lane op) := by
  rw [takeOp]
  split_ifs
  · exact Or.inl rfl
  · exact h.imp_right fun howned ↦ howned.setLane hlane fun _ ↦ ⟨by decide, Or.inr rfl⟩

theorem reserved_finish {lane : ℕ} {succeeded : Bool} (h : Reserved st)
    (hstep : dispatchStep st (.finish lane succeeded) = some st') : Reserved st' := by
  obtain ⟨ready, readEnded, hlane, ⟨-, rfl, rfl⟩ | ⟨-, rfl⟩⟩ := dispatchStep_finish_cases hstep
  · refine h.imp_right fun howned ↦ howned.setLane hlane ?_
    rintro ⟨-, hready | hhandling⟩
    · exact ⟨by simp, Or.inl hready⟩
    · exact absurd hhandling (by simp)
  · exact Or.inl rfl

theorem reserved_shutdownPost {lane : ℕ} (hsound : ReservationSound st (.shutdownPost lane))
    (hstep : dispatchStep st (.shutdownPost lane) = some st') : Reserved st' := by
  obtain ⟨remaining, next, -, hlane, -, -, rfl⟩ := dispatchStep_shutdownPost_cases hstep
  have hworker : next.worker ≠ .exited := by
    intro h
    apply hsound
    rw [hlane]
    exact congrArg some h
  exact Or.inr (DispatchState.Owned.of_lane DispatchState.lookup_setLane_self
    ⟨hworker, Or.inl rfl⟩)

/-- **One step.** A sound step leaves the stream free or owned. -/
theorem reserved_step (st : DispatchState) (a : DispatchStep) (st' : DispatchState)
    (h : Reserved st) (hsound : ReservationSound st a) (hstep : dispatchStep st a = some st') :
    Reserved st' := by
  cases a with
  | request id lane op restored =>
    obtain ⟨-, rfl⟩ := Option.ite_some_none_eq_some.mp hstep
    exact reserved_request hsound
  | response id =>
    obtain ⟨-, rfl⟩ := Option.ite_some_none_eq_some.mp hstep
    exact Or.inr (Or.inr (Or.inl hsound))
  | endOfStream =>
    obtain ⟨-, rfl⟩ := Option.ite_some_none_eq_some.mp hstep
    exact h
  | truncated id => exact hsound.elim
  | seeClosed =>
    obtain ⟨-, rfl⟩ := Option.ite_some_none_eq_some.mp hstep
    exact h
  | join =>
    obtain ⟨lane, -, hexited, rfl⟩ := dispatchStep_join_cases hstep
    exact h.imp_right fun howned ↦ howned.erase .loop hexited
  | take lane =>
    obtain ⟨op, hlane, rfl⟩ := dispatchStep_take_cases hstep
    exact reserved_takeOp h hlane
  | readEnd lane =>
    obtain ⟨-, -, rfl⟩ := dispatchStep_readEnd_cases hstep
    exact Or.inl rfl
  | finish lane succeeded => exact reserved_finish h hstep
  | callback id =>
    obtain rfl := Option.some.inj hstep
    exact h.imp_right fun howned ↦ howned.imp_right fun hresponse ↦
      hresponse.imp_left (List.mem_cons_of_mem id)
  | responseStart id succeeded =>
    -- a start that failed would leave the reservation without an owner
    obtain rfl : succeeded = true := hsound
    obtain ⟨⟨-, hid⟩, rfl⟩ := Option.ite_some_none_eq_some.mp hstep
    exact Or.inr (Or.inr (Or.inr (hid ▸ List.mem_cons_self)))
  | responseEnd id succeeded =>
    obtain rfl : succeeded = true := hsound
    obtain ⟨-, rfl⟩ := Option.ite_some_none_eq_some.mp hstep
    exact Or.inl rfl
  | shutdownPost lane => exact reserved_shutdownPost hsound hstep
  | shutdownJoin =>
    obtain ⟨-, -, -, -, rfl⟩ := dispatchStep_shutdownJoin_cases hstep
    exact h

/-! ## Owners go on

An owner that reads a body ends it, one that has an opcode to take takes it first, and one whose
handler is still at the previous request finishes that before. -/

theorem ownersReach_self {goal : DispatchState → Prop} (h : goal st) : st.OwnersReach goal :=
  ⟨[], st, by simp, rfl, h⟩

theorem ownersReach_of_step {goal : DispatchState → Prop} {a : DispatchStep} (ha : a.ofOwner)
    (hstep : dispatchStep st a = some st') (h : st'.OwnersReach goal) : st.OwnersReach goal := by
  obtain ⟨steps, st'', howner, hrun, hgoal⟩ := h
  refine ⟨a :: steps, st'', ?_, ?_, hgoal⟩
  · intro b hb
    rcases List.mem_cons.mp hb with rfl | hb
    · exact ha
    · exact howner b hb
  · rw [Machine.run_cons]
    exact (congrArg (Option.bind · _) hstep).trans hrun

theorem releases_of_handling {lane : ℕ} {ready : Option ℕ}
    (h : st.lanes.lookup lane = some ⟨ready, .handling false⟩) :
    st.OwnersReach fun st' ↦ st'.readId = 0 := by
  have hstep : dispatchStep st (.readEnd lane)
      = some { st.setLane lane ⟨ready, .handling true⟩ with readId := 0 } := by
    simp only [dispatchStep, h]
  exact ownersReach_of_step rfl hstep (ownersReach_self rfl)

theorem releases_of_waiting {lane op : ℕ} (h : st.lanes.lookup lane = some ⟨some op, .waiting⟩) :
    st.OwnersReach fun st' ↦ st'.readId = 0 := by
  have htake : dispatchStep st (.take lane) = some (takeOp st lane op) := by
    simp only [dispatchStep, h]
  refine ownersReach_of_step rfl htake ?_
  rw [takeOp]
  split_ifs
  · exact ownersReach_self rfl
  · exact releases_of_handling DispatchState.lookup_setLane_self

theorem releases_of_finishing {lane op : ℕ}
    (h : st.lanes.lookup lane = some ⟨some op, .handling true⟩) :
    st.OwnersReach fun st' ↦ st'.readId = 0 := by
  have hstep : dispatchStep st (.finish lane true)
      = some (st.setLane lane ⟨some op, .waiting⟩) := by
    simp only [dispatchStep, h, if_true]
  exact ownersReach_of_step rfl hstep (releases_of_waiting DispatchState.lookup_setLane_self)

/-- **Owners release.** -/
theorem DispatchState.Owned.releases (h : st.Owned) :
    st.OwnersReach fun st' ↦ st'.readId = 0 := by
  have hreading : ∀ st : DispatchState, st.readId ∈ st.reading →
      st.OwnersReach fun st' ↦ st'.readId = 0 := by
    intro st hmem
    have hstep : dispatchStep st (.responseEnd st.readId true)
        = some { st with reading := st.reading.erase st.readId, readId := 0 } := by
      simp only [dispatchStep, if_pos hmem, if_true]
    exact ownersReach_of_step rfl hstep (ownersReach_self rfl)
  rcases h with ⟨lane, ⟨ready, worker⟩, hlane, hworker, howns⟩ | hwaiting | hmem
  · cases worker with
    | waiting =>
      cases ready with
      | none => exact absurd howns (by simp)
      | some op => exact releases_of_waiting hlane
    | handling readEnded =>
      cases readEnded with
      | false => exact releases_of_handling hlane
      | true =>
        cases ready with
        | none => exact absurd howns (by simp)
        | some op => exact releases_of_finishing hlane
    | exited => exact absurd rfl hworker
  · have hstep : dispatchStep st (.responseStart st.readId true)
        = some { st with waiting := st.waiting.erase st.readId
                         reading := st.readId :: st.reading } := by
      simp only [dispatchStep, and_true, if_pos hwaiting, if_true]
    exact ownersReach_of_step rfl hstep (hreading _ List.mem_cons_self)
  · exact hreading st hmem

/-- **The reservation is given back.** In every run whose steps are sound, the inbound stream is
free or has an owner that frees it, in the loop and after it. -/
theorem dispatch_released {steps : List DispatchStep}
    (hrun : (dispatchMachine.restrict ReservationSound).run {} steps = some st) :
    st.Released := by
  have hreserved : Reserved st := by
    refine Machine.run_invariant _ ?_ (Or.inl rfl) hrun
    intro st a st' h hstep
    obtain ⟨hsound, hstep⟩ := Machine.step_restrict.mp hstep
    exact reserved_step st a st' h hsound hstep
  exact hreserved.imp_right fun howned ↦ ⟨howned, howned.releases⟩

/-! ## What is posted

While the dispatcher is in its loop, a worker has returned because its handler failed or because its
lane is being terminated.

The invariant is about the loop only. A lane on which no handler has failed has a worker that
runs. -/

/-- The opcode of a lane has been taken. -/
def DispatchState.Taken (lane : ℕ) (st : DispatchState) : Prop :=
  (st.lanes.lookup lane).map DispatchLane.ready = some none

/-- Every opcode posted in the loop is posted to a worker that has not returned and goes on to take
it. -/
def DispatchState.PostsAreTaken (st : DispatchState) : Prop :=
  st.InLoop → ∀ lane next, st.lanes.lookup lane = some next → next.ready.isSome →
    next.worker ≠ .exited ∧ st.OwnersReach (DispatchState.Taken lane)

/-- The steps after which it is so: a request is for a lane on which no handler has failed, and its
id is not the one that stops a worker; a handler does not fail while the next request of its lane
is posted. -/
def PostSound (st : DispatchState) : DispatchStep → Prop
  | .request id lane _ _ => id ≠ -1 ∧ lane ∉ st.failed
  | .finish lane false => (st.lanes.lookup lane).bind DispatchLane.ready = none
  | .finish _ true | .truncated _ | .response _ | .responseStart _ _ | .responseEnd _ _
  | .shutdownPost _ | .endOfStream | .seeClosed | .join | .take _ | .readEnd _ | .callback _
  | .shutdownJoin => True

instance (st : DispatchState) : ∀ a, Decidable (PostSound st a)
  | .request _ _ _ _ => inferInstanceAs (Decidable (_ ∧ _))
  | .finish lane false => inferInstanceAs (Decidable ((st.lanes.lookup lane).bind _ = none))
  | .finish _ true | .truncated _ | .response _ | .responseStart _ _ | .responseEnd _ _
  | .shutdownPost _ | .endOfStream | .seeClosed | .join | .take _ | .readEnd _ | .callback _
  | .shutdownJoin => inferInstanceAs (Decidable True)

/-- What holds while the dispatcher is in its loop. -/
structure PostsInv (st : DispatchState) : Prop where
  readId_ne : st.readId ≠ -1
  exited : ∀ lane next, st.lanes.lookup lane = some next → next.worker = .exited →
    next.ready = none ∧ (lane ∈ st.failed ∨ st.dispatcher = .joining lane)
  terminate : ∀ lane next, st.lanes.lookup lane = some next → next.ready = some terminateLane →
    st.dispatcher = .joining lane

/-- The invariant is about the loop only. -/
def InLoopInv (st : DispatchState) : Prop := st.InLoop → PostsInv st

theorem PostsInv.setLane {lane : ℕ} {next : DispatchLane} (h : PostsInv st)
    (hlanes : st'.lanes = st.lanes.insert lane next) (hdispatcher : st'.dispatcher = st.dispatcher)
    (hfailed : ∀ l ∈ st.failed, l ∈ st'.failed) (hreadId : st'.readId ≠ -1)
    (hexited : next.worker = .exited →
      next.ready = none ∧ (lane ∈ st'.failed ∨ st.dispatcher = .joining lane))
    (hterminate : next.ready = some terminateLane → st.dispatcher = .joining lane) :
    PostsInv st' where
  readId_ne := hreadId
  exited k x hk hx := by
    rw [hlanes] at hk
    rw [hdispatcher]
    rcases lookup_insert_eq_some.mp hk with ⟨rfl, rfl⟩ | ⟨-, hk⟩
    · exact hexited hx
    · exact (h.exited k x hk hx).imp_right (Or.imp_left (hfailed k))
  terminate k x hk hx := by
    rw [hlanes] at hk
    rw [hdispatcher]
    rcases lookup_insert_eq_some.mp hk with ⟨rfl, rfl⟩ | ⟨-, hk⟩
    · exact hterminate hx
    · exact h.terminate k x hk hx

theorem PostsInv.of_eq (h : PostsInv st) (hlanes : st'.lanes = st.lanes)
    (hdispatcher : st'.dispatcher = st.dispatcher) (hfailed : st'.failed = st.failed)
    (hreadId : st'.readId ≠ -1) : PostsInv st' where
  readId_ne := hreadId
  exited k x hk hx := by
    rw [hfailed, hdispatcher]
    exact h.exited k x (hlanes ▸ hk) hx
  terminate k x hk hx := by
    rw [hdispatcher]
    exact h.terminate k x (hlanes ▸ hk) hx

theorem PostsInv.post {lane op : ℕ} {next : DispatchLane} (h : PostsInv st)
    (hdispatcher : st.dispatcher = .loop) (hworker : next.worker ≠ .exited) :
    PostsInv (st.post lane op next) where
  readId_ne := h.readId_ne
  exited k x hk hx := by
    rcases DispatchState.lookup_setLane.mp hk with ⟨rfl, rfl⟩ | ⟨-, hk⟩
    · exact absurd hx hworker
    · obtain ⟨hready, hwhy⟩ := h.exited k x hk hx
      refine ⟨hready, Or.inl (hwhy.resolve_right ?_)⟩
      rw [hdispatcher]
      exact fun hjoining ↦ Dispatcher.noConfusion hjoining
  terminate k x hk hx := by
    rcases DispatchState.lookup_setLane.mp hk with ⟨rfl, rfl⟩ | ⟨-, hk⟩
    · exact if_pos (Option.some.inj hx)
    · have hjoining := h.terminate k x hk hx
      rw [hdispatcher] at hjoining
      exact absurd hjoining (by simp)

/-- The lane of a request has a worker that runs, since no handler of it has failed. -/
theorem PostsInv.worker_ne_exited {lane : ℕ} {next : DispatchLane} (h : PostsInv st)
    (hdispatcher : st.dispatcher = .loop) (hlane : lane ∉ st.failed)
    (hlookup : st.lanes.lookup lane = some next) : next.worker ≠ .exited := by
  intro hexited
  rcases (h.exited lane next hlookup hexited).2 with hfailed | hjoining
  · exact hlane hfailed
  · rw [hdispatcher] at hjoining
    exact absurd hjoining (by simp)

theorem free_ne_closed : (0 : ℤ) ≠ -1 := by decide

theorem not_inLoop_leave (st : DispatchState) : ¬ st.leave.InLoop := fun h ↦ h

theorem inLoopInv_request {id : ℤ} {lane op : ℕ} {restored : Bool} (h : InLoopInv st)
    (hsound : PostSound st (.request id lane op restored)) (hloop : st.dispatcher = .loop) :
    InLoopInv (dispatchRequest { st with readId := id } lane op restored) := by
  have hin : st.InLoop := by
    rw [DispatchState.InLoop, hloop]
    trivial
  have hinv : ∀ ready, PostsInv { st with readId := id, connectionReady := ready } :=
    fun _ ↦ (h hin).of_eq rfl rfl rfl hsound.1
  rw [dispatchRequest]
  split_ifs
  · exact fun hleft ↦ absurd hleft (not_inLoop_leave _)
  · show InLoopInv (match st.lanes.lookup lane with | none => _ | some next => _)
    cases hlookup : st.lanes.lookup lane with
    | none =>
      show InLoopInv (if maxLanes ≤ st.lanes.keys.length then _ else _)
      split_ifs
      · exact fun hleft ↦ absurd hleft (not_inLoop_leave _)
      · exact fun _ ↦ (hinv true).post hloop (by decide)
    | some next =>
      exact fun _ ↦ (hinv true).post hloop ((h hin).worker_ne_exited hloop hsound.2 hlookup)

theorem inLoopInv_take {lane op : ℕ} (h : InLoopInv st)
    (hlane : st.lanes.lookup lane = some ⟨some op, .waiting⟩) : InLoopInv (takeOp st lane op) := by
  have hdispatcher : (takeOp st lane op).dispatcher = st.dispatcher := by
    rw [takeOp]
    split_ifs <;> rfl
  intro hin
  rw [DispatchState.InLoop, hdispatcher] at hin
  have hinv := h hin
  rw [takeOp]
  split_ifs with hexit
  · -- in the loop a worker stops on the opcode only, and then its lane is being joined
    obtain rfl := hexit.resolve_left hinv.readId_ne
    have hjoining := hinv.terminate lane _ hlane rfl
    exact hinv.setLane rfl rfl (fun _ hl ↦ hl) free_ne_closed
      (fun _ ↦ ⟨rfl, Or.inr hjoining⟩) (fun _ ↦ hjoining)
  · exact hinv.setLane rfl rfl (fun _ hl ↦ hl) hinv.readId_ne (fun h ↦ absurd h (by simp))
      (fun h ↦ absurd h (by simp))

theorem inLoopInv_join (h : InLoopInv st) (hstep : dispatchStep st .join = some st') :
    InLoopInv st' := by
  obtain ⟨lane, hdispatcher, -, rfl⟩ := dispatchStep_join_cases hstep
  have hin : st.InLoop := by
    rw [DispatchState.InLoop, hdispatcher]
    trivial
  have hinv := h hin
  have hother : ∀ k, st.dispatcher = .joining k → k = lane := by
    intro k hk
    rw [hdispatcher, Dispatcher.joining.injEq] at hk
    exact hk.symm
  refine fun _ ↦ ⟨hinv.readId_ne, ?_, ?_⟩
  · intro k x hk hx
    obtain ⟨hne, hk⟩ := lookup_erase_eq_some.mp hk
    obtain ⟨hready, hwhy⟩ := hinv.exited k x hk hx
    exact ⟨hready, Or.inl (hwhy.resolve_right fun hjoining ↦ hne (hother k hjoining))⟩
  · intro k x hk hx
    obtain ⟨hne, hk⟩ := lookup_erase_eq_some.mp hk
    exact absurd (hother k (hinv.terminate k x hk hx)) hne

theorem inLoopInv_readEnd {lane : ℕ} (h : InLoopInv st)
    (hstep : dispatchStep st (.readEnd lane) = some st') : InLoopInv st' := by
  obtain ⟨ready, hlane, rfl⟩ := dispatchStep_readEnd_cases hstep
  intro hin
  have hinv := h hin
  exact hinv.setLane rfl rfl (fun _ hl ↦ hl) free_ne_closed (fun h ↦ absurd h (by simp))
    (fun h ↦ hinv.terminate lane _ hlane h)

theorem inLoopInv_finish {lane : ℕ} {succeeded : Bool} (h : InLoopInv st)
    (hsound : PostSound st (.finish lane succeeded))
    (hstep : dispatchStep st (.finish lane succeeded) = some st') : InLoopInv st' := by
  obtain ⟨ready, readEnded, hlane, ⟨-, rfl, rfl⟩ | ⟨rfl, rfl⟩⟩ := dispatchStep_finish_cases hstep
  · intro hin
    have hinv := h hin
    exact hinv.setLane rfl rfl (fun _ hl ↦ hl) hinv.readId_ne (fun h ↦ absurd h (by simp))
      (fun h ↦ hinv.terminate lane _ hlane h)
  · have hready : ready = none := by
      have hbind : (st.lanes.lookup lane).bind DispatchLane.ready = none := hsound
      rwa [hlane] at hbind
    intro hin
    have hinv := h hin
    exact hinv.setLane rfl rfl (fun _ hl ↦ List.mem_cons_of_mem _ hl) free_ne_closed
      (fun _ ↦ ⟨hready, Or.inl List.mem_cons_self⟩) (fun h ↦ hinv.terminate lane _ hlane h)

/-- **One step.** A sound step keeps what holds in the loop. -/
theorem inLoopInv_step (st : DispatchState) (a : DispatchStep) (st' : DispatchState)
    (h : InLoopInv st) (hsound : PostSound st a) (hstep : dispatchStep st a = some st') :
    InLoopInv st' := by
  cases a with
  | request id lane op restored =>
    obtain ⟨⟨hreads, -⟩, rfl⟩ := Option.ite_some_none_eq_some.mp hstep
    exact inLoopInv_request h hsound hreads.1
  | response id =>
    -- the parity of its id keeps a response apart from the mark of a closed connection
    obtain ⟨⟨-, hparity⟩, rfl⟩ := Option.ite_some_none_eq_some.mp hstep
    have hid : id ≠ -1 := by
      rintro rfl
      exact absurd hparity (by decide)
    exact fun hin ↦ (h hin).of_eq rfl rfl rfl hid
  -- these three leave the loop, and the invariant is about the loop only
  | endOfStream =>
    obtain ⟨-, rfl⟩ := Option.ite_some_none_eq_some.mp hstep
    exact fun hleft ↦ absurd hleft (not_inLoop_leave st)
  | truncated id =>
    obtain ⟨-, rfl⟩ := Option.ite_some_none_eq_some.mp hstep
    exact fun hleft ↦ absurd hleft (not_inLoop_leave st)
  | seeClosed =>
    obtain ⟨-, rfl⟩ := Option.ite_some_none_eq_some.mp hstep
    exact fun hleft ↦ absurd hleft (not_inLoop_leave st)
  | join => exact inLoopInv_join h hstep
  | take lane =>
    obtain ⟨op, hlane, rfl⟩ := dispatchStep_take_cases hstep
    exact inLoopInv_take h hlane
  | readEnd lane => exact inLoopInv_readEnd h hstep
  | finish lane succeeded => exact inLoopInv_finish h hsound hstep
  | callback id =>
    obtain rfl := Option.some.inj hstep
    exact fun hin ↦ (h hin).of_eq rfl rfl rfl (h hin).readId_ne
  | responseStart id succeeded =>
    obtain ⟨-, rfl⟩ := Option.ite_some_none_eq_some.mp hstep
    split_ifs
    · exact fun hin ↦ (h hin).of_eq rfl rfl rfl (h hin).readId_ne
    · exact fun hin ↦ (h hin).of_eq rfl rfl rfl (h hin).readId_ne
  | responseEnd id succeeded =>
    obtain ⟨-, rfl⟩ := Option.ite_some_none_eq_some.mp hstep
    split_ifs
    · exact fun hin ↦ (h hin).of_eq rfl rfl rfl free_ne_closed
    · exact fun hin ↦ (h hin).of_eq rfl rfl rfl (h hin).readId_ne
  | shutdownPost lane =>
    obtain ⟨-, -, -, -, -, -, rfl⟩ := dispatchStep_shutdownPost_cases hstep
    exact fun hin ↦ False.elim hin
  | shutdownJoin =>
    obtain ⟨-, -, -, -, rfl⟩ := dispatchStep_shutdownJoin_cases hstep
    exact fun hin ↦ False.elim hin

/-! ## Posted opcodes are taken

From each of the three places where a worker can be it gets to the opcode that is posted to it. -/

theorem taken_of_waiting {lane op : ℕ} (h : st.lanes.lookup lane = some ⟨some op, .waiting⟩) :
    st.OwnersReach (DispatchState.Taken lane) := by
  have htake : dispatchStep st (.take lane) = some (takeOp st lane op) := by
    simp only [dispatchStep, h]
  refine ownersReach_of_step rfl htake (ownersReach_self ?_)
  have hself : ∀ next : DispatchLane, next.ready = none →
      (st.setLane lane next).Taken lane := by
    intro next hready
    rw [DispatchState.Taken, DispatchState.lookup_setLane_self, Option.map_some, hready]
  rw [takeOp]
  split_ifs
  · exact hself _ rfl
  · exact hself _ rfl

theorem taken_of_finishing {lane op : ℕ}
    (h : st.lanes.lookup lane = some ⟨some op, .handling true⟩) :
    st.OwnersReach (DispatchState.Taken lane) := by
  have hstep : dispatchStep st (.finish lane true)
      = some (st.setLane lane ⟨some op, .waiting⟩) := by
    simp only [dispatchStep, h, if_true]
  exact ownersReach_of_step rfl hstep (taken_of_waiting DispatchState.lookup_setLane_self)

theorem taken_of_running {lane op : ℕ} {worker : LaneWorker}
    (h : st.lanes.lookup lane = some ⟨some op, worker⟩) (hworker : worker ≠ .exited) :
    st.OwnersReach (DispatchState.Taken lane) := by
  cases worker with
  | waiting => exact taken_of_waiting h
  | handling readEnded =>
    cases readEnded with
    | true => exact taken_of_finishing h
    | false =>
      have hstep : dispatchStep st (.readEnd lane)
          = some { st.setLane lane ⟨some op, .handling true⟩ with readId := 0 } := by
        simp only [dispatchStep, h]
      have hfinishing : (st.setLane lane ⟨some op, .handling true⟩).lanes.lookup lane
          = some ⟨some op, .handling true⟩ := DispatchState.lookup_setLane_self
      exact ownersReach_of_step rfl hstep (taken_of_finishing hfinishing)
  | exited => exact absurd rfl hworker

/-- **Posts are taken.** In every run whose steps are sound, an opcode posted in the loop is posted
to a worker that runs and goes on to take it. -/
theorem dispatch_postsAreTaken {steps : List DispatchStep}
    (hrun : (dispatchMachine.restrict PostSound).run {} steps = some st) : st.PostsAreTaken := by
  have hinv : InLoopInv st := by
    refine Machine.run_invariant _ ?_ (fun _ ↦ ?_) hrun
    · intro st a st' h hstep
      obtain ⟨hsound, hstep⟩ := Machine.step_restrict.mp hstep
      exact inLoopInv_step st a st' h hsound hstep
    · exact ⟨by decide, fun _ _ h ↦ absurd h (by simp), fun _ _ h ↦ absurd h (by simp)⟩
  intro hin lane next hlane hready
  obtain ⟨ready, worker⟩ := next
  obtain ⟨op, rfl⟩ := Option.isSome_iff_exists.mp hready
  have hworker : worker ≠ .exited := fun hexited ↦
    absurd ((hinv hin).exited lane _ hlane hexited).1 (by simp)
  exact ⟨hworker, taken_of_running hlane hworker⟩

/-- A handler fails on lane 7, and the next request is for lane 8. -/
def otherLaneSteps : List DispatchStep :=
  [.request 2 7 1 true, .take 7, .finish 7 false, .request 4 8 1 true]

theorem otherLane_postsAreTaken :
    ∃ st, (dispatchMachine.restrict PostSound).run {} otherLaneSteps = some st ∧
      st.PostsAreTaken := by
  have hsome : ((dispatchMachine.restrict PostSound).run {} otherLaneSteps).isSome := by
    decide +kernel
  obtain ⟨st, hrun⟩ := Option.isSome_iff_exists.mp hsome
  exact ⟨st, hrun, dispatch_postsAreTaken hrun⟩

/-- A handler fails on lane 7, and the next request is for lane 7 too: it is posted to a worker that
has returned, and the dispatcher waits for the stream. -/
theorem failed_lane_gets_post :
    ∃ st, dispatchMachine.run {} [.request 2 7 1 true, .take 7, .finish 7 false,
        .request 4 7 1 true] = some st ∧ st.readId = 4 ∧ ¬ st.PostsAreTaken := by
  have hview : (dispatchMachine.run {} [.request 2 7 1 true, .take 7, .finish 7 false,
      .request 4 7 1 true]).map (fun st ↦ (st.readId, st.dispatcher, st.lanes.lookup 7))
        = some (4, .loop, some ⟨some 1, .exited⟩) := by
    decide +kernel
  obtain ⟨st, hrun, heq⟩ := Option.map_eq_some_iff.mp hview
  obtain ⟨hreadId, heq⟩ := Prod.mk.inj heq
  obtain ⟨hdispatcher, hlane⟩ := Prod.mk.inj heq
  refine ⟨st, hrun, hreadId, fun htaken ↦ ?_⟩
  have hin : st.InLoop := by
    rw [DispatchState.InLoop, hdispatcher]
    trivial
  exact (htaken hin 7 _ hlane rfl).1 rfl

/-- One request, the end of the stream, and the stop of the lane. -/
def quietSteps : List DispatchStep :=
  [.request 2 7 1 true, .take 7, .readEnd 7, .finish 7 true, .endOfStream, .shutdownPost 7]

theorem quiet_released :
    ∃ st, (dispatchMachine.restrict ReservationSound).run {} quietSteps = some st ∧
      st.Released := by
  have hsome : ((dispatchMachine.restrict ReservationSound).run {} quietSteps).isSome := by
    decide +kernel
  obtain ⟨st, hrun⟩ := Option.isSome_iff_exists.mp hsome
  exact ⟨st, hrun, dispatch_released hrun⟩

/-- One request, and then one whose lane is cut off. -/
def truncatedSteps : List DispatchStep :=
  [.request 2 7 1 true, .take 7, .readEnd 7, .finish 7 true, .truncated 4]

/-- The loop ends with `read_id` set and nobody to clear it, and the shutdown waits for that before
it stops lane 7. -/
theorem truncated_keeps_reservation :
    ∃ st, dispatchMachine.run {} truncatedSteps = some st ∧ st.dispatcher = .shutdown [7] ∧
      ¬ st.Released := by
  have hids : (dispatchMachine.run {} truncatedSteps).map
      (fun st ↦ (st.readId, st.waiting, st.reading)) = some (4, [], []) := by
    decide +kernel
  have hlanes : (dispatchMachine.run {} truncatedSteps).map
      (fun st ↦ (st.dispatcher, st.lanes.keys, st.lanes.lookup 7))
        = some (.shutdown [7], [7], some {}) := by
    decide +kernel
  obtain ⟨st, hrun, heq⟩ := Option.map_eq_some_iff.mp hids
  obtain ⟨hreadId, heq⟩ := Prod.mk.inj heq
  obtain ⟨hwaiting, hreading⟩ := Prod.mk.inj heq
  rw [hrun, Option.map_some, Option.some_inj] at hlanes
  obtain ⟨hdispatcher, heq⟩ := Prod.mk.inj hlanes
  obtain ⟨hkeys, hseven⟩ := Prod.mk.inj heq
  refine ⟨st, hrun, hdispatcher, ?_⟩
  rintro (hfree | ⟨howned, -⟩)
  · rw [hreadId] at hfree
    exact absurd hfree (by decide)
  · rcases howned with ⟨lane, next, hlane, hnext⟩ | hmem | hmem
    · have hmem : lane ∈ st.lanes.keys :=
        AList.mem_keys.mp (AList.lookup_isSome.mp (by rw [hlane]; rfl))
      rw [hkeys, List.mem_singleton] at hmem
      rw [hmem, hseven, Option.some_inj] at hlane
      rw [← hlane] at hnext
      exact absurd hnext (by decide)
    · rw [hwaiting] at hmem
      exact absurd hmem List.not_mem_nil
    · rw [hreading] at hmem
      exact absurd hmem List.not_mem_nil

end Lupine
