import Lupine.Foundation.Machine
import Mathlib.Algebra.Group.Nat.Even
import Mathlib.Data.List.Count

/-!
# Request ids

Every request of a connection, and every lane termination, draws the next id: `request_id` is
stepped by two, so that the ids of the client are even and those of the server odd. It is an `int`.
Zero is how the end of a stream is read, a negative number is how `rpc_write_end` reports failure,
and a dispatcher waits for ids from 2 on. Nothing stops the counter before it gets there.

## The place of an id

The id of a request is a function of how many were drawn before. Fewer than 2^30 steps do not wrap
around, and then ids of different places differ; the next id is negative. So the number of ids that
are drawn is all that matters.
-/

namespace Lupine

open Foundation

/-- The end of a connection that draws ids. -/
inductive Side where
  | client
  | server
  deriving DecidableEq, Repr

/-- `request_id` when the connection is set up. -/
def Side.start : Side → ℤ
  | client => 0
  | server => 1

/-- Addition of an `int`, wrapping around. -/
def intAdd (a b : ℤ) : ℤ := (a + b).bmod (2 ^ 32)

/-- The test `id % 2 == 1`, with the remainder of C++: an id of the server's own requests. -/
def localParity (id : ℤ) : Bool := id.tmod 2 = 1

/-- Whether the other end takes an id for that of a request: in `client_handler` the ids of the
client, in `rpc_dispatch` those of the server. -/
def Side.taken : Side → ℤ → Bool
  | client, id => id ≠ 0 ∧ !localParity id
  | server, id => 2 ≤ id ∧ localParity id

/-- An id that was drawn: the ids that awaited a response then, whether the message was written,
and what the caller was returned. -/
structure Issued where
  id : ℤ
  awaiting : List ℤ
  written : Bool
  returned : ℤ
  deriving DecidableEq, Repr

structure IdState where
  requestId : ℤ
  awaiting : List ℤ := []
  issued : List Issued := []
  deriving DecidableEq, Repr

/-- A message is written under the lock from its start to its end, so that it is one step. -/
inductive IdStep where
  /-- `rpc_write_start_request` and `rpc_write_end` or `rpc_write_end_deferred`. -/
  | request (waits written : Bool)
  /-- `rpc_write_lane_termination`. -/
  | terminateLane (written : Bool)
  /-- The response to an awaited request was read. -/
  | response (id : ℤ)
  deriving DecidableEq, Repr

def IdStep.draws : IdStep → Bool
  | request _ _ | terminateLane _ => true
  | response _ => false

def IdState.draw (st : IdState) (waits written : Bool) (returned : ℤ → ℤ) : IdState :=
  let id := intAdd st.requestId 2
  { requestId := id
    awaiting := if waits && written then id :: st.awaiting else st.awaiting
    issued := st.issued ++ [⟨id, st.awaiting, written, if written then returned id else -1⟩] }

def idStep (st : IdState) : IdStep → Option IdState
  | .request waits written => some (st.draw waits written id)
  | .terminateLane written => some (st.draw false written fun _ ↦ 0)
  | .response id =>
    if id ∈ st.awaiting then some { st with awaiting := st.awaiting.erase id } else none

def idMachine : Machine IdState IdStep where
  step := idStep

/-- An id as it should be: positive, of its side's parity, taken for a request by the other end, not
that of a request that awaits its response, and not a failure to the caller. -/
structure Issued.Sound (side : Side) (e : Issued) : Prop where
  positive : 0 < e.id
  parity : e.id % 2 = side.start
  taken : side.taken e.id
  fresh : e.id ∉ e.awaiting
  returned : e.written → 0 ≤ e.returned

/-! ## The ids in order

The counter steps by two from its start value. -/

/-- The id that is drawn after `n` others, counted from the start value. -/
def idAt (side : Side) (n : ℕ) : ℤ := (side.start + 2 * n).bmod (2 ^ 32)

theorem intAdd_idAt (side : Side) (n : ℕ) : intAdd (idAt side n) 2 = idAt side (n + 1) := by
  rw [intAdd, idAt, idAt, Int.bmod_add_bmod]
  congr 1
  omega

theorem idAt_of_lt (side : Side) {n : ℕ} (h : n < 2 ^ 30) : idAt side n = side.start + 2 * n := by
  rw [idAt]
  cases side with
  | client => exact Int.bmod_eq_of_le (by simp [Side.start]; omega) (by simp [Side.start]; omega)
  | server => exact Int.bmod_eq_of_le (by simp [Side.start]; omega) (by simp [Side.start]; omega)

/-- The next one is negative. -/
theorem idAt_limit (side : Side) : idAt side (2 ^ 30) < 0 := by
  cases side <;> decide

/-- **Fewer than 2^30 ids.** They are positive, of their side's parity and taken for requests. -/
theorem idAt_sound (side : Side) {n : ℕ} (hpos : 0 < n) (h : n < 2 ^ 30) :
    0 < idAt side n ∧ idAt side n % 2 = side.start ∧ side.taken (idAt side n) := by
  rw [idAt_of_lt side h]
  have hparity : ∀ k : ℕ, localParity (k : ℤ) = decide (k % 2 = 1) := by
    intro k
    rw [localParity, Int.tmod_eq_emod_of_nonneg (Int.natCast_nonneg k)]
    exact decide_eq_decide.mpr (by omega)
  cases side with
  | client =>
    have hcast : Side.client.start + 2 * (n : ℤ) = ((2 * n : ℕ) : ℤ) := by
      rw [Side.start]
      omega
    rw [hcast]
    refine ⟨by omega, by rw [Side.start]; omega, ?_⟩
    rw [Side.taken, hparity]
    simp
    omega
  | server =>
    have hcast : Side.server.start + 2 * (n : ℤ) = ((2 * n + 1 : ℕ) : ℤ) := by
      rw [Side.start]
      omega
    rw [hcast]
    refine ⟨by omega, by rw [Side.start]; omega, ?_⟩
    rw [Side.taken, hparity]
    simp
    omega

/-! ## The invariant

The ids that await a response were drawn before, so they are those of earlier places. -/

/-- An id drawn after `n` others: the ids it meets were drawn before. -/
structure Issued.DrawnAt (side : Side) (n : ℕ) (e : Issued) : Prop where
  id_eq : e.id = idAt side (n + 1)
  awaiting : ∀ a ∈ e.awaiting, ∃ j < n, a = idAt side (j + 1)
  returned : e.written → e.returned = e.id ∨ e.returned = 0

/-- Every id is the one of its place. -/
structure IdsInOrder (side : Side) (st : IdState) : Prop where
  requestId : st.requestId = idAt side st.issued.length
  awaiting : ∀ a ∈ st.awaiting, ∃ j < st.issued.length, a = idAt side (j + 1)
  issued : ∀ (n : ℕ) (e : Issued), st.issued[n]? = some e → e.DrawnAt side n

variable {side : Side} {st st' : IdState}

theorem idsInOrder_draw (h : IdsInOrder side st) (waits written : Bool) {returned : ℤ → ℤ}
    (hreturned : ∀ id, returned id = id ∨ returned id = 0) :
    IdsInOrder side (st.draw waits written returned) := by
  have hid : intAdd st.requestId 2 = idAt side (st.issued.length + 1) := by
    rw [h.requestId, intAdd_idAt]
  have hlength : (st.draw waits written returned).issued.length = st.issued.length + 1 := by
    rw [IdState.draw, List.length_append, List.length_singleton]
  have hlater : ∀ a ∈ st.awaiting, ∃ j < st.issued.length + 1, a = idAt side (j + 1) := by
    intro a ha
    obtain ⟨j, hj, hja⟩ := h.awaiting a ha
    exact ⟨j, by omega, hja⟩
  refine ⟨by rw [hlength]; exact hid, ?_, ?_⟩
  · rw [hlength]
    intro a ha
    rw [IdState.draw] at ha
    by_cases hwaits : waits && written
    · simp only [if_pos hwaits] at ha
      rcases List.mem_cons.mp ha with rfl | ha
      · exact ⟨st.issued.length, by omega, hid⟩
      · exact hlater a ha
    · simp only [if_neg hwaits] at ha
      exact hlater a ha
  · intro n e he
    rw [IdState.draw, List.getElem?_append] at he
    by_cases hn : n < st.issued.length
    · rw [if_pos hn] at he
      exact h.issued n e he
    · rw [if_neg hn, List.getElem?_singleton] at he
      by_cases hzero : n - st.issued.length = 0
      · rw [if_pos hzero, Option.some_inj] at he
        obtain rfl : n = st.issued.length := by omega
        rw [← he]
        refine ⟨hid, h.awaiting, fun hwritten ↦ ?_⟩
        simp only [if_pos hwritten]
        exact hreturned _
      · rw [if_neg hzero] at he
        exact absurd he (by simp)

theorem idsInOrder_step (st : IdState) (a : IdStep) (st' : IdState) (h : IdsInOrder side st)
    (hstep : idStep st a = some st') : IdsInOrder side st' := by
  cases a with
  | request waits written =>
    obtain rfl := Option.some.inj hstep
    exact idsInOrder_draw h waits written fun _ ↦ Or.inl rfl
  | terminateLane written =>
    obtain rfl := Option.some.inj hstep
    exact idsInOrder_draw h false written fun _ ↦ Or.inr rfl
  | response id =>
    rw [idStep] at hstep
    split_ifs at hstep
    obtain rfl := Option.some.inj hstep
    exact ⟨h.requestId, fun a ha ↦ h.awaiting a (List.mem_of_mem_erase ha), h.issued⟩

theorem idsInOrder_run {steps : List IdStep}
    (hrun : idMachine.run { requestId := side.start } steps = some st) : IdsInOrder side st := by
  refine Machine.run_invariant _ idsInOrder_step ⟨?_, ?_, ?_⟩ hrun
  · rw [List.length_nil, idAt_of_lt side (by decide)]
    exact (Int.add_zero _).symm
  · exact fun a ha ↦ absurd ha List.not_mem_nil
  · exact fun n e he ↦ absurd he (by simp)

theorem length_issued_run {steps : List IdStep} (hrun : idMachine.run st steps = some st') :
    st'.issued.length = st.issued.length + steps.countP IdStep.draws := by
  induction steps generalizing st with
  | nil =>
    obtain rfl := Option.some.inj hrun
    rfl
  | cons a steps ih =>
    rw [Machine.run_cons] at hrun
    obtain ⟨st₁, hstep, hrun⟩ := Option.bind_eq_some_iff.mp hrun
    rw [ih hrun, List.countP_cons]
    have hone : st₁.issued.length = st.issued.length + if a.draws then 1 else 0 := by
      cases a with
      | request waits written =>
        obtain rfl := Option.some.inj hstep
        exact List.length_append
      | terminateLane written =>
        obtain rfl := Option.some.inj hstep
        exact List.length_append
      | response id =>
        replace hstep : idStep st (.response id) = some st₁ := hstep
        rw [idStep] at hstep
        split_ifs at hstep
        obtain rfl := Option.some.inj hstep
        rfl
    omega

theorem Issued.DrawnAt.sound {n : ℕ} {e : Issued} (h : e.DrawnAt side n) (hn : n + 1 < 2 ^ 30) :
    e.Sound side := by
  obtain ⟨hpos, hparity, htaken⟩ := idAt_sound side n.succ_pos hn
  rw [Nat.succ_eq_add_one, ← h.id_eq] at hpos hparity htaken
  refine ⟨hpos, hparity, htaken, fun hmem ↦ ?_, fun hwritten ↦ ?_⟩
  · -- an earlier id is smaller, as there was no wrap
    obtain ⟨j, hj, heq⟩ := h.awaiting _ hmem
    rw [h.id_eq, idAt_of_lt side hn, idAt_of_lt side (by omega)] at heq
    omega
  · rcases h.returned hwritten with heq | heq
    · omega
    · omega

/-- **The ids of a connection.** All ids that one end draws are as they should be if and only if it
draws fewer than 2^30 of them. -/
theorem requestIds_sound_iff (side : Side) {steps : List IdStep}
    (hrun : idMachine.run { requestId := side.start } steps = some st) :
    (∀ e ∈ st.issued, e.Sound side) ↔ steps.countP IdStep.draws < 2 ^ 30 := by
  have horder := idsInOrder_run hrun
  have hlength := length_issued_run hrun
  rw [List.length_nil, Nat.zero_add] at hlength
  rw [← hlength]
  constructor
  · intro hsound
    by_contra hmany
    obtain ⟨e, he⟩ : ∃ e, st.issued[2 ^ 30 - 1]? = some e :=
      ⟨_, List.getElem?_eq_getElem (by omega)⟩
    have hpos := (hsound e (List.mem_of_getElem? he)).positive
    rw [(horder.issued _ e he).id_eq] at hpos
    exact Int.lt_asymm hpos (idAt_limit side)
  · intro hfew e he
    obtain ⟨n, hn, rfl⟩ := List.getElem_of_mem he
    exact (horder.issued n _ (List.getElem?_eq_getElem hn)).sound (by omega)

/-- A request, its response, a request that nobody waits for and a lane termination. -/
theorem requestIds_sound_iff_four :
    ∃ st, idMachine.run { requestId := Side.client.start }
        [.request true true, .response 2, .request false true, .terminateLane true] = some st ∧
      ((∀ e ∈ st.issued, e.Sound .client) ↔
        [IdStep.request true true, .response 2, .request false true, .terminateLane true].countP
          IdStep.draws < 2 ^ 30) :=
  ⟨_, rfl, requestIds_sound_iff .client rfl⟩

theorem run_requests (st : IdState) (n : ℕ) :
    ∃ st', idMachine.run st (List.replicate n (.request true true)) = some st' := by
  induction n generalizing st with
  | zero => exact ⟨st, rfl⟩
  | succ n ih =>
    obtain ⟨st', hrun⟩ := ih (st.draw true true id)
    exact ⟨st', hrun⟩

/-- The request number 2^30 of a client has a negative id. -/
theorem request_id_wraps :
    ∃ st, idMachine.run { requestId := Side.client.start }
        (List.replicate (2 ^ 30) (.request true true)) = some st ∧
      ∃ e ∈ st.issued, e.id < 0 ∧ ¬ e.Sound .client := by
  obtain ⟨st, hrun⟩ := run_requests { requestId := Side.client.start } (2 ^ 30)
  have hlength := length_issued_run hrun
  rw [List.countP_replicate, List.length_nil, Nat.zero_add] at hlength
  have hlength : st.issued.length = 2 ^ 30 := hlength
  obtain ⟨e, he⟩ : ∃ e, st.issued[2 ^ 30 - 1]? = some e :=
    ⟨_, List.getElem?_eq_getElem (by omega)⟩
  have hneg : e.id < 0 := by
    rw [((idsInOrder_run hrun).issued _ e he).id_eq]
    exact idAt_limit .client
  exact ⟨st, hrun, e, List.mem_of_getElem? he, hneg, fun hsound ↦
    Int.lt_asymm hsound.positive hneg⟩

end Lupine
