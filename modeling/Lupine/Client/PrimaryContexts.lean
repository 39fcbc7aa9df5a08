import Lupine.Cuda
import Lupine.Foundation.Machine
import Lupine.Foundation.PointerTable

/-!
# The state of a primary context

`cuDevicePrimaryCtxGetState` is asked so often that its answer is kept, one for each device, until
one of the four calls that change it: retain, release, reset and set-flags. Such a call drops the
entry *before* its round trip. A query of another thread can be answered by the server before the
change and store its answer after the entry was dropped, and the entry then outlives the change.

What the client does is taken apart into the steps that another thread can come between: the lookup,
the request, its execution by the server, the answer, the store and the return. The model is of one
device; the calls on the others do not touch its entry.

## Numbers of changes

The states of the device are numbered by the changes that the server has executed. A query knows how
many there were when it began, and its answer is right if it is one of the states from then on.
While a call that changes the state is on its way, its entry is dropped and none may be stored; the
invariant says that an entry is what the server would answer now, and that no change that dropped it
is yet to be executed.
-/

open Foundation

namespace Lupine

/-- `lupine_primary_ctx_state`. -/
structure PrimaryCtxState where
  flags : ℕ := 0
  active : ℤ := 0
  deriving DecidableEq, Repr

inductive PrimaryMutator where
  | retain
  | release
  | reset
  | setFlags (flags : ℕ)
  deriving DecidableEq, Repr

/-- The driver that serves the device. A call that it refuses may change its state or not. -/
structure PrimaryDriver where
  State : Type
  apply : PrimaryMutator → State → State
  getState : State → CUresult × PrimaryCtxState

/-- What a thread is in the middle of. A query remembers how far the device had come when it began,
and whether both of its pointers can be written. -/
inductive PrimaryCall where
  /-- The entry is dropped, and the server has not executed the call. -/
  | mutating (mutator : PrimaryMutator)
  /-- The server has executed the call, as the change with this number. -/
  | mutated (index : ℕ)
  | querying (since : ℕ) (both : Bool)
  /-- The lookup found nothing. -/
  | asking (since : ℕ) (both : Bool)
  | answered (since : ℕ) (both : Bool) (result : CUresult) (value : PrimaryCtxState)
  deriving DecidableEq, Repr

namespace PrimaryCall

/-- The entry is dropped and the change is yet to come. -/
def isMutating : PrimaryCall → Bool
  | mutating _ => true
  | mutated _ | querying .. | asking .. | answered .. => false

/-- What the call leaves in the cache when it returns. -/
def stored? (isLocal : Bool) : PrimaryCall → Option PrimaryCtxState
  | answered _ both result value =>
    if result = .success ∧ both ∧ !isLocal then some value else none
  | mutating _ | mutated _ | querying .. | asking .. => none

end PrimaryCall

structure PrimaryAnswer where
  since : ℕ
  result : CUresult
  value : PrimaryCtxState
  deriving DecidableEq, Repr

variable (driver : PrimaryDriver)

structure PrimaryClient where
  /-- The states the device has been in, the oldest in front, and the one it is in. -/
  before : List driver.State := []
  now : driver.State
  /-- The entry in `lupine_primary_ctx_state_cache`. -/
  cache : Option PrimaryCtxState := none
  threads : AList fun _ : ℕ ↦ PrimaryCall := ∅
  /-- Calls the client has given up and the server may still execute. -/
  lost : List PrimaryMutator := []
  /-- The last change whose call has returned. -/
  returned : ℕ := 0
  answers : List PrimaryAnswer := []

inductive PrimaryStep where
  /-- A call that changes the state drops the entry. -/
  | mutate (t : ℕ) (mutator : PrimaryMutator)
  | execute (t : ℕ)
  | mutateReturn (t : ℕ)
  /-- The transport fails. -/
  | mutateFail (t : ℕ)
  | executeLost (i : ℕ)
  | query (t : ℕ) (both : Bool)
  /-- The lookup in the cache. -/
  | find (t : ℕ)
  /-- The server answers. -/
  | answer (t : ℕ)
  /-- The answer is kept and returned. -/
  | store (t : ℕ)
  | queryFail (t : ℕ)
  deriving DecidableEq, Repr

variable {driver}

namespace PrimaryClient

variable (st : PrimaryClient driver)

/-- The states of the device, numbered by the changes. -/
def states : List driver.State := st.before ++ [st.now]

def change (mutator : PrimaryMutator) : PrimaryClient driver :=
  { st with before := st.states, now := driver.apply mutator st.now }

def respond (t since : ℕ) (result : CUresult) (value : PrimaryCtxState) : PrimaryClient driver :=
  { st with threads := st.threads.erase t, answers := ⟨since, result, value⟩ :: st.answers }

/-- No call has dropped the entry without having been executed. -/
def Unchallenged : Prop :=
  st.lost = [] ∧ ∀ t ∈ st.threads.keys, (st.threads.lookup t).all (!·.isMutating)

instance : Decidable st.Unchallenged := inferInstanceAs (Decidable (_ ∧ _))

end PrimaryClient

def primaryStep (isLocal : Bool) (st : PrimaryClient driver) :
    PrimaryStep → Option (PrimaryClient driver)
  | .mutate t mutator =>
    if st.threads.lookup t = none then
      some { st with cache := none, threads := st.threads.insert t (.mutating mutator) }
    else none
  | .execute t =>
    match st.threads.lookup t with
    | some (.mutating mutator) =>
      some { st.change mutator with
        threads := st.threads.insert t (.mutated (st.before.length + 1)) }
    | _ => none
  | .mutateReturn t =>
    match st.threads.lookup t with
    | some (.mutated index) =>
      some { st with threads := st.threads.erase t, returned := max st.returned index }
    | _ => none
  | .mutateFail t =>
    match st.threads.lookup t with
    | some (.mutating mutator) =>
      some { st with threads := st.threads.erase t, lost := mutator :: st.lost }
    | _ => none
  | .executeLost i =>
    match st.lost[i]? with
    | some mutator => some { st.change mutator with lost := st.lost.eraseIdx i }
    | none => none
  | .query t both =>
    if st.threads.lookup t = none then
      some { st with threads := st.threads.insert t (.querying st.returned both) }
    else none
  | .find t =>
    match st.threads.lookup t with
    | some (.querying since both) =>
      -- a local driver is called before the cache is looked at
      match (if both ∧ !isLocal then st.cache else none) with
      | some value => some (st.respond t since .success value)
      | none => some { st with threads := st.threads.insert t (.asking since both) }
    | _ => none
  | .answer t =>
    match st.threads.lookup t with
    | some (.asking since both) =>
      let (result, value) := driver.getState st.now
      some { st with threads := st.threads.insert t (.answered since both result value) }
    | _ => none
  | .store t =>
    match st.threads.lookup t with
    | some (.answered since both result value) =>
      some { st.respond t since result value with
        cache := (PrimaryCall.stored? isLocal (.answered since both result value)).or st.cache }
    | _ => none
  | .queryFail t =>
    match st.threads.lookup t with
    | some (.asking _ _) | some (.answered ..) => some { st with threads := st.threads.erase t }
    | _ => none

/-- The calls of the threads on one device, which is local or not. -/
def primaryMachine (driver : PrimaryDriver) (isLocal : Bool) :
    Machine (PrimaryClient driver) PrimaryStep := ⟨primaryStep isLocal⟩

/-- A step that stores an answer stores what the server would answer now, and no change that has
dropped the entry is yet to come. -/
def StoresCurrent (isLocal : Bool) (st : PrimaryClient driver) : PrimaryStep → Prop
  | .store t => ∀ value ∈ (st.threads.lookup t).bind (·.stored? isLocal),
    driver.getState st.now = (.success, value) ∧ st.Unchallenged
  | _ => True

instance (isLocal : Bool) (st : PrimaryClient driver) (step : PrimaryStep) :
    Decidable (StoresCurrent isLocal st step) :=
  match step with
  | .store t => inferInstanceAs (Decidable (∀ value ∈
      (st.threads.lookup t).bind (·.stored? isLocal),
        driver.getState st.now = (.success, value) ∧ st.Unchallenged))
  | .mutate .. | .execute _ | .mutateReturn _ | .mutateFail _ | .executeLost _ | .query .. | .find _
  | .answer _ | .queryFail _ => inferInstanceAs (Decidable True)

/-! ## What the answers are

The device only gains states, so what a call remembers stays right. A call that is no change, or
one that has been executed, takes the place of another without a challenge to the entry. -/

/-- The device was in a state that the query could have met: not before the change `since`, and one
in which the driver says so. -/
def Reports (states : List driver.State) (since : ℕ) (result : CUresult) (value : PrimaryCtxState) :
    Prop :=
  ∃ index state, since ≤ index ∧ states[index]? = some state ∧
    driver.getState state = (result, value)

theorem Reports.mono {states states' : List driver.State} {since : ℕ} {result : CUresult}
    {value : PrimaryCtxState} (h : Reports states since result value)
    (hgrows : states <+: states') : Reports states' since result value := by
  obtain ⟨index, state, hsince, hstate, hreports⟩ := h
  obtain ⟨later, rfl⟩ := hgrows
  have hlt : index < states.length := (List.getElem?_eq_some_iff.mp hstate).1
  exact ⟨index, state, hsince, (List.getElem?_append_left hlt).trans hstate, hreports⟩

/-- The present state answers every query. -/
theorem PrimaryClient.reports_now (st : PrimaryClient driver) {since : ℕ} {result : CUresult}
    {value : PrimaryCtxState} (hsince : since ≤ st.before.length)
    (hnow : driver.getState st.now = (result, value)) : Reports st.states since result value :=
  ⟨st.before.length, st.now, hsince, List.getElem?_concat_length, hnow⟩

/-- What a call remembers is right. -/
def PrimaryCall.Ok (st : PrimaryClient driver) : PrimaryCall → Prop
  | mutating _ => True
  | mutated index => index ≤ st.before.length
  | querying since _ | asking since _ => since ≤ st.before.length
  | answered since _ result value => Reports st.states since result value

/-- The entry is what the server would answer, and no change is on its way that has already dropped
it. -/
structure PrimaryInv (st : PrimaryClient driver) : Prop where
  cache : ∀ value, st.cache = some value →
    driver.getState st.now = (.success, value) ∧ st.Unchallenged
  returned : st.returned ≤ st.before.length
  calls : ∀ t call, st.threads.lookup t = some call → call.Ok st
  answers : ∀ answer ∈ st.answers, Reports st.states answer.since answer.result answer.value

variable {st st' : PrimaryClient driver} {isLocal : Bool}

theorem PrimaryClient.length_states (st : PrimaryClient driver) :
    st.states.length = st.before.length + 1 := List.length_append

theorem PrimaryClient.states_change (st : PrimaryClient driver) (mutator : PrimaryMutator) :
    st.states <+: (st.change mutator).states := List.prefix_append _ _

theorem PrimaryClient.length_before_le (hgrows : st.states <+: st'.states) :
    st.before.length ≤ st'.before.length := by
  have hle := hgrows.length_le
  rw [st.length_states, st'.length_states] at hle
  exact Nat.le_of_succ_le_succ hle

theorem PrimaryCall.Ok.mono {call : PrimaryCall} (h : call.Ok st)
    (hgrows : st.states <+: st'.states) : call.Ok st' := by
  have hle := PrimaryClient.length_before_le hgrows
  cases call with
  | mutating _ => trivial
  | mutated _ => exact Nat.le_trans h hle
  | querying _ _ => exact Nat.le_trans h hle
  | asking _ _ => exact Nat.le_trans h hle
  | answered _ _ _ _ => exact Reports.mono h hgrows

namespace PrimaryClient

theorem unchallenged_iff : st.Unchallenged ↔ st.lost = [] ∧
    ∀ t call, st.threads.lookup t = some call → call.isMutating = false := by
  refine and_congr_right fun _ ↦ ⟨fun h t call hcall ↦ ?_, fun h t _ ↦ ?_⟩
  · have hall := h t (mem_keys_of_lookup hcall)
    rw [hcall] at hall
    exact Bool.not_eq_true' _ ▸ hall
  · cases hcall : st.threads.lookup t with
    | none => rfl
    | some call => rw [Option.all_some, h t call hcall, Bool.not_false]

theorem Unchallenged.insert (h : st.Unchallenged) {t : ℕ} {call : PrimaryCall}
    (hcall : call.isMutating = false) (hlost : st'.lost = st.lost)
    (hthreads : st'.threads = st.threads.insert t call) : st'.Unchallenged := by
  obtain ⟨hnone, hall⟩ := unchallenged_iff.mp h
  refine unchallenged_iff.mpr ⟨hlost.trans hnone, fun t' call' hcall' ↦ ?_⟩
  rw [hthreads] at hcall'
  rcases lookup_insert_eq_some.mp hcall' with ⟨-, rfl⟩ | ⟨-, hold⟩
  · exact hcall
  · exact hall t' call' hold

theorem Unchallenged.erase (h : st.Unchallenged) {t : ℕ} (hlost : st'.lost = st.lost)
    (hthreads : st'.threads = st.threads.erase t) : st'.Unchallenged := by
  obtain ⟨hnone, hall⟩ := unchallenged_iff.mp h
  refine unchallenged_iff.mpr ⟨hlost.trans hnone, fun t' call' hcall' ↦ ?_⟩
  rw [hthreads] at hcall'
  exact hall t' call' (lookup_erase_eq_some.mp hcall').2

end PrimaryClient

namespace PrimaryInv

theorem init (now : driver.State) : PrimaryInv ({ now } : PrimaryClient driver) where
  cache _ h := nomatch h
  returned := Nat.zero_le _
  calls _ _ h := nomatch h
  answers _ h := nomatch h

theorem calls_insert (h : PrimaryInv st) (hgrows : st.states <+: st'.states) {t : ℕ}
    (call : PrimaryCall) (hcall : call.Ok st') (hthreads : st'.threads = st.threads.insert t call) :
    ∀ t' call', st'.threads.lookup t' = some call' → call'.Ok st' := by
  intro t' call' hlookup
  rw [hthreads] at hlookup
  rcases lookup_insert_eq_some.mp hlookup with ⟨-, rfl⟩ | ⟨-, hold⟩
  · exact hcall
  · exact (h.calls t' call' hold).mono hgrows

theorem calls_erase (h : PrimaryInv st) (hgrows : st.states <+: st'.states) {t : ℕ}
    (hthreads : st'.threads = st.threads.erase t) :
    ∀ t' call', st'.threads.lookup t' = some call' → call'.Ok st' := by
  intro t' call' hlookup
  rw [hthreads] at hlookup
  exact (h.calls t' call' (lookup_erase_eq_some.mp hlookup).2).mono hgrows

/-- While a change is on its way there is no entry. -/
theorem cache_of_mutating (h : PrimaryInv st) {t : ℕ} {mutator : PrimaryMutator}
    (hcall : st.threads.lookup t = some (.mutating mutator)) : st.cache = none := by
  rw [Option.eq_none_iff_forall_not_mem]
  intro value hvalue
  have hall := (PrimaryClient.unchallenged_iff.mp (h.cache value hvalue).2).2
  exact Bool.noConfusion (hall t _ hcall)

theorem cache_of_lost (h : PrimaryInv st) {i : ℕ} {mutator : PrimaryMutator}
    (hlost : st.lost[i]? = some mutator) : st.cache = none := by
  rw [Option.eq_none_iff_forall_not_mem]
  intro value hvalue
  rw [(h.cache value hvalue).2.1] at hlost
  exact nomatch hlost

theorem insert (h : PrimaryInv st) {t : ℕ} {call : PrimaryCall} (hok : call.Ok st)
    (hcall : call.isMutating = false) :
    PrimaryInv { st with threads := st.threads.insert t call } where
  cache value hvalue :=
    ⟨(h.cache value hvalue).1, (h.cache value hvalue).2.insert hcall rfl rfl⟩
  returned := h.returned
  calls := h.calls_insert (List.prefix_refl _) call (hok.mono (List.prefix_refl _)) rfl
  answers := h.answers

theorem mutate (h : PrimaryInv st) (t : ℕ) (mutator : PrimaryMutator) : PrimaryInv
    { st with cache := none, threads := st.threads.insert t (.mutating mutator) } where
  cache _ hvalue := nomatch hvalue
  returned := h.returned
  calls := h.calls_insert (List.prefix_refl _) (.mutating mutator) trivial rfl
  answers := h.answers

theorem execute (h : PrimaryInv st) {t : ℕ} {mutator : PrimaryMutator}
    (hcall : st.threads.lookup t = some (.mutating mutator)) : PrimaryInv
      { st.change mutator with
        threads := st.threads.insert t (.mutated (st.before.length + 1)) } where
  cache value hvalue := absurd ((h.cache_of_mutating hcall).symm.trans hvalue) (by simp)
  returned := Nat.le_trans h.returned (PrimaryClient.length_before_le (st.states_change mutator))
  calls := h.calls_insert (st.states_change mutator) (.mutated _)
    (Nat.le_of_eq st.length_states.symm) rfl
  answers answer hanswer := (h.answers answer hanswer).mono (st.states_change mutator)

theorem executeLost (h : PrimaryInv st) {i : ℕ} {mutator : PrimaryMutator}
    (hlost : st.lost[i]? = some mutator) :
    PrimaryInv { st.change mutator with lost := st.lost.eraseIdx i } where
  cache value hvalue := absurd ((h.cache_of_lost hlost).symm.trans hvalue) (by simp)
  returned := Nat.le_trans h.returned (PrimaryClient.length_before_le (st.states_change mutator))
  calls t call hcall := (h.calls t call hcall).mono (st.states_change mutator)
  answers answer hanswer := (h.answers answer hanswer).mono (st.states_change mutator)

theorem mutateReturn (h : PrimaryInv st) {t index : ℕ}
    (hcall : st.threads.lookup t = some (.mutated index)) : PrimaryInv
      { st with threads := st.threads.erase t, returned := max st.returned index } where
  cache value hvalue := ⟨(h.cache value hvalue).1, (h.cache value hvalue).2.erase rfl rfl⟩
  returned := Nat.max_le.mpr ⟨h.returned, h.calls t _ hcall⟩
  calls := h.calls_erase (List.prefix_refl _) rfl
  answers := h.answers

theorem mutateFail (h : PrimaryInv st) {t : ℕ} {mutator : PrimaryMutator}
    (hcall : st.threads.lookup t = some (.mutating mutator)) : PrimaryInv
      { st with threads := st.threads.erase t, lost := mutator :: st.lost } where
  cache value hvalue := absurd ((h.cache_of_mutating hcall).symm.trans hvalue) (by simp)
  returned := h.returned
  calls := h.calls_erase (List.prefix_refl _) rfl
  answers := h.answers

theorem respond (h : PrimaryInv st) {t since : ℕ} {result : CUresult} {value : PrimaryCtxState}
    (hreports : Reports st.states since result value) :
    PrimaryInv (st.respond t since result value) where
  cache value hvalue := ⟨(h.cache value hvalue).1, (h.cache value hvalue).2.erase rfl rfl⟩
  returned := h.returned
  calls := h.calls_erase (List.prefix_refl _) rfl
  answers answer hanswer := by
    rcases List.mem_cons.mp hanswer with rfl | hanswer
    · exact hreports
    · exact h.answers answer hanswer

/-- An answer is stored when it is what the server would answer. -/
theorem store (h : PrimaryInv st) {stored? : Option PrimaryCtxState}
    (hcurrent : ∀ value ∈ stored?, driver.getState st.now = (.success, value) ∧ st.Unchallenged) :
    PrimaryInv { st with cache := stored?.or st.cache } where
  cache value hvalue := by
    rcases Option.or_eq_some_iff.mp hvalue with hnew | ⟨-, hold⟩
    · exact hcurrent value hnew
    · exact h.cache value hold
  returned := h.returned
  calls t call hcall := (h.calls t call hcall).mono (List.prefix_refl _)
  answers := h.answers

theorem erase (h : PrimaryInv st) (t : ℕ) :
    PrimaryInv { st with threads := st.threads.erase t } where
  cache value hvalue := ⟨(h.cache value hvalue).1, (h.cache value hvalue).2.erase rfl rfl⟩
  returned := h.returned
  calls := h.calls_erase (List.prefix_refl _) rfl
  answers := h.answers

theorem step (h : PrimaryInv st) {step : PrimaryStep} (hok : StoresCurrent isLocal st step)
    (hstep : primaryStep isLocal st step = some st') : PrimaryInv st' := by
  cases step with
  | mutate t mutator =>
    obtain ⟨-, rfl⟩ := Option.ite_some_none_eq_some.mp hstep
    exact h.mutate t mutator
  | execute t =>
    simp only [primaryStep] at hstep
    split at hstep
    next mutator hcall =>
      obtain rfl := Option.some.inj hstep
      exact h.execute hcall
    next => exact nomatch hstep
  | mutateReturn t =>
    simp only [primaryStep] at hstep
    split at hstep
    next index hcall =>
      obtain rfl := Option.some.inj hstep
      exact h.mutateReturn hcall
    next => exact nomatch hstep
  | mutateFail t =>
    simp only [primaryStep] at hstep
    split at hstep
    next mutator hcall =>
      obtain rfl := Option.some.inj hstep
      exact h.mutateFail hcall
    next => exact nomatch hstep
  | executeLost i =>
    simp only [primaryStep] at hstep
    split at hstep
    next mutator hlost =>
      obtain rfl := Option.some.inj hstep
      exact h.executeLost hlost
    next => exact nomatch hstep
  | query t both =>
    obtain ⟨-, rfl⟩ := Option.ite_some_none_eq_some.mp hstep
    -- a query may answer with any state from its beginning on
    exact h.insert h.returned rfl
  | find t =>
    simp only [primaryStep] at hstep
    split at hstep
    next since both hcall =>
      -- what is cached is the state right now, which is not older than the query
      have hsince : since ≤ st.before.length := h.calls t _ hcall
      split at hstep
      next value hfound =>
        obtain rfl := Option.some.inj hstep
        obtain ⟨-, hcached⟩ := Option.ite_none_right_eq_some.mp hfound
        exact h.respond (st.reports_now hsince (h.cache value hcached).1)
      next =>
        obtain rfl := Option.some.inj hstep
        exact h.insert hsince rfl
    next => exact nomatch hstep
  | answer t =>
    simp only [primaryStep] at hstep
    split at hstep
    next since both hcall =>
      obtain rfl := Option.some.inj hstep
      exact h.insert (st.reports_now (h.calls t _ hcall) rfl) rfl
    next => exact nomatch hstep
  | store t =>
    simp only [primaryStep] at hstep
    split at hstep
    next since both result value hcall =>
      obtain rfl := Option.some.inj hstep
      -- by the condition, what is stored is still the case
      rw [StoresCurrent, hcall, Option.bind_some] at hok
      exact (h.store hok).respond (h.calls t _ hcall)
    next => exact nomatch hstep
  | queryFail t =>
    simp only [primaryStep] at hstep
    split at hstep
    next =>
      obtain rfl := Option.some.inj hstep
      exact h.erase t
    next =>
      obtain rfl := Option.some.inj hstep
      exact h.erase t
    next => exact nomatch hstep

end PrimaryInv

/-- **The state of a primary context.** In every run that stores no answer older than a change, a
query that begins after a change has returned reports the state after it, or a later one. -/
theorem primaryCtxGetState_reports (driver : PrimaryDriver) (isLocal : Bool) (now : driver.State)
    (steps : List PrimaryStep) (st : PrimaryClient driver)
    (hrun : ((primaryMachine driver isLocal).restrict (StoresCurrent isLocal)).run { now } steps
      = some st) :
    ∀ answer ∈ st.answers, Reports st.states answer.since answer.result answer.value := by
  have hinv : PrimaryInv st := by
    refine Machine.run_invariant _ (fun s a s' hs hstep ↦ ?_) (PrimaryInv.init now) hrun
    obtain ⟨hok, hstep⟩ := Machine.step_restrict.mp hstep
    exact hs.step hok hstep
  exact hinv.answers

/-- A driver that counts the references and keeps the flags. -/
def countingDriver : PrimaryDriver where
  State := ℕ × ℕ
  apply
    | .retain, (count, flags) => (count + 1, flags)
    | .release, (count, flags) => (count - 1, flags)
    | .reset, (_, flags) => (0, flags)
    | .setFlags flags, (count, _) => (count, flags)
  getState := fun (count, flags) ↦ (.success, ⟨flags, if count = 0 then 0 else 1⟩)

/-- A query, a change and two more queries, the last of which the cache answers. -/
def queriedAroundRetain : List PrimaryStep :=
  [.query 1 true, .find 1, .answer 1, .store 1, .mutate 2 .retain, .execute 2, .mutateReturn 2,
    .query 1 true, .find 1, .answer 1, .store 1, .query 1 true, .find 1]

theorem primaryCtxGetState_reports_queriedAroundRetain :
    ∃ st, ((primaryMachine countingDriver false).restrict (StoresCurrent false)).run
        { now := (0, 0) } queriedAroundRetain = some st ∧
      st.answers.map (·.value.active) = [1, 1, 0] ∧
        ∀ answer ∈ st.answers, Reports st.states answer.since answer.result answer.value := by
  have hrun : ∃ st, ((primaryMachine countingDriver false).restrict (StoresCurrent false)).run
      { now := (0, 0) } queriedAroundRetain = some st ∧
        st.answers.map (·.value.active) = [1, 1, 0] := ⟨_, rfl, rfl⟩
  obtain ⟨st, hrun, hactive⟩ := hrun
  exact ⟨st, hrun, hactive, primaryCtxGetState_reports countingDriver false (0, 0)
    queriedAroundRetain st hrun⟩

/-- The server answers a query before the change, and the answer is stored after it. -/
def queriedDuringRetain : List PrimaryStep :=
  [.query 1 true, .find 1, .answer 1, .mutate 2 .retain, .execute 2, .mutateReturn 2, .store 1,
    .query 2 true, .find 2]

/-- **What a late store hides.** A thread that has retained the context is told that it is not
active. -/
theorem late_store_reports_old_state :
    ∃ st, (primaryMachine countingDriver false).run { now := (0, 0) } queriedDuringRetain =
        some st ∧
      ¬∀ answer ∈ st.answers, Reports st.states answer.since answer.result answer.value := by
  have hrun : ∃ st, (primaryMachine countingDriver false).run { now := (0, 0) }
      queriedDuringRetain = some st ∧ st.states = [(0, 0), (1, 0)] ∧
        ⟨1, .success, ⟨0, 0⟩⟩ ∈ st.answers := ⟨_, rfl, rfl, by decide⟩
  obtain ⟨st, hrun, hstates, hanswer⟩ := hrun
  refine ⟨st, hrun, fun hall ↦ ?_⟩
  obtain ⟨index, state, hsince, hstate, hreports⟩ := hall _ hanswer
  rw [hstates] at hstate
  match index, hsince with
  | 1, _ =>
    obtain rfl := Option.some.inj hstate
    exact absurd hreports (by decide)

end Lupine
