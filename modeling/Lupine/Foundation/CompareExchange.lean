import Lupine.Foundation.Machine

/-!
# Loops around a compare-and-exchange

A cell is shared by any number of threads. Each that wants to change it reads the cell, computes
from what it saw the value to store and a result, and stores it if the cell still holds what it saw;
if not it looks again. It gives up when there is nothing to store.

What a thread sees need not be what the cell holds: a load may be served late, and an exchange may
fail for no reason. So a thread sees any value that the cell has had. An exchange that succeeds is
the update on what the cell holds, and the cell holds what the updates that succeeded make of the
first value, one after the other.
-/

namespace Foundation

variable {σ α ρ : Type*}

/-- A shared cell and the values it has had, what each thread in the loop wants and has seen, and
the updates that succeeded, with their results, from the last on. -/
structure SharedCell (σ α ρ : Type*) where
  cell : σ
  history : List σ
  phase : ℕ → Option (α × σ) := fun _ ↦ none
  done : List (α × ρ) := []

def SharedCell.start (first : σ) : SharedCell σ α ρ := { cell := first, history := [first] }

/-- What a thread does next; `observed` is the value it sees. -/
inductive CellStep (σ α : Type*) where
  /-- The thread enters the loop. -/
  | load (thread : ℕ) (wanted : α) (observed : σ)
  /-- One round of the loop, which may fail although it need not. -/
  | round (thread : ℕ) (fails : Bool) (observed : σ)

namespace SharedCell

variable [DecidableEq σ] (update : α → σ → Option (σ × ρ)) (st : SharedCell σ α ρ)

/-- A thread has seen a value, or is done. -/
def setPhase (thread : ℕ) (phase : Option (α × σ)) : SharedCell σ α ρ :=
  { st with phase := Function.update st.phase thread phase }

def observe (thread : ℕ) (wanted : α) (observed : σ) : Option (SharedCell σ α ρ) :=
  if observed ∈ st.history then some (st.setPhase thread (some (wanted, observed))) else none

def store (thread : ℕ) (wanted : α) (value : σ) (result : ρ) : SharedCell σ α ρ :=
  { st.setPhase thread none with
    cell := value
    history := value :: st.history
    done := (wanted, result) :: st.done }

def step : CellStep σ α → Option (SharedCell σ α ρ)
  | .load thread wanted observed =>
    if st.phase thread = none then st.observe thread wanted observed else none
  | .round thread fails observed =>
    match st.phase thread with
    | some (wanted, current) =>
      match update wanted current with
      | some (value, result) =>
        if current = st.cell ∧ fails = false then some (st.store thread wanted value result)
        else st.observe thread wanted observed
      | none => some (st.setPhase thread none)
    | none => none

end SharedCell

def cellMachine [DecidableEq σ] (update : α → σ → Option (σ × ρ)) :
    Machine (SharedCell σ α ρ) (CellStep σ α) := ⟨SharedCell.step update⟩

/-- Updates one after the other, from the last on, and what they make of the first value. -/
inductive Replays (update : α → σ → Option (σ × ρ)) (first : σ) : List (α × ρ) → σ → Prop
  | nil : Replays update first [] first
  | cons {done : List (α × ρ)} {before value : σ} {wanted : α} {result : ρ}
      (earlier : Replays update first done before)
      (last : update wanted before = some (value, result)) :
      Replays update first ((wanted, result) :: done) value

namespace Replays

variable {update : α → σ → Option (σ × ρ)} {first : σ}

theorem invariant {value : σ} {done : List (α × ρ)} {I : List (α × ρ) → σ → Prop}
    (h : Replays update first done value) (hfirst : I [] first)
    (hupdate : ∀ done before value wanted result, I done before →
      update wanted before = some (value, result) → I ((wanted, result) :: done) value) :
    I done value := by
  induction h with
  | nil => exact hfirst
  | cons _ last ih => exact hupdate _ _ _ _ _ ih last

variable [DecidableEq σ] {st st' : SharedCell σ α ρ}

theorem observe (h : Replays update first st.done st.cell) {thread : ℕ} {wanted : α}
    {observed : σ} (hstep : st.observe thread wanted observed = some st') :
    Replays update first st'.done st'.cell := by
  rw [SharedCell.observe] at hstep
  obtain ⟨-, hstep⟩ := Option.ite_none_right_eq_some.mp hstep
  exact Option.some.inj hstep ▸ h

theorem step (h : Replays update first st.done st.cell) {action : CellStep σ α}
    (hstep : st.step update action = some st') : Replays update first st'.done st'.cell := by
  cases action with
  | load thread wanted observed =>
    rw [SharedCell.step] at hstep
    obtain ⟨-, hstep⟩ := Option.ite_none_right_eq_some.mp hstep
    exact h.observe hstep
  | round thread fails observed =>
    rw [SharedCell.step] at hstep
    split at hstep
    · rename_i wanted current hphase
      split at hstep
      · rename_i value result hupdate
        split_ifs at hstep with hcurrent
        · -- the cell holds what the thread has seen
          obtain rfl := Option.some.inj hstep
          rw [hcurrent.1] at hupdate
          exact h.cons hupdate
        · exact h.observe hstep
      · exact Option.some.inj hstep ▸ h
    · exact absurd hstep (Option.some_ne_none _).symm

end Replays

/-- **The updates happen one after the other.** -/
theorem cellMachine_replays [DecidableEq σ] {update : α → σ → Option (σ × ρ)} {first : σ}
    {steps : List (CellStep σ α)} {st : SharedCell σ α ρ}
    (hrun : (cellMachine update).run (SharedCell.start first) steps = some st) :
    Replays update first st.done st.cell :=
  (cellMachine update).run_invariant (I := fun st ↦ Replays update first st.done st.cell)
    (fun _ _ _ h hstep ↦ h.step hstep) Replays.nil hrun

end Foundation
