import Mathlib.Data.List.Basic

/-!
# Work that is still pending

A device is handed work and does it in order, at a time of its own. The state that it has now says
little; the state that it will have once the pending work is done is the one that a caller may rely
on. How far the device has come does not change that state, work that is handed over is done on it
last, and waiting for the device makes it the present one.
-/

namespace Foundation

/-- A state, and the work on it that is still to be done, in order. -/
structure Pending (σ : Type*) where
  now : σ
  work : List (σ → σ) := []

namespace Pending

variable {σ : Type*} (d : Pending σ)

def perform (work : List (σ → σ)) (s : σ) : σ := work.foldl (fun s step ↦ step s) s

/-- The state once the pending work is done. -/
def eventually : σ := perform d.work d.now

def advance (k : ℕ) : Pending σ := ⟨perform (d.work.take k) d.now, d.work.drop k⟩

def settle : Pending σ := ⟨d.eventually, []⟩

def enqueue (step : σ → σ) : Pending σ := { d with work := d.work ++ [step] }

def change (step : σ → σ) : Pending σ := { d with now := step d.now }

variable {d}

theorem perform_append (work more : List (σ → σ)) (s : σ) :
    perform (work ++ more) s = perform more (perform work s) :=
  List.foldl_append

theorem eventually_of_nil (h : d.work = []) : d.eventually = d.now := by
  rw [eventually, h]
  rfl

/-- **Progress does not change what the state will be.** -/
@[simp] theorem eventually_advance (k : ℕ) : (d.advance k).eventually = d.eventually := by
  simp only [eventually, advance]
  rw [← perform_append, List.take_append_drop]

@[simp] theorem eventually_settle : d.settle.eventually = d.eventually := rfl

@[simp] theorem work_settle : d.settle.work = [] := rfl

@[simp] theorem now_settle : d.settle.now = d.eventually := rfl

@[simp] theorem eventually_enqueue (step : σ → σ) :
    (d.enqueue step).eventually = step d.eventually := by
  simp only [eventually, enqueue]
  rw [perform_append]
  rfl

@[simp] theorem now_enqueue (step : σ → σ) : (d.enqueue step).now = d.now := rfl

@[simp] theorem advance_zero : d.advance 0 = d := rfl

theorem work_advance_of_nil (h : d.work = []) (k : ℕ) : (d.advance k).work = [] := by
  simp only [advance]
  rw [h, List.drop_nil]

/-- A change at once is the same as one in turn where nothing is pending. -/
theorem eventually_change (h : d.work = []) (step : σ → σ) :
    (d.change step).eventually = step d.eventually := by
  have hwork : (d.change step).work = [] := h
  rw [eventually_of_nil hwork, eventually_of_nil h]
  rfl

end Pending

end Foundation
