import Mathlib.Data.List.Induction
import Mathlib.Logic.Function.Basic

/-!
# Machines and their runs

A machine takes actions: each is possible in a state or not, and leads to one state. What differs
from run to run is the list of actions, so a statement about every interleaving is one about every
list. A machine can be restricted to the actions that meet a condition on the state they are taken
in; a run of the restricted machine is a run all of whose steps meet it.

Both rules for invariants are inductions on the list of actions. The second one has the actions in
its statement, for what depends on what has been done and not on the state alone.
-/

namespace Foundation

theorem eq_or_of_update {ι β : Type*} [DecidableEq ι] {table : ι → β} {i j : ι} {x y : β}
    (h : Function.update table i x j = y) : j = i ∧ x = y ∨ j ≠ i ∧ table j = y := by
  rcases eq_or_ne j i with rfl | hne
  · rw [Function.update_self] at h
    exact Or.inl ⟨rfl, h⟩
  · rw [Function.update_of_ne hne] at h
    exact Or.inr ⟨hne, h⟩

/-- A machine with states `σ` and actions `α`; `none` is an action that is not possible. -/
structure Machine (σ α : Type*) where
  step : σ → α → Option σ

namespace Machine

variable {σ α : Type*} (M : Machine σ α)

def run (s : σ) : List α → Option σ
  | [] => some s
  | a :: as => (M.step s a).bind fun s' ↦ run s' as

theorem run_cons (s : σ) (a : α) (as : List α) :
    M.run s (a :: as) = (M.step s a).bind fun s' ↦ M.run s' as := rfl

theorem run_append (s : σ) (as bs : List α) :
    M.run s (as ++ bs) = (M.run s as).bind fun s' ↦ M.run s' bs := by
  induction as generalizing s with
  | nil => rfl
  | cons a as ih =>
    rw [List.cons_append, run_cons, run_cons, Option.bind_assoc]
    exact congrArg _ (funext fun s' ↦ ih s')

/-- **Invariants.** What holds at first and is kept by every step holds after every run. -/
theorem run_invariant {I : σ → Prop} (hstep : ∀ s a s', I s → M.step s a = some s' → I s')
    {s s' : σ} {as : List α} (hs : I s) (hrun : M.run s as = some s') : I s' := by
  induction as generalizing s with
  | nil => exact Option.some.inj hrun ▸ hs
  | cons a as ih =>
    rw [run_cons] at hrun
    obtain ⟨s₁, hs₁, hrun⟩ := Option.bind_eq_some_iff.mp hrun
    exact ih (hstep s a s₁ hs hs₁) hrun

theorem run_concat {s s' : σ} {as : List α} {a : α} :
    M.run s (as ++ [a]) = some s' ↔ ∃ s₁, M.run s as = some s₁ ∧ M.step s₁ a = some s' := by
  rw [run_append, Option.bind_eq_some_iff]
  refine exists_congr fun s₁ ↦ and_congr_right fun _ ↦ ?_
  rw [run_cons]
  exact Option.bind_fun_some _ ▸ Iff.rfl

/-- **Invariants of the history.** What holds of the empty history, and is kept when a step is taken
and added to the history, holds of every run and its actions. -/
theorem run_history {I : List α → σ → Prop} {s : σ} (hnil : I [] s)
    (hstep : ∀ as s₁ a s₂, M.run s as = some s₁ → I as s₁ → M.step s₁ a = some s₂ →
      I (as ++ [a]) s₂)
    {s' : σ} {as : List α} (hrun : M.run s as = some s') : I as s' := by
  induction as using List.reverseRecOn generalizing s' with
  | nil => exact Option.some.inj hrun ▸ hnil
  | append_singleton as a ih =>
    obtain ⟨s₁, hbefore, hlast⟩ := (M.run_concat).mp hrun
    exact hstep as s₁ a s' hbefore (ih hbefore) hlast

/-! ## Restriction

A run that meets a condition meets every weaker one, so what is shown under one condition holds
under each that implies it. -/

variable (ok : σ → α → Prop) [∀ s a, Decidable (ok s a)]

/-- The same machine with only those steps that meet a condition. -/
def restrict : Machine σ α where
  step s a := if ok s a then M.step s a else none

variable {M ok}

theorem step_restrict {s s' : σ} {a : α} :
    (M.restrict ok).step s a = some s' ↔ ok s a ∧ M.step s a = some s' := by
  show (if ok s a then M.step s a else none) = some s' ↔ _
  by_cases h : ok s a <;> simp [h]

theorem run_restrict_cons {s s₁ s' : σ} {a : α} {as : List α} (hok : ok s a)
    (hstep : M.step s a = some s₁) (hrun : (M.restrict ok).run s₁ as = some s') :
    (M.restrict ok).run s (a :: as) = some s' := by
  rw [run_cons, step_restrict.mpr ⟨hok, hstep⟩]
  exact hrun

theorem run_restrict_mono {ok' : σ → α → Prop} [∀ s a, Decidable (ok' s a)]
    (hmono : ∀ s a, ok' s a → ok s a) {s s' : σ} {as : List α}
    (hrun : (M.restrict ok').run s as = some s') : (M.restrict ok).run s as = some s' := by
  induction as generalizing s with
  | nil => exact hrun
  | cons a as ih =>
    rw [run_cons] at hrun ⊢
    obtain ⟨s₁, hs₁, hrun⟩ := Option.bind_eq_some_iff.mp hrun
    obtain ⟨hok, hstep⟩ := step_restrict.mp hs₁
    rw [step_restrict.mpr ⟨hmono s a hok, hstep⟩]
    exact ih hrun

end Machine

end Foundation
