import Mathlib.Order.Basic

/-!
# Procedures of a machine

A calling convention says when a procedure has been entered with given arguments, and what it owes
its caller when it leaves. What a procedure does is a relation between its arguments, the world
before, the world after and its result; the world is the part of the machine's state that caller
and callee share. A thunk is code that calls another procedure with arguments of its own: to say
what a thunk does, it is enough to follow the machine from the entry of the thunk to the entry of
the other procedure, and from there back to the caller.

The convention is a parameter, and so is the machine. What is asked of a convention is when a
procedure has been entered and when it has left; the stack that it may use is counted in bytes.
-/

namespace Foundation

section Reaches

variable {σ : Type*} (step : σ → Option σ)

def steps : ℕ → σ → Option σ
  | 0, s => some s
  | n + 1, s => (step s).bind (steps n)

theorem steps_add (m n : ℕ) (s : σ) :
    steps step (m + n) s = (steps step m s).bind (steps step n) := by
  induction m generalizing s with
  | zero => rw [Nat.zero_add, steps, Option.bind_some]
  | succ m ih =>
    rw [Nat.succ_add, steps, steps, Option.bind_assoc]
    exact congrArg _ (funext ih)

/-- The machine gets from one state to the other. -/
def Reaches (s s' : σ) : Prop := ∃ n, steps step n s = some s'

variable {step}

theorem Reaches.refl (s : σ) : Reaches step s s := ⟨0, rfl⟩

theorem Reaches.single {s s' : σ} (h : step s = some s') : Reaches step s s' :=
  ⟨1, by rw [steps, h, Option.bind_some, steps]⟩

theorem Reaches.trans {s s' s'' : σ} (h : Reaches step s s') (h' : Reaches step s' s'') :
    Reaches step s s'' := by
  obtain ⟨m, hm⟩ := h
  obtain ⟨n, hn⟩ := h'
  exact ⟨m + n, by rw [steps_add, hm, Option.bind_some, hn]⟩

end Reaches

/-- A machine with states `σ` and words `ω`, and how procedures are called on it. -/
structure Convention (σ ω W : Type*) where
  step : σ → Option σ
  /-- The world that caller and callee share. -/
  world : σ → W
  /-- `Entered s entry args room`: the procedure at `entry` has been entered, and has `room` bytes
  of stack for itself. -/
  Entered : σ → ω → List ω → ℕ → Prop
  /-- `Left arity s s' r`: in `s'` the procedure that was entered in `s` has returned `r`. -/
  Left : ℕ → σ → σ → ω → Prop

namespace Convention

variable {σ ω W : Type*} (C : Convention σ ω W)

/-- The procedure at `entry` does what `F` says, keeps `Inv`, and needs `room` bytes of stack. -/
def Implements (Inv : W → Prop) (entry : ω) (arity room : ℕ)
    (F : List ω → W → W → ω → Prop) : Prop :=
  ∀ s args, args.length = arity → C.Entered s entry args room → Inv (C.world s) →
    ∃ s' r, Reaches C.step s s' ∧ C.Left arity s s' r ∧ F args (C.world s) (C.world s') r ∧
      Inv (C.world s')

/-- The code at `entry` calls `target` with other arguments, and returns what `target` returns. -/
def Thunks (Inv : W → Prop) (entry target : ω) (arity arity' room room' : ℕ)
    (extend : List ω → List ω) : Prop :=
  ∀ s args, args.length = arity → C.Entered s entry args room' → Inv (C.world s) →
    ∃ s₁, Reaches C.step s s₁ ∧ C.Entered s₁ target (extend args) room ∧ C.world s₁ = C.world s ∧
      ∀ s₂ r, C.Left arity' s₁ s₂ r → Inv (C.world s₂) →
        ∃ s', Reaches C.step s₂ s' ∧ C.Left arity s s' r ∧ C.world s' = C.world s₂

variable {C}

/-- **The thunk rule.** A thunk does what its target does with the other arguments. -/
theorem Implements.thunk {Inv : W → Prop} {entry target : ω} {arity arity' room room' : ℕ}
    {extend : List ω → List ω} {F : List ω → W → W → ω → Prop}
    (h : C.Implements Inv target arity' room F)
    (hextend : ∀ args, args.length = arity → (extend args).length = arity')
    (hthunk : C.Thunks Inv entry target arity arity' room room' extend) :
    C.Implements Inv entry arity room' fun args ↦ F (extend args) := by
  intro s args hargs hentered hinv
  obtain ⟨s₁, hgo, hentered₁, hworld₁, hback⟩ := hthunk s args hargs hentered hinv
  obtain ⟨s₂, r, hcall, hleft, hdoes, hinv₂⟩ :=
    h s₁ (extend args) (hextend args hargs) hentered₁ (hworld₁ ▸ hinv)
  obtain ⟨s', hreturn, hleft', hworld'⟩ := hback s₂ r hleft hinv₂
  refine ⟨s', r, (hgo.trans hcall).trans hreturn, hleft', ?_, hworld' ▸ hinv₂⟩
  rw [hworld', ← hworld₁]
  exact hdoes

end Convention

end Foundation
