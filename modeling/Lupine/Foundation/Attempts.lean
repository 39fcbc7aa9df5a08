import Mathlib.Data.List.Basic

/-!
# Attempts that can be interrupted

An attempt changes a state in atomic steps, and can be interrupted after each of them. It goes
through a list of states and then returns a value, or fails where it is. A specification of one
says what it needs, what holds in every state that it goes through, and what holds when it returns.

## The rules

There is one rule for each way to build an attempt. A loop goes over a list, and its invariant is
about the part of the list that is done. Whether an attempt may fail is a proposition of the
specification: with `False` the specification is one of total correctness.
-/

namespace Foundation

universe u

variable {σ α β : Type u}

/-- From a state, the states after each atomic step, and the value that is returned. -/
def Attempt (σ α : Type u) : Type u := σ → List σ × Option α

namespace Attempt

def final (p : Attempt σ α) (s : σ) : σ := (p s).1.getLastD s

/-- The state in which it ends if it is interrupted after some steps. -/
def after (p : Attempt σ α) (n : ℕ) (s : σ) : σ := ((p s).1.take n).getLastD s

def step (f : σ → σ) : Attempt σ PUnit := fun s ↦ ([f s], some ⟨⟩)

def get : Attempt σ σ := fun s ↦ ([], some s)

def fail : Attempt σ α := fun _ ↦ ([], none)

/-- It fails unless a condition is met. -/
def ensure (c : Prop) [Decidable c] : Attempt σ PUnit := fun _ ↦ ([], if c then some ⟨⟩ else none)

instance : Monad (Attempt σ) where
  pure a := fun _ ↦ ([], some a)
  bind p f := fun s ↦
    match (p s).2 with
    | none => ((p s).1, none)
    | some a => ((p s).1 ++ (f a (p.final s)).1, (f a (p.final s)).2)

theorem run_bind_of_none {p : Attempt σ α} {f : α → Attempt σ β} {s : σ} (h : (p s).2 = none) :
    (p >>= f) s = ((p s).1, none) := by
  show (match (p s).2 with | none => _ | some a => _) = _
  rw [h]

theorem run_bind_of_some {p : Attempt σ α} {f : α → Attempt σ β} {s : σ} {a : α}
    (h : (p s).2 = some a) :
    (p >>= f) s = ((p s).1 ++ (f a (p.final s)).1, (f a (p.final s)).2) := by
  show (match (p s).2 with | none => _ | some a => _) = _
  rw [h]

theorem getLastD_append (xs ys : List σ) (s : σ) :
    (xs ++ ys).getLastD s = ys.getLastD (xs.getLastD s) := by
  induction xs generalizing s with
  | nil => rfl
  | cons x xs ih => rw [List.cons_append, List.getLastD_cons, List.getLastD_cons, ih]

theorem final_bind {p : Attempt σ α} {f : α → Attempt σ β} {s : σ} {a : α}
    (h : (p s).2 = some a) : (p >>= f).final s = (f a).final (p.final s) := by
  rw [final, run_bind_of_some h, getLastD_append]
  rfl

/-- One body for each element of a list, and the values they return. -/
def collect {ι : Type u} (body : ι → Attempt σ β) : List ι → Attempt σ (List β)
  | [] => pure []
  | i :: rest => do
    let b ← body i
    let bs ← collect body rest
    return b :: bs

/-! ## Specifications

The state after each step is one at which the attempt may be cut off, so a specification has a
condition for all of them beside the one for the end. -/

/-- From a state that meets `P` an attempt goes through states that meet `C`, and returns values and
states that meet `Q`, or it fails and `fails` holds. -/
def Spec (fails : Prop) (P : σ → Prop) (p : Attempt σ α) (Q : α → σ → Prop) (C : σ → Prop) : Prop :=
  ∀ s, P s → (∀ s' ∈ (p s).1, C s') ∧ ((p s).2 = none → fails) ∧
    ∀ a, (p s).2 = some a → Q a (p.final s)

variable {fails : Prop} {P P' : σ → Prop} {p : Attempt σ α} {Q Q' : α → σ → Prop} {C : σ → Prop}
variable {f : α → Attempt σ β} {R : β → σ → Prop}

namespace Spec

theorem mono (h : Spec fails P p Q C) (hP : ∀ s, P' s → P s) (hQ : ∀ a s, Q a s → Q' a s) :
    Spec fails P' p Q' C := by
  intro s hs
  obtain ⟨hsteps, hfails, hreturns⟩ := h s (hP s hs)
  exact ⟨hsteps, hfails, fun a ha ↦ hQ a _ (hreturns a ha)⟩

theorem pure {a : α} (h : ∀ s, P s → Q a s) : Spec fails P (Pure.pure a) Q C := by
  intro s hs
  refine ⟨fun _ hs' ↦ (List.not_mem_nil hs').elim, (nomatch ·), ?_⟩
  intro a ha
  obtain rfl := Option.some_inj.mp ha
  exact h s hs

theorem get {Q : σ → σ → Prop} (h : ∀ s, P s → Q s s) : Spec fails P get Q C := by
  intro s hs
  refine ⟨fun _ hs' ↦ (List.not_mem_nil hs').elim, (nomatch ·), ?_⟩
  intro a ha
  obtain rfl := Option.some_inj.mp ha
  exact h s hs

theorem fail (h : ∀ s, P s → fails) : Spec fails P fail Q C := by
  intro s hs
  exact ⟨fun _ hs' ↦ (List.not_mem_nil hs').elim, fun _ ↦ h s hs, fun _ ↦ (nomatch ·)⟩

theorem ensure {c : Prop} [Decidable c] {Q : PUnit → σ → Prop} (hc : ∀ s, P s → ¬c → fails)
    (h : ∀ s, P s → c → Q ⟨⟩ s) : Spec fails P (ensure c) Q C := by
  intro s hs
  refine ⟨fun _ hs' ↦ (List.not_mem_nil hs').elim, ?_, ?_⟩
  · intro hnone
    exact hc s hs fun hyes ↦ Option.some_ne_none _ ((if_pos hyes).symm.trans hnone)
  · intro a ha
    exact h s hs (Option.ite_none_right_eq_some.mp ha).1

theorem step {g : σ → σ} {Q : PUnit → σ → Prop} (h : ∀ s, P s → C (g s) ∧ Q ⟨⟩ (g s)) :
    Spec fails P (step g) Q C := by
  intro s hs
  refine ⟨fun s' hs' ↦ List.mem_singleton.mp hs' ▸ (h s hs).1, (nomatch ·), ?_⟩
  intro _ _
  exact (h s hs).2

theorem bind (hp : Spec fails P p Q C) (hf : ∀ a, Spec fails (Q a) (f a) R C) :
    Spec fails P (p >>= f) R C := by
  intro s hs
  obtain ⟨hsteps, hfails, hreturns⟩ := hp s hs
  cases hresult : (p s).2 with
  | none =>
    rw [run_bind_of_none hresult]
    exact ⟨hsteps, fun _ ↦ hfails hresult, fun _ ↦ (nomatch ·)⟩
  | some a =>
    obtain ⟨hsteps', hfails', hreturns'⟩ := hf a _ (hreturns a hresult)
    rw [final_bind hresult, run_bind_of_some hresult]
    refine ⟨fun s' hs' ↦ ?_, hfails', hreturns'⟩
    exact (List.mem_append.mp hs').elim (hsteps s') (hsteps' s')

theorem frame {φ : Prop} (h : φ → Spec fails P p Q C) :
    Spec fails (fun s ↦ φ ∧ P s) p (fun a s ↦ φ ∧ Q a s) C := by
  intro s hs
  obtain ⟨hsteps, hfails, hreturns⟩ := h hs.1 s hs.2
  exact ⟨hsteps, hfails, fun a ha ↦ ⟨hs.1, hreturns a ha⟩⟩

/-- **Loops.** Each body keeps the invariant of the part that is done. -/
theorem forM {ι : Type u} {l : List ι} {body : ι → Attempt σ PUnit} {I : List ι → σ → Prop}
    (h : ∀ done i rest, l = done ++ i :: rest →
      Spec fails (I done) (body i) (fun _ ↦ I (done ++ [i])) C) :
    Spec fails (I []) (l.forM body) (fun _ ↦ I l) C := by
  suffices hrest : ∀ done rest, l = done ++ rest →
      Spec fails (I done) (rest.forM body) (fun _ ↦ I l) C from hrest [] l rfl
  intro done rest hl
  induction rest generalizing done with
  | nil =>
    rw [List.append_nil] at hl
    exact Spec.pure fun s hs ↦ hl ▸ hs
  | cons i rest ih =>
    have hrest := ih (done ++ [i]) (by rw [hl, List.append_assoc, List.singleton_append])
    exact (h done i rest hl).bind fun _ ↦ hrest

/-- **Loops that return values.** -/
theorem collect {ι : Type u} {l : List ι} {body : ι → Attempt σ β} {g : ι → β}
    {I : List ι → σ → Prop}
    (h : ∀ done i rest, l = done ++ i :: rest →
      Spec fails (I done) (body i) (fun b s ↦ b = g i ∧ I (done ++ [i]) s) C) :
    Spec fails (I []) (Attempt.collect body l) (fun bs s ↦ bs = l.map g ∧ I l s) C := by
  suffices hrest : ∀ done rest, l = done ++ rest →
      Spec fails (I done) (Attempt.collect body rest) (fun bs s ↦ bs = rest.map g ∧ I l s) C from
    hrest [] l rfl
  intro done rest hl
  induction rest generalizing done with
  | nil =>
    rw [List.append_nil] at hl
    exact Spec.pure fun s hs ↦ ⟨rfl, hl ▸ hs⟩
  | cons i rest ih =>
    have hrest := ih (done ++ [i]) (by rw [hl, List.append_assoc, List.singleton_append])
    refine (h done i rest hl).bind fun b ↦ (Spec.frame fun _ ↦ hrest).bind fun bs ↦ ?_
    exact Spec.pure fun s ⟨hb, hbs, hs⟩ ↦ ⟨by rw [hb, hbs, List.map_cons], hs⟩

/-- Where an interrupted attempt ends. -/
theorem after (h : Spec fails P p Q C) {s : σ} (hP : P s) (hC : C s) (n : ℕ) :
    C (p.after n s) := by
  rcases List.mem_cons.mp (List.getLastD_mem_cons (l := (p s).1.take n) (a := s)) with hs | hs
  · rw [Attempt.after, hs]
    exact hC
  · exact (h s hP).1 _ (List.mem_of_mem_take hs)

theorem final (h : Spec fails P p Q C) {s : σ} (hP : P s) (hC : C s) : C (p.final s) := by
  have hafter := h.after hP hC (p s).1.length
  rwa [Attempt.after, List.take_length] at hafter

theorem returns (h : Spec False P p Q C) {s : σ} (hP : P s) : (p s).2.isSome :=
  Option.isSome_iff_ne_none.mpr (h s hP).2.1

end Spec

end Attempt

end Foundation
