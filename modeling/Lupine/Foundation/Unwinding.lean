import Mathlib.Data.List.Basic

/-!
# Commands that unwind

A command changes a state and then returns a value, raises an exception, or dies where it is. An
exception unwinds to the nearest handler and passes every `finally` on its way; nothing runs after
a death. An exception that is raised in a `finally` takes the place of the one that was on its way.

## Specifications under an assumption

A specification may assume something of the whole run, such as that each of its steps was answered
in some way. What is assumed is a condition on the last state from which it follows for the states
before, so the specification of a part may assume it too: `Spec` asks of a command that it cannot
bring about the assumption where it did not hold before.
-/

namespace Foundation

universe u

variable {σ ε α β : Type u}

inductive Ending (ε α : Type u) where
  | returns (a : α)
  | raises (e : ε)
  | dies

def Command (σ ε α : Type u) : Type u := σ → Ending ε α × σ

namespace Command

def raise (e : ε) : Command σ ε α := fun s ↦ (.raises e, s)

def die : Command σ ε α := fun s ↦ (.dies, s)

def read : Command σ ε σ := fun s ↦ (.returns s, s)

def update (f : σ → σ) : Command σ ε PUnit := fun s ↦ (.returns ⟨⟩, f s)

instance : Monad (Command σ ε) where
  pure a := fun s ↦ (.returns a, s)
  bind p f := fun s ↦
    match p s with
    | (.returns a, s') => f a s'
    | (.raises e, s') => (.raises e, s')
    | (.dies, s') => (.dies, s')

theorem read_bind (f : σ → Command σ ε β) (s : σ) : (read >>= f) s = f s s := rfl

theorem raise_bind (e : ε) (f : α → Command σ ε β) : raise e >>= f = raise e := rfl

/-- `try` with a handler for each exception. One that is not for the handler is raised again. -/
def tryCatch (p : Command σ ε α) (handler : ε → Command σ ε α) : Command σ ε α := fun s ↦
  match p s with
  | (.returns a, s') => (.returns a, s')
  | (.raises e, s') => handler e s'
  | (.dies, s') => (.dies, s')

/-- `try` with a `finally`. -/
def tryFinally (p : Command σ ε α) (cleanup : Command σ ε PUnit) : Command σ ε α := fun s ↦
  match p s with
  | (.returns a, s') => (cleanup >>= fun _ ↦ pure a) s'
  | (.raises e, s') => (cleanup >>= fun _ ↦ raise e) s'
  | (.dies, s') => (.dies, s')

/-! ## Specifications

How a command ended is one of three cases, each with its own condition on the last state. A rule for
a sequence has to follow only the first case. -/

/-- How a command ended is as it should be. -/
def Meets (Q : α → σ → Prop) (E : ε → σ → Prop) (D : σ → Prop) : Ending ε α × σ → Prop
  | (.returns a, s) => Q a s
  | (.raises e, s) => E e s
  | (.dies, s) => D s

/-- If the last state meets `G` then so does the first, and from a first state that meets `P` the
command returns with `Q`, raises with `E` or dies with `D`. -/
def Spec (G P : σ → Prop) (p : Command σ ε α) (Q : α → σ → Prop) (E : ε → σ → Prop)
    (D : σ → Prop) : Prop :=
  ∀ s, G (p s).2 → G s ∧ (P s → Meets Q E D (p s))

variable {G P P' : σ → Prop} {p : Command σ ε α} {f : α → Command σ ε β}
variable {Q Q' : α → σ → Prop} {R : β → σ → Prop} {E E' : ε → σ → Prop} {D D' : σ → Prop}

theorem Meets.mono {r : Ending ε α × σ} (h : Meets Q E D r) (hQ : ∀ a s, Q a s → Q' a s)
    (hE : ∀ e s, E e s → E' e s) (hD : ∀ s, D s → D' s) : Meets Q' E' D' r := by
  rcases r with ⟨_ | _ | _, s⟩
  · exact hQ _ s h
  · exact hE _ s h
  · exact hD s h

namespace Spec

theorem mono (h : Spec G P p Q E D) (hP : ∀ s, G s → P' s → P s) (hQ : ∀ a s, Q a s → Q' a s)
    (hE : ∀ e s, E e s → E' e s) (hD : ∀ s, D s → D' s) : Spec G P' p Q' E' D' := by
  intro s hG
  obtain ⟨hstart, hends⟩ := h s hG
  exact ⟨hstart, fun hs ↦ (hends (hP s hstart hs)).mono hQ hE hD⟩

theorem pure {a : α} (h : ∀ s, P s → Q a s) : Spec G P (Pure.pure a) Q E D :=
  fun s hG ↦ ⟨hG, h s⟩

theorem raise {e : ε} (h : ∀ s, P s → E e s) : Spec G P (raise e) Q E D :=
  fun s hG ↦ ⟨hG, h s⟩

theorem die (h : ∀ s, P s → D s) : Spec G P die Q E D :=
  fun s hG ↦ ⟨hG, h s⟩

theorem read {Q : σ → σ → Prop} (h : ∀ s, P s → Q s s) : Spec G P read Q E D :=
  fun s hG ↦ ⟨hG, h s⟩

theorem update {g : σ → σ} {Q : PUnit → σ → Prop} (hG : ∀ s, G (g s) → G s)
    (h : ∀ s, P s → Q ⟨⟩ (g s)) : Spec G P (update g) Q E D :=
  fun s hg ↦ ⟨hG s hg, h s⟩

theorem follow {q : Command σ ε β} {s s' : σ} {A : σ → Prop} (h : G s' → G s ∧ (P s → A s'))
    (hq : Spec G A q R E D) (hG : G (q s').2) : G s ∧ (P s → Meets R E D (q s')) := by
  obtain ⟨hmiddle, hends⟩ := hq s' hG
  obtain ⟨hstart, hfirst⟩ := h hmiddle
  exact ⟨hstart, fun hs ↦ hends (hfirst hs)⟩

theorem bind (hp : Spec G P p Q E D) (hf : ∀ a, Spec G (Q a) (f a) R E D) :
    Spec G P (p >>= f) R E D := by
  intro s hG
  have hbind : (p >>= f) s = match p s with
    | (.returns a, s') => f a s'
    | (.raises e, s') => (.raises e, s')
    | (.dies, s') => (.dies, s') := rfl
  rw [hbind] at hG ⊢
  have hspec := hp s
  rcases hresult : p s with ⟨a | e | _, s'⟩
  all_goals rw [hresult] at hG hspec
  · exact follow hspec (hf a) hG
  · exact hspec hG
  · exact hspec hG

/-- A check that raises, and what follows it. -/
theorem check {c : Prop} [Decidable c] {e : ε} {rest : PUnit → Command σ ε α}
    (hraise : ∀ s, P s → c → E e s) (h : ¬c → Spec G P (rest ⟨⟩) Q E D) :
    Spec G P (if c then Command.raise e >>= rest else rest ⟨⟩) Q E D := by
  split_ifs with hc
  · rw [raise_bind]
    exact Spec.raise fun s hs ↦ hraise s hs hc
  · exact h hc

theorem when {c : Prop} [Decidable c] {q : Command σ ε PUnit} {rest : PUnit → Command σ ε α}
    {A : σ → Prop} (hq : c → Spec G P q (fun _ ↦ A) E D) (hnot : ¬c → ∀ s, G s → P s → A s)
    (hrest : Spec G A (rest ⟨⟩) Q E D) : Spec G P (if c then q >>= rest else rest ⟨⟩) Q E D := by
  split_ifs with hc
  · exact (hq hc).bind fun _ ↦ hrest
  · exact hrest.mono (hnot hc) (fun _ _ hs ↦ hs) (fun _ _ hs ↦ hs) fun _ hs ↦ hs

/-- **Handlers.** -/
theorem tryCatch {handler : ε → Command σ ε α} (hp : Spec G P p Q E' D)
    (hhandler : ∀ e, Spec G (E' e) (handler e) Q E D) : Spec G P (p.tryCatch handler) Q E D := by
  intro s hG
  rw [Command.tryCatch] at hG ⊢
  have hspec := hp s
  rcases hresult : p s with ⟨a | e | _, s'⟩
  all_goals rw [hresult] at hG hspec
  · exact hspec hG
  · exact follow hspec (hhandler e) hG
  · exact hspec hG

/-- **Cleaning up.** What is left to do is done after a value and after an exception. -/
theorem tryFinally {cleanup : Command σ ε PUnit} (hp : Spec G P p Q' E' D)
    (hreturns : ∀ a, Spec G (Q' a) cleanup (fun _ ↦ Q a) E D)
    (hraises : ∀ e, Spec G (E' e) cleanup (fun _ ↦ E e) E D) :
    Spec G P (p.tryFinally cleanup) Q E D := by
  intro s hG
  rw [Command.tryFinally] at hG ⊢
  have hspec := hp s
  rcases hresult : p s with ⟨a | e | _, s'⟩
  all_goals rw [hresult] at hG hspec
  · exact follow hspec ((hreturns a).bind fun _ ↦ Spec.pure fun _ hs ↦ hs) hG
  · exact follow hspec ((hraises e).bind fun _ ↦ Spec.raise fun _ hs ↦ hs) hG
  · exact hspec hG

/-- **Loops.** Each body keeps the invariant of the part that is done. -/
theorem forM {ι : Type u} {l : List ι} {body : ι → Command σ ε PUnit} {I : List ι → σ → Prop}
    (h : ∀ done i rest, l = done ++ i :: rest →
      Spec G (I done) (body i) (fun _ ↦ I (done ++ [i])) E D) :
    Spec G (I []) (l.forM body) (fun _ ↦ I l) E D := by
  suffices hrest : ∀ done rest, l = done ++ rest →
      Spec G (I done) (rest.forM body) (fun _ ↦ I l) E D from hrest [] l rfl
  intro done rest hl
  induction rest generalizing done with
  | nil =>
    rw [List.append_nil] at hl
    exact Spec.pure fun s hs ↦ hl ▸ hs
  | cons i rest ih =>
    have hrest := ih (done ++ [i]) (by rw [hl, List.append_assoc, List.singleton_append])
    exact (h done i rest hl).bind fun _ ↦ hrest

theorem run (h : Spec G P p Q E D) {s : σ} (hs : P s) (hG : G (p s).2) : Meets Q E D (p s) :=
  (h s hG).2 hs

end Spec

end Command

end Foundation
