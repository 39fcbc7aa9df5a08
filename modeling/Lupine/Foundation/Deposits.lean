import Mathlib.Data.List.TakeWhile
import Mathlib.Order.Basic

/-!
# Deposits

An encoder leaves things in a store and writes down where they are; a decoder looks them up, at once
or when more has been left there. The encoder may fail half-way, and what it has left stays. In a
store that only grows, what is decoded of a list is settled by what is decoded of its elements.

## Four properties of programs

A program may only add to the store; what it encodes may be recovered; what it returns may be known;
and what it logs may be read off its result. Each property goes through sequences, through a
function that is applied to the result, and through a loop over a list, by rules of the same form.
The last section is about programs that are given by the actions they take.
-/

namespace Foundation

variable {ε σ α β γ J J' V V' : Type}

/-- A program on a store that may fail, and leaves the store as it is then. -/
abbrev Deposit (ε σ α : Type) := ExceptT ε (StateM σ) α

namespace Deposit

/-- How a program ends, and the store that it leaves. -/
def exec (p : Deposit ε σ α) (s : σ) : Except ε α × σ := (ExceptT.run p).run s

variable {p : Deposit ε σ α} {f : α → Deposit ε σ β} {s s' : σ} {a : α} {e : ε}

theorem exec_bind_ok (h : p.exec s = (.ok a, s')) : (p >>= f).exec s = (f a).exec s' := by
  change (ExceptT.bindCont f (p.exec s).1).run (p.exec s).2 = _
  rw [h]
  rfl

theorem exec_bind_error (h : p.exec s = (.error e, s')) : (p >>= f).exec s = (.error e, s') := by
  change (ExceptT.bindCont f (p.exec s).1).run (p.exec s).2 = _
  rw [h]
  rfl

/-- A program in two parts ends well exactly when both do. -/
theorem exec_bind_eq_ok {b : β} : (p >>= f).exec s = (.ok b, s') ↔
    ∃ a t, p.exec s = (.ok a, t) ∧ (f a).exec t = (.ok b, s') := by
  rcases hp : p.exec s with ⟨e | a, t⟩
  · rw [exec_bind_error hp]
    simp
  · rw [exec_bind_ok hp]
    constructor
    · exact fun hf ↦ ⟨a, t, rfl, hf⟩
    · rintro ⟨a', t', heq, hf⟩
      obtain ⟨ha, rfl⟩ := Prod.mk.inj heq
      obtain rfl := Except.ok.inj ha
      exact hf

/-! ## Growth

A program adds to the store whether it fails or not, so a loop that fails half-way does too. -/

section Growth

variable [Preorder σ]

/-- A program that only adds to the store, whether it fails or not. -/
def Adds (p : Deposit ε σ α) : Prop := ∀ s, s ≤ (p.exec s).2

theorem adds_pure (a : α) : Adds (pure a : Deposit ε σ α) := fun _ ↦ le_rfl

theorem Adds.le (h : Adds p) {r : Except ε α} (hp : p.exec s = (r, s')) : s ≤ s' := by
  have hle := h s
  rwa [hp] at hle

theorem Adds.bind (hp : Adds p) (hf : ∀ a, Adds (f a)) : Adds (p >>= f) := by
  intro s
  rcases hrun : p.exec s with ⟨e | a, t⟩
  · rw [exec_bind_error hrun]
    exact hp.le hrun
  · rw [exec_bind_ok hrun]
    exact (hp.le hrun).trans (hf a t)

theorem Adds.map (g : α → β) (hp : Adds p) : Adds (do let a ← p; pure (g a)) :=
  hp.bind fun a ↦ adds_pure (g a)

theorem adds_mapM {enc : α → Deposit ε σ β} {l : List α} (h : ∀ a ∈ l, Adds (enc a)) :
    Adds (l.mapM enc) := by
  induction l with
  | nil => exact adds_pure []
  | cons a l ih =>
    obtain ⟨ha, hl⟩ := List.forall_mem_cons.mp h
    rw [List.mapM_cons]
    exact ha.bind fun b ↦ (ih hl).map (b :: ·)

/-! ## Recovery

What is encoded has to be decoded in every later state, so that it does not matter what is left
there after it. -/

/-- What is encoded is decoded to `v`, in every later state of the store, exactly when `c`. -/
def Recovers (p : Deposit ε σ J) (dec : σ → J → Option V) (v : V) (c : Prop) : Prop :=
  ∀ ⦃s j s'⦄, p.exec s = (.ok j, s') → ∀ t, s' ≤ t → (dec t j = some v ↔ c)

variable {p : Deposit ε σ J} {dec : σ → J → Option V} {v : V} {c c' : Prop}

theorem Recovers.congr (h : Recovers p dec v c) (hc : c ↔ c') : Recovers p dec v c' :=
  fun _ _ _ hp t ht ↦ (h hp t ht).trans hc

theorem recovers_pure {j : J} (h : ∀ t, dec t j = some v ↔ c) :
    Recovers (pure j : Deposit ε σ J) dec v c := by
  intro s j' s' hp t _
  obtain ⟨hj, rfl⟩ := Prod.mk.inj hp
  obtain rfl := Except.ok.inj hj
  exact h t

/-- **Wrapping.** What is written is wrapped, and so is what is read. -/
theorem Recovers.map {f : J → J'} {dec' : σ → J' → Option V'} {g : V → V'}
    (h : Recovers p dec v c) (hg : Function.Injective g)
    (hdec : ∀ s j s', p.exec s = (.ok j, s') → ∀ t, dec' t (f j) = (dec t j).map g) :
    Recovers (do let j ← p; pure (f j)) dec' (g v) c := by
  intro s j' s' hp t ht
  obtain ⟨j, s'', hj, hpure⟩ := exec_bind_eq_ok.mp hp
  obtain ⟨hj', rfl⟩ := Prod.mk.inj hpure
  obtain rfl := Except.ok.inj hj'
  rw [hdec _ _ _ hj, ← h hj t ht, Option.map_eq_some_iff]
  constructor
  · rintro ⟨w, hw, heq⟩
    rw [hw, hg heq]
  · exact fun hv ↦ ⟨v, hv, rfl⟩

/-- **A list** is recovered exactly when its elements are. -/
theorem recovers_mapM {enc : α → Deposit ε σ J} {w : α → V} {ok : α → Prop} {l : List α}
    (hadds : ∀ a ∈ l, Adds (enc a)) (h : ∀ a ∈ l, Recovers (enc a) dec (w a) (ok a)) :
    Recovers (l.mapM enc) (fun t js ↦ js.mapM (dec t)) (l.map w) (∀ a ∈ l, ok a) := by
  induction l with
  | nil => exact recovers_pure fun t ↦ by simp
  | cons a l ih =>
    obtain ⟨ha, hl⟩ := List.forall_mem_cons.mp h
    have haddsl := (List.forall_mem_cons.mp hadds).2
    intro s js s' hp t ht
    rw [List.mapM_cons] at hp
    obtain ⟨j, s₁, hj, hrest⟩ := exec_bind_eq_ok.mp hp
    obtain ⟨js', s₂, hjs, hpure⟩ := exec_bind_eq_ok.mp hrest
    obtain ⟨heq, rfl⟩ := Prod.mk.inj hpure
    obtain rfl := Except.ok.inj heq
    -- the first element was there when the others were added
    have hfirst := ha hj t (((adds_mapM haddsl).le hjs).trans ht)
    have hothers := ih haddsl hl hjs t ht
    rw [List.forall_mem_cons, ← hfirst, ← hothers]
    simp [List.mapM_cons, Option.bind_eq_some_iff]

end Growth

/-! ## Results

The log is a function of the store. -/

/-- What a program returns, when it does. -/
def Returns (p : Deposit ε σ α) (Q : α → Prop) : Prop := ∀ ⦃s a s'⦄, p.exec s = (.ok a, s') → Q a

theorem returns_pure {Q : α → Prop} {a : α} (h : Q a) : Returns (pure a : Deposit ε σ α) Q := by
  intro s a' s' hp
  obtain rfl := Except.ok.inj (Prod.mk.inj hp).1
  exact h

theorem Returns.map {P : α → Prop} {Q : β → Prop} {p : Deposit ε σ α} {g : α → β}
    (h : Returns p P) (hg : ∀ a, P a → Q (g a)) : Returns (do let a ← p; pure (g a)) Q := by
  intro s b s' hp
  obtain ⟨a, t, ha, hpure⟩ := exec_bind_eq_ok.mp hp
  obtain rfl := Except.ok.inj (Prod.mk.inj hpure).1
  exact hg a (h ha)

theorem returns_mapM {enc : α → Deposit ε σ β} {P : α → Prop} {Q : β → Prop} {l : List α}
    (h : ∀ a ∈ l, Returns (enc a) fun b ↦ (Q b ↔ P a)) :
    Returns (l.mapM enc) fun bs ↦ ((∀ b ∈ bs, Q b) ↔ ∀ a ∈ l, P a) := by
  induction l with
  | nil => exact returns_pure (by simp)
  | cons a l ih =>
    obtain ⟨ha, hl⟩ := List.forall_mem_cons.mp h
    intro s bs s' hp
    rw [List.mapM_cons] at hp
    obtain ⟨b, t, hb, hrest⟩ := exec_bind_eq_ok.mp hp
    have hfirst : Q b ↔ P a := ha hb
    have hcons : Returns (do let bs ← l.mapM enc; pure (b :: bs)) fun bs ↦
        ((∀ b ∈ bs, Q b) ↔ ∀ a' ∈ a :: l, P a') := by
      refine (ih hl).map fun bs hbs ↦ ?_
      rw [List.forall_mem_cons, List.forall_mem_cons, hfirst, hbs]
    exact hcons hrest

/-- A log in the store, to which a program adds what is read off its result. -/
def Logs (log : σ → List γ) (p : Deposit ε σ α) (out : α → List γ) : Prop :=
  ∀ ⦃s a s'⦄, p.exec s = (.ok a, s') → log s' = log s ++ out a

section Logs

variable {log : σ → List γ} {out : α → List γ} {out' : β → List γ} {p : Deposit ε σ α}

theorem logs_pure {a : α} (h : out a = []) : Logs log (pure a : Deposit ε σ α) out := by
  intro s a' s' hp
  obtain ⟨ha, rfl⟩ := Prod.mk.inj hp
  obtain rfl := Except.ok.inj ha
  rw [h, List.append_nil]

theorem Logs.map {g : α → β} (h : Logs log p out) (hg : ∀ s a s', p.exec s = (.ok a, s') →
    out' (g a) = out a) : Logs log (do let a ← p; pure (g a)) out' := by
  intro s b s' hp
  obtain ⟨a, t, ha, hpure⟩ := exec_bind_eq_ok.mp hp
  obtain ⟨hb, rfl⟩ := Prod.mk.inj hpure
  obtain rfl := Except.ok.inj hb
  rw [h ha, hg _ _ _ ha]

theorem logs_mapM {enc : α → Deposit ε σ β} {l : List α} (h : ∀ a ∈ l, Logs log (enc a) out') :
    Logs log (l.mapM enc) (List.flatMap out') := by
  induction l with
  | nil => exact logs_pure rfl
  | cons a l ih =>
    obtain ⟨ha, hl⟩ := List.forall_mem_cons.mp h
    intro s bs s' hp
    rw [List.mapM_cons] at hp
    obtain ⟨b, t, hb, hrest⟩ := exec_bind_eq_ok.mp hp
    obtain ⟨bs', t', hbs, hpure⟩ := exec_bind_eq_ok.mp hrest
    obtain ⟨heq, rfl⟩ := Prod.mk.inj hpure
    obtain rfl := Except.ok.inj heq
    rw [ih hl hbs, ha hb, List.flatMap_cons, List.append_assoc]

end Logs

/-! ## Actions

The actions of a program stop at the first that is refused, and so does the program. -/

section Actions

variable {L : Type} (ok : L → Prop) [DecidablePred ok] (act : L → σ → σ) (e : ε)

/-- Actions one after the other, up to the first that is refused; whether none is, and the store. -/
def perform : List L → σ → Bool × σ
  | [], s => (true, s)
  | x :: l, s => if ok x then perform l (act x s) else (false, s)

/-- A program that takes these actions, and fails in one way where one is refused. -/
def Performs (p : Deposit ε σ α) (l : List L) : Prop :=
  ∀ s, (p.exec s).2 = (perform ok act l s).2 ∧
    match (p.exec s).1 with
    | .ok _ => (perform ok act l s).1 = true
    | .error e' => (perform ok act l s).1 = false ∧ e' = e

variable {ok act e}

theorem perform_append (l l' : List L) (s : σ) : perform ok act (l ++ l') s =
    if (perform ok act l s).1 then perform ok act l' (perform ok act l s).2
    else perform ok act l s := by
  induction l generalizing s with
  | nil => rfl
  | cons x l ih =>
    rw [List.cons_append, perform, perform]
    by_cases hx : ok x
    · rw [if_pos hx, if_pos hx]
      exact ih (act x s)
    · rw [if_neg hx, if_neg hx]
      rfl

theorem perform_fst (l : List L) (s : σ) : (perform ok act l s).1 = true ↔ ∀ x ∈ l, ok x := by
  induction l generalizing s with
  | nil => simp [perform]
  | cons x l ih =>
    rw [perform, List.forall_mem_cons]
    split_ifs with hx
    · rw [ih, and_iff_right hx]
    · exact iff_of_false nofun fun h ↦ hx h.1

theorem perform_snd (l : List L) (s : σ) :
    (perform ok act l s).2 = (l.takeWhile ok).foldl (fun s x ↦ act x s) s := by
  induction l generalizing s with
  | nil => rfl
  | cons x l ih =>
    by_cases hx : ok x
    · rw [perform, if_pos hx, ih, List.takeWhile_cons, decide_eq_true hx]
      rfl
    · rw [perform, if_neg hx, List.takeWhile_cons, decide_eq_false hx]
      rfl

theorem performs_pure (a : α) : Performs ok act e (pure a : Deposit ε σ α) [] := fun _ ↦ ⟨rfl, rfl⟩

variable {p : Deposit ε σ α} {l l' : List L}

theorem Performs.bind (hp : Performs ok act e p l) (hf : ∀ a, Performs ok act e (f a) l') :
    Performs ok act e (p >>= f) (l ++ l') := by
  intro s
  obtain ⟨hstate, hresult⟩ := hp s
  rcases hrun : p.exec s with ⟨e' | a, t⟩
  · rw [hrun] at hstate hresult
    rw [exec_bind_error hrun, perform_append, hresult.1]
    exact ⟨hstate, hresult⟩
  · rw [hrun] at hstate hresult
    rw [exec_bind_ok hrun, perform_append, if_pos hresult, ← hstate]
    exact hf a t

theorem Performs.map (hp : Performs ok act e p l) (g : α → β) :
    Performs ok act e (do let a ← p; pure (g a)) l := by
  have hbind := hp.bind fun a ↦ performs_pure (g a)
  rwa [List.append_nil] at hbind

theorem Performs.of_ok (h : Performs ok act e p l) (hrun : p.exec s = (.ok a, s')) :
    s' = l.foldl (fun s x ↦ act x s) s ∧ ∀ x ∈ l, ok x := by
  obtain ⟨hstate, hresult⟩ := h s
  rw [hrun] at hstate hresult
  have hall := (perform_fst l s).mp hresult
  refine ⟨hstate.trans ?_, hall⟩
  rw [perform_snd, List.takeWhile_eq_self_iff.mpr fun x hx ↦ decide_eq_true (hall x hx)]

/-- A program that fails has taken those before the first that is refused. -/
theorem Performs.of_error {e' : ε} (h : Performs ok act e p l)
    (hrun : p.exec s = (.error e', s')) :
    s' = (l.takeWhile ok).foldl (fun s x ↦ act x s) s ∧ (¬∀ x ∈ l, ok x) ∧ e' = e := by
  obtain ⟨hstate, hresult⟩ := h s
  rw [hrun] at hstate hresult
  refine ⟨hstate.trans (perform_snd l s), fun hall ↦ ?_, hresult.2⟩
  exact Bool.false_ne_true (hresult.1.symm.trans ((perform_fst l s).mpr hall))

/-- **A loop** takes the actions of its rounds. -/
theorem performs_mapM {enc : γ → Deposit ε σ β} {acts : γ → List L} {xs : List γ}
    (h : ∀ x ∈ xs, Performs ok act e (enc x) (acts x)) :
    Performs ok act e (xs.mapM enc) (xs.flatMap acts) := by
  induction xs with
  | nil => exact performs_pure []
  | cons x xs ih =>
    obtain ⟨hx, hxs⟩ := List.forall_mem_cons.mp h
    rw [List.mapM_cons, List.flatMap_cons]
    exact hx.bind fun b ↦ (ih hxs).map (b :: ·)

end Actions

end Deposit

/-! ## Decoders

Reading a list is all or nothing. -/

theorem mapM_bind_mapM {f : α → Option β} {g : β → Option γ} (l : List α) :
    ((l.mapM f).bind fun bs ↦ bs.mapM g) = l.mapM fun a ↦ (f a).bind g := by
  induction l with
  | nil => rfl
  | cons a l ih =>
    rw [List.mapM_cons, List.mapM_cons, ← ih]
    cases f a with
    | none => rfl
    | some b =>
      cases hl : l.mapM f with
      | none => cases hg : g b <;> simp [hg]
      | some bs => simp

theorem isSome_mapM {f : α → Option β} {l : List α} :
    (l.mapM f).isSome = true ↔ ∀ a ∈ l, (f a).isSome = true := by
  induction l with
  | nil => simp
  | cons a l ih =>
    rw [List.mapM_cons, List.forall_mem_cons, ← ih]
    cases f a with
    | none => simp
    | some b => cases l.mapM f <;> simp

end Foundation
