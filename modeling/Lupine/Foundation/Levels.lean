import Mathlib.Data.Nat.Notation

/-!
# Levels that are entered and left

A stack that is never empty: the entry on top is the one in use, and below it are those to come
back to. A step enters a level, leaves one, replaces the entry on top or does nothing. What is below
the level in which a list of steps begins is out of its reach as long as it leaves no more levels
than it has entered; so a list that enters and leaves equally many comes back to where it began.

Steps are counted by how far they end above the level they began in; they are balanced if they end
there and have never been below. The entry of that level is out of reach too, unless a step in it
replaces it.
-/

namespace Foundation

/-- A stack with an entry on top. -/
@[ext]
structure Levels (γ : Type*) where
  top : γ
  below : List γ
  deriving DecidableEq, Repr

inductive LevelStep (γ : Type*) where
  | enter (entry : γ)
  | leave
  | replace (entry : γ)
  | keep
  deriving DecidableEq, Repr

namespace Levels

variable {γ : Type*} (ground : γ)

/-- The levels after a step; below the last one is the ground. -/
def after (levels : Levels γ) : LevelStep γ → Levels γ
  | .enter entry => ⟨entry, levels.top :: levels.below⟩
  | .leave => ⟨levels.below.headD ground, levels.below.tail⟩
  | .replace entry => ⟨entry, levels.below⟩
  | .keep => levels

def afterAll (levels : Levels γ) (steps : List (LevelStep γ)) : Levels γ :=
  steps.foldl (after ground) levels

variable {ground}

theorem afterAll_cons (levels : Levels γ) (step : LevelStep γ) (steps : List (LevelStep γ)) :
    levels.afterAll ground (step :: steps) = (levels.after ground step).afterAll ground steps :=
  rfl

end Levels

namespace LevelStep

variable {γ : Type*} {ground : γ}

/-- How far the steps end above where they began, when they never go below. -/
def heightAfter : ℕ → List (LevelStep γ) → Option ℕ
  | height, [] => some height
  | height, .enter _ :: steps => heightAfter (height + 1) steps
  | 0, .leave :: _ => none
  | height + 1, .leave :: steps => heightAfter height steps
  | height, .replace _ :: steps => heightAfter height steps
  | height, .keep :: steps => heightAfter height steps

/-- As many levels are left as were entered, and none before it was entered. -/
def Balanced (steps : List (LevelStep γ)) : Prop := heightAfter 0 steps = some 0

instance (steps : List (LevelStep γ)) : Decidable (Balanced steps) :=
  inferInstanceAs (Decidable (_ = _))

/-- No entry is replaced in the level that is `height` below the first step. -/
def KeepsEntry : ℕ → List (LevelStep γ) → Prop
  | _, [] => True
  | height, .enter _ :: steps => KeepsEntry (height + 1) steps
  | height, .leave :: steps => KeepsEntry (height - 1) steps
  | height, .replace _ :: steps => height ≠ 0 ∧ KeepsEntry height steps
  | height, .keep :: steps => KeepsEntry height steps

instance decidableKeepsEntry : ∀ (height : ℕ) (steps : List (LevelStep γ)),
    Decidable (KeepsEntry height steps)
  | _, [] => inferInstanceAs (Decidable True)
  | height, .enter _ :: steps => decidableKeepsEntry (height + 1) steps
  | height, .leave :: steps => decidableKeepsEntry (height - 1) steps
  | height, .replace _ :: steps =>
    have := decidableKeepsEntry height steps
    inferInstanceAs (Decidable (_ ∧ _))
  | height, .keep :: steps => decidableKeepsEntry height steps

end LevelStep

namespace Levels

variable {γ : Type*} {ground : γ}

/-- The levels are those entered since, and below them an entry and a fixed rest. -/
def Above (levels : Levels γ) (height : ℕ) (entry : γ) (rest : List γ) : Prop :=
  ∃ entered : List γ, entered.length = height ∧
    levels.top :: levels.below = entered ++ entry :: rest

theorem above_zero {levels : Levels γ} {entry : γ} {rest : List γ} :
    levels.Above 0 entry rest ↔ levels = ⟨entry, rest⟩ := by
  constructor
  · rintro ⟨entered, hlength, heq⟩
    obtain rfl := List.length_eq_zero_iff.mp hlength
    obtain ⟨htop, hbelow⟩ := List.cons.inj heq
    exact Levels.ext htop hbelow
  · rintro rfl
    exact ⟨[], rfl, rfl⟩

theorem Above.enter {levels : Levels γ} {height : ℕ} {entry : γ} {rest : List γ}
    (h : levels.Above height entry rest) (next : γ) :
    (levels.after ground (.enter next)).Above (height + 1) entry rest := by
  obtain ⟨entered, rfl, heq⟩ := h
  exact ⟨next :: entered, rfl, by rw [List.cons_append, ← heq]; rfl⟩

theorem Above.leave {levels : Levels γ} {height : ℕ} {entry : γ} {rest : List γ}
    (h : levels.Above (height + 1) entry rest) :
    (levels.after ground .leave).Above height entry rest := by
  obtain ⟨entered, hlength, heq⟩ := h
  obtain ⟨last, entered, rfl⟩ := List.exists_cons_of_length_eq_add_one hlength
  obtain ⟨-, hbelow⟩ := List.cons.inj (heq.trans List.cons_append)
  refine ⟨entered, Nat.succ.inj hlength, ?_⟩
  -- something is below: what was entered before, or the entry itself
  have hne : levels.below ≠ [] := by
    rw [hbelow]
    exact List.append_ne_nil_of_right_ne_nil _ (List.cons_ne_nil _ _)
  obtain ⟨x, xs, hx⟩ := List.exists_cons_of_ne_nil hne
  rw [← hbelow, after, hx]
  rfl

theorem Above.replace {levels : Levels γ} {height : ℕ} {entry : γ} {rest : List γ}
    (h : levels.Above height entry rest) (next : γ) :
    ∃ entry', (levels.after ground (.replace next)).Above height entry' rest ∧
      (height ≠ 0 → entry' = entry) := by
  obtain ⟨entered, rfl, heq⟩ := h
  match entered with
  | [] => exact ⟨next, ⟨[], rfl, by rw [(List.cons.inj heq).2.symm]; rfl⟩, fun h ↦ absurd rfl h⟩
  | last :: entered =>
    refine ⟨entry, ⟨next :: entered, rfl, ?_⟩, fun _ ↦ rfl⟩
    exact congrArg (next :: ·) (List.cons.inj (heq.trans List.cons_append)).2

/-- **What is below is out of reach.** Steps that do not leave the level they are counted from keep
what is below it, and its entry too unless they replace it there. -/
theorem Above.afterAll {levels : Levels γ} {height height' : ℕ} {entry : γ} {rest : List γ}
    {steps : List (LevelStep γ)} (h : levels.Above height entry rest)
    (hheight : LevelStep.heightAfter height steps = some height') :
    ∃ entry', (levels.afterAll ground steps).Above height' entry' rest ∧
      (LevelStep.KeepsEntry height steps → entry' = entry) := by
  -- the induction is over the steps, for every height they begin at
  induction steps generalizing levels height entry with
  | nil =>
    rw [LevelStep.heightAfter, Option.some.injEq] at hheight
    subst hheight
    exact ⟨entry, h, fun _ ↦ rfl⟩
  | cons step steps ih =>
    rw [afterAll_cons]
    match step, height with
    | .enter next, height => exact ih (h.enter next) hheight
    | .leave, 0 => exact nomatch hheight
    | .leave, height + 1 => exact ih h.leave hheight
    | .keep, height => exact ih h (by simpa only [LevelStep.heightAfter] using hheight)
    | .replace next, height =>
      obtain ⟨entry₁, habove, heq₁⟩ := h.replace next
      obtain ⟨entry₂, habove, heq₂⟩ :=
        ih habove (by simpa only [LevelStep.heightAfter] using hheight)
      exact ⟨entry₂, habove, fun ⟨hne, hkeeps⟩ ↦ (heq₂ hkeeps).trans (heq₁ hne)⟩

/-- Balanced steps change at most the entry on top. -/
theorem afterAll_balanced {levels : Levels γ} {steps : List (LevelStep γ)}
    (hbalanced : LevelStep.Balanced steps) :
    (levels.afterAll ground steps).below = levels.below ∧
      (LevelStep.KeepsEntry 0 steps → (levels.afterAll ground steps).top = levels.top) := by
  have hstart : levels.Above 0 levels.top levels.below := above_zero.mpr rfl
  obtain ⟨entry, habove, hentry⟩ := hstart.afterAll hbalanced
  rw [above_zero.mp habove]
  exact ⟨rfl, hentry⟩

/-- **A level that is left again.** After entering a level, balanced steps and leaving it, the
levels are those of before. -/
theorem after_leave_of_balanced {levels : Levels γ} {next : γ} {steps : List (LevelStep γ)}
    (hbalanced : LevelStep.Balanced steps) :
    ((levels.after ground (.enter next)).afterAll ground steps).after ground .leave = levels := by
  have hbelow : ((levels.after ground (.enter next)).afterAll ground steps).below =
      levels.top :: levels.below := (afterAll_balanced hbalanced).1
  have hleave (l : Levels γ) : l.after ground .leave = ⟨l.below.headD ground, l.below.tail⟩ := rfl
  rw [hleave, hbelow]
  rfl

end Levels

end Foundation
