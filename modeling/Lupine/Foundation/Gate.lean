import Lupine.Foundation.Totals

/-!
# A gate that can be closed

A gate lets any number of threads inside and counts them. A thread that wants everybody out counts
itself as a waiter, becomes the owner when there is none, and holds the gate once nobody is inside;
it gives the gate up when it is done. Nobody gets in while the gate is owned or waited for.

Each operation is what a thread does between two waits. `Gate.Agrees` says that the counters are
those of the threads' phases; everything else follows from it.
-/

namespace Foundation

inductive GatePhase where
  | outside
  | inside
  | waiting
  | owning
  | holding
  deriving DecidableEq, Repr

/-- The counters of a gate, which a lock protects. -/
structure Gate where
  inside : ℕ := 0
  waiters : ℕ := 0
  owned : Bool := false
  deriving DecidableEq, Repr

namespace GatePhase

def atInside : GatePhase → ℤ
  | inside => 1
  | _ => 0

def atWaiting : GatePhase → ℤ
  | waiting => 1
  | _ => 0

def atOwning : GatePhase → ℤ
  | owning | holding => 1
  | _ => 0

/-- The thread has come to empty the gate. -/
def Closes (p : GatePhase) : Prop := p = waiting ∨ p = owning ∨ p = holding

theorem atInside_nonneg (p : GatePhase) : 0 ≤ p.atInside := by cases p <;> decide

theorem atWaiting_nonneg (p : GatePhase) : 0 ≤ p.atWaiting := by cases p <;> decide

theorem atOwning_nonneg (p : GatePhase) : 0 ≤ p.atOwning := by cases p <;> decide

end GatePhase

namespace Gate

variable (g : Gate)

/-- To get in: nobody owns the gate or waits for it. -/
def enter : Option Gate :=
  if g.owned = false ∧ g.waiters = 0 then some { g with inside := g.inside + 1 } else none

def leave : Gate := if g.inside = 0 then g else { g with inside := g.inside - 1 }

def request : Gate := { g with waiters := g.waiters + 1 }

/-- A waiter becomes the owner: there is none. -/
def own : Option Gate :=
  if g.owned = false then some { g with waiters := g.waiters - 1, owned := true } else none

def resume : Gate := if g.owned = false then g else { g with owned := false }

def owners : ℤ := if g.owned then 1 else 0

/-! ## The counters are those of the threads

A counter is the number of threads in a phase, as a total of weights. So a thread in a phase makes
the counter positive, and a gate that is held has one owner and nobody inside. -/

variable {g} {ι : Type*} [Fintype ι] {phase : ι → GatePhase}

/-- The counters agree with where the threads stand, and nobody is inside a gate that is held. -/
structure Agrees (g : Gate) (phase : ι → GatePhase) : Prop where
  inside : (g.inside : ℤ) = total GatePhase.atInside phase
  waiters : (g.waiters : ℤ) = total GatePhase.atWaiting phase
  owners : g.owners = total GatePhase.atOwning phase
  empty : ∀ t, phase t = .holding → g.inside = 0

theorem agrees_init (h : ∀ t, phase t = .outside) : Agrees {} phase := by
  have hzero : ∀ weight : GatePhase → ℤ, weight .outside = 0 → total weight phase = 0 :=
    fun weight hweight ↦ total_eq_zero fun t ↦ h t ▸ hweight
  exact ⟨(hzero _ rfl).symm, (hzero _ rfl).symm, (hzero _ rfl).symm, fun _ _ ↦ rfl⟩

variable [DecidableEq ι] {g' : Gate} {t u : ι} {x y : GatePhase}

/-- **A step of one thread**, by what it changes of the counters. -/
theorem Agrees.move (h : g.Agrees phase) (hx : phase t = x)
    (hinside : (g'.inside : ℤ) = g.inside + (y.atInside - x.atInside))
    (hwaiters : (g'.waiters : ℤ) = g.waiters + (y.atWaiting - x.atWaiting))
    (howners : g'.owners = g.owners + (y.atOwning - x.atOwning))
    (hheld : ∀ u, phase u = .holding → g'.inside = 0)
    (hholding : y = .holding → g'.inside = 0) :
    g'.Agrees (Function.update phase t y) := by
  refine ⟨?_, ?_, ?_, ?_⟩
  · rw [total_update, hx, ← h.inside, hinside]
  · rw [total_update, hx, ← h.waiters, hwaiters]
  · rw [total_update, hx, ← h.owners, howners]
  · intro u hu
    by_cases hut : u = t
    · rw [hut, Function.update_self] at hu
      exact hholding hu
    · rw [Function.update_of_ne hut] at hu
      exact hheld u hu

theorem Agrees.inside_pos (h : g.Agrees phase) (ht : phase t = .inside) : 0 < g.inside := by
  have hle : (phase t).atInside ≤ total GatePhase.atInside phase :=
    le_total (fun u ↦ (phase u).atInside_nonneg) t
  have hone : (phase t).atInside = 1 := ht ▸ rfl
  have hinside := h.inside
  omega

theorem Agrees.waiters_pos (h : g.Agrees phase) (ht : phase t = .waiting) : 0 < g.waiters := by
  have hle : (phase t).atWaiting ≤ total GatePhase.atWaiting phase :=
    le_total (fun u ↦ (phase u).atWaiting_nonneg) t
  have hone : (phase t).atWaiting = 1 := ht ▸ rfl
  have hwaiters := h.waiters
  omega

theorem Agrees.owned (h : g.Agrees phase) (ht : (phase t).atOwning = 1) : g.owned = true := by
  have hle : (phase t).atOwning ≤ total GatePhase.atOwning phase :=
    le_total (fun u ↦ (phase u).atOwning_nonneg) t
  have howners := h.owners
  by_contra hfree
  rw [Gate.owners, if_neg hfree] at howners
  omega

theorem Agrees.owner_unique (h : g.Agrees phase) (ht : (phase t).atOwning = 1)
    (hu : (phase u).atOwning = 1) : t = u := by
  by_contra hne
  have hle : (phase t).atOwning + (phase u).atOwning ≤ total GatePhase.atOwning phase :=
    add_le_total (fun u ↦ (phase u).atOwning_nonneg) (Ne.symm hne)
  have howners := h.owners
  have hone : g.owners ≤ 1 := by
    rw [Gate.owners]
    split_ifs <;> decide
  omega

/-- A gate that somebody has come to empty lets nobody in. -/
theorem Agrees.enter_eq_none (h : g.Agrees phase) (ht : (phase t).Closes) : g.enter = none := by
  refine if_neg ?_
  rintro ⟨hfree, hnone⟩
  rcases ht with ht | ht | ht
  · exact absurd (h.waiters_pos ht) (hnone ▸ Nat.lt_irrefl 0)
  · exact absurd ((h.owned (ht ▸ rfl : (phase t).atOwning = 1)).symm.trans hfree) (by decide)
  · exact absurd ((h.owned (ht ▸ rfl : (phase t).atOwning = 1)).symm.trans hfree) (by decide)

theorem Agrees.not_inside (h : g.Agrees phase) (ht : phase t = .holding) : phase u ≠ .inside :=
  fun hu ↦ absurd (h.inside_pos hu) (h.empty t ht ▸ Nat.lt_irrefl 0)

/-! ## The operations

Each operation moves one thread from one phase to the next and changes one counter or two. -/

theorem Agrees.enter (h : g.Agrees phase) (ht : phase t = .outside) (hg : g.enter = some g') :
    g'.Agrees (Function.update phase t .inside) := by
  have hopen : ∀ u, phase u ≠ .holding := fun u hu ↦
    absurd (h.enter_eq_none (Or.inr (Or.inr hu))) (hg ▸ Option.some_ne_none g')
  rw [Gate.enter] at hg
  split_ifs at hg
  obtain rfl := Option.some.inj hg
  exact h.move ht (by push_cast; rfl) (add_zero _).symm (add_zero _).symm
    (fun u hu ↦ absurd hu (hopen u)) (fun hy ↦ (nomatch hy))

theorem Agrees.leave (h : g.Agrees phase) (ht : phase t = .inside) :
    g.leave.Agrees (Function.update phase t .outside) := by
  have hpos := h.inside_pos ht
  rw [Gate.leave, if_neg hpos.ne']
  refine h.move ht ?_ (add_zero _).symm (add_zero _).symm
    (fun u hu ↦ absurd ht (h.not_inside hu)) (fun hy ↦ (nomatch hy))
  show ((g.inside - 1 : ℕ) : ℤ) = g.inside + (0 - 1)
  omega

theorem Agrees.request (h : g.Agrees phase) (ht : phase t = .outside) :
    g.request.Agrees (Function.update phase t .waiting) :=
  h.move ht (add_zero _).symm (by rw [Gate.request]; push_cast; rfl) (add_zero _).symm
    h.empty (fun hy ↦ (nomatch hy))

theorem Agrees.own (h : g.Agrees phase) (ht : phase t = .waiting) (hg : g.own = some g') :
    g'.Agrees (Function.update phase t .owning) := by
  have hpos := h.waiters_pos ht
  rw [Gate.own] at hg
  split_ifs at hg with hfree
  obtain rfl := Option.some.inj hg
  refine h.move ht (add_zero _).symm ?_ ?_ h.empty (fun hy ↦ (nomatch hy))
  · show ((g.waiters - 1 : ℕ) : ℤ) = g.waiters + (0 - 1)
    omega
  · show (1 : ℤ) = g.owners + (1 - 0)
    rw [Gate.owners, hfree]
    rfl

theorem Agrees.hold (h : g.Agrees phase) (ht : phase t = .owning) (hempty : g.inside = 0) :
    g.Agrees (Function.update phase t .holding) :=
  h.move ht (add_zero _).symm (add_zero _).symm (add_zero _).symm (fun _ _ ↦ hempty)
    (fun _ ↦ hempty)

theorem Agrees.resume (h : g.Agrees phase) (ht : phase t = .holding) :
    g.resume.Agrees (Function.update phase t .outside) := by
  have howned := h.owned (ht ▸ rfl : (phase t).atOwning = 1)
  have hresume : g.resume = { g with owned := false } := if_neg (by rw [howned]; decide)
  rw [hresume]
  refine h.move ht (add_zero _).symm (add_zero _).symm ?_ h.empty
    (fun hy ↦ (nomatch hy))
  show (0 : ℤ) = g.owners + (0 - 1)
  rw [Gate.owners, howned]
  rfl

end Gate

end Foundation
