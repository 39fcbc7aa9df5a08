import Lupine.Foundation.UniqueMatch

/-!
# Spans of addresses

A span is a base and a size. Things with spans that are apart are told by any address they cover.

A span need not be within an address space; where it wraps is for the user of the library to say.
-/

namespace Foundation

/-- The addresses from a base on, as many as the size. -/
structure Span where
  base : ℕ
  size : ℕ
  deriving DecidableEq, Repr

namespace Span

/-- The address is in the span. -/
def Covers (s : Span) (p : ℕ) : Prop := s.base ≤ p ∧ p < s.base + s.size

/-- One span ends before the other begins. -/
def Apart (s t : Span) : Prop := s.base + s.size ≤ t.base ∨ t.base + t.size ≤ s.base

/-- One span lies in the other. -/
def Within (s t : Span) : Prop := t.base ≤ s.base ∧ s.base + s.size ≤ t.base + t.size

instance (s : Span) (p : ℕ) : Decidable (s.Covers p) := inferInstanceAs (Decidable (_ ∧ _))

instance (s t : Span) : Decidable (s.Apart t) := inferInstanceAs (Decidable (_ ∨ _))

instance (s t : Span) : Decidable (s.Within t) := inferInstanceAs (Decidable (_ ∧ _))

variable {s t : Span} {p : ℕ}

theorem Apart.symm (h : s.Apart t) : t.Apart s := Or.symm h

theorem Apart.not_covers (h : s.Apart t) (hs : s.Covers p) : ¬t.Covers p := by
  rintro ⟨hlow, hhigh⟩
  obtain ⟨hlow', hhigh'⟩ := hs
  rcases h with h | h <;> omega

theorem covers_base (h : 0 < s.size) : s.Covers s.base := ⟨le_rfl, Nat.lt_add_of_pos_right h⟩

theorem Within.covers (h : s.Within t) (hp : s.Covers p) : t.Covers p :=
  ⟨Nat.le_trans h.1 hp.1, Nat.lt_of_lt_of_le hp.2 h.2⟩

theorem Apart.mono {s' t' : Span} (h : s.Apart t) (hs : s'.Within s) (ht : t'.Within t) :
    s'.Apart t' :=
  h.imp (fun hle ↦ Nat.le_trans hs.2 (Nat.le_trans hle ht.1))
    fun hle ↦ Nat.le_trans ht.2 (Nat.le_trans hle hs.1)

theorem Covers.move (h : s.Covers p) (q : ℕ) : (⟨q, s.size⟩ : Span).Covers (q + (p - s.base)) :=
  ⟨Nat.le_add_right _ _, Nat.add_lt_add_left (Nat.sub_lt_left_of_lt_add h.1 h.2) q⟩

end Span

/-! ## Things with spans

A list is searched for the first thing that covers an address, which is the only one when all are
apart. -/

section Apart

variable {α : Type*} {span : α → Span} {l : List α} {x y : α} {p : ℕ}

/-- Of things apart only one covers an address. -/
theorem eq_of_covers (h : l.Pairwise fun x y ↦ (span x).Apart (span y)) (hx : x ∈ l) (hy : y ∈ l)
    (hpx : (span x).Covers p) (hpy : (span y).Covers p) : x = y := by
  by_contra hne
  have hsymm : Std.Symm fun x y ↦ (span x).Apart (span y) := ⟨fun _ _ ↦ Span.Apart.symm⟩
  exact (h.forall hx hy hne).not_covers hpx hpy

theorem find?_covers_eq_some (h : l.Pairwise fun x y ↦ (span x).Apart (span y)) :
    (l.find? fun x ↦ (span x).Covers p) = some x ↔ x ∈ l ∧ (span x).Covers p := by
  constructor
  · intro hfind
    exact ⟨List.mem_of_find?_eq_some hfind,
      of_decide_eq_true (List.find?_some (p := fun x ↦ decide ((span x).Covers p)) hfind)⟩
  · rintro ⟨hx, hp⟩
    apply find?_eq_some_of_unique hx (decide_eq_true hp)
    intro y hy hpy
    exact eq_of_covers h hy hx (of_decide_eq_true hpy) hp

end Apart

end Foundation
