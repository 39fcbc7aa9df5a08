import Mathlib.Data.List.Basic

/-!
# Readers

A reader takes items off the front of what is inbound, or fails. What was written for it is read
exactly when it takes that and nothing of what follows, whatever follows. Readers are put together
as programs are, and what they read is put together along with them.

## Both ways

`Reads` says that what was written is read exactly; `Rejects`, that the reader fails on it whatever
follows. The second is what is shown of data that does not come through. Both go through sequences,
conditions and loops by rules of the same form, so a proof about a reader follows its program.
-/

namespace Foundation

variable {ι α β : Type}

/-- A reader: what it makes of the items that are inbound, and the items it leaves. -/
abbrev Reader (ι α : Type) := StateT (List ι) Option α

namespace Reader

/-- What was written is read exactly, and is understood to be `x`. -/
def Reads (r : Reader ι α) (written : List ι) (x : α) : Prop :=
  ∀ rest, r.run (written ++ rest) = some (x, rest)

variable {r : Reader ι α} {f : α → Reader ι β} {written written' : List ι} {x : α} {y : β}

theorem Reads.run (h : r.Reads written x) : r.run written = some (x, []) := by
  have hrun := h []
  rwa [List.append_nil] at hrun

/-- It is understood in one way. -/
theorem Reads.unique {x' : α} (h : r.Reads written x) (h' : r.Reads written x') : x = x' :=
  congrArg Prod.fst (Option.some.inj (h.run.symm.trans h'.run))

/-! ## Programs

A sequence reads the concatenation of what its parts read. -/

theorem reads_pure (x : α) : (pure x : Reader ι α).Reads [] x := fun _ ↦ rfl

/-- **One after the other.** Once the first has read its part, the second is left with the rest. -/
theorem Reads.bind_iff (h : r.Reads written x) :
    (r >>= f).Reads (written ++ written') y ↔ (f x).Reads written' y := by
  refine forall_congr' fun rest ↦ ?_
  rw [StateT.run_bind, List.append_assoc, h (written' ++ rest)]
  rfl

theorem Reads.bind (h : r.Reads written x) (h' : (f x).Reads written' y) :
    (r >>= f).Reads (written ++ written') y := h.bind_iff.mpr h'

theorem Reads.bind_nil (h : r.Reads written x) (h' : (f x).Reads [] y) :
    (r >>= f).Reads written y := by
  have hbind := h.bind h'
  rwa [List.append_nil] at hbind

theorem Reads.bind_pure {g : α → β} (h : r.Reads written x) :
    (r >>= fun x ↦ pure (g x)).Reads written (g x) := h.bind_nil (reads_pure (g x))

theorem Reads.ite {c : Prop} [Decidable c] {x' : α} (h : c → r.Reads written x) :
    (if c then r else pure x').Reads (if c then written else []) (if c then x else x') := by
  split_ifs with hc
  · exact h hc
  · exact reads_pure x'

/-! ## Failures

A sequence rejects what its first part rejects, and what its second part rejects once the first has
read its own. -/

theorem not_reads_of_run (h : r.run written = none) : ¬r.Reads written x := by
  intro hr
  rw [hr.run] at h
  exact absurd h nofun

theorem run_bind_of_none {input : List ι} (h : r.run input = none) :
    (r >>= f).run input = none := by
  rw [StateT.run_bind, h]
  rfl

/-- A reader that fails on what was written, whatever follows. -/
def Rejects (r : Reader ι α) (written : List ι) : Prop := ∀ rest, r.run (written ++ rest) = none

theorem Rejects.not_reads (h : r.Rejects written) : ¬r.Reads written x := by
  intro hr
  exact absurd ((h []).symm.trans (hr [])) nofun

theorem Rejects.bind_left (h : r.Rejects written) : (r >>= f).Rejects written :=
  fun rest ↦ run_bind_of_none (h rest)

theorem Rejects.bind (h : r.Rejects written) : (r >>= f).Rejects (written ++ written') := by
  intro rest
  rw [List.append_assoc]
  exact run_bind_of_none (h _)

theorem Reads.bind_rejects (h : r.Reads written x) (h' : (f x).Rejects written') :
    (r >>= f).Rejects (written ++ written') := by
  intro rest
  rw [StateT.run_bind, List.append_assoc, h (written' ++ rest)]
  exact h' rest

theorem Reads.bind_nil_rejects (h : r.Reads written x) (h' : (f x).Rejects []) :
    (r >>= f).Rejects written := by
  have hbind := h.bind_rejects h'
  rwa [List.append_nil] at hbind

theorem rejects_failure : (failure : Reader ι α).Rejects written := fun _ ↦ rfl

/-! ## Loops

A loop over a count reads so many items, and fails at the first that is rejected. -/

def times (r : Reader ι α) : ℕ → Reader ι (List α)
  | 0 => pure []
  | n + 1 => do
    let x ← r
    let xs ← r.times n
    pure (x :: xs)

section Times

variable {γ : Type} {w : γ → List ι} {v : γ → α} {l : List γ}

/-- **A loop** reads what was written item by item. -/
theorem reads_times (h : ∀ a ∈ l, r.Reads (w a) (v a)) :
    (r.times l.length).Reads (l.flatMap w) (l.map v) := by
  induction l with
  | nil => exact reads_pure []
  | cons a l ih =>
    obtain ⟨ha, hl⟩ := List.forall_mem_cons.mp h
    rw [List.length_cons, times, List.flatMap_cons, List.map_cons]
    exact ha.bind (ih hl).bind_pure

theorem rejects_times (h : ∀ a ∈ l, r.Reads (w a) (v a) ∨ r.Rejects (w a))
    (hrejects : ∃ a ∈ l, r.Rejects (w a)) : (r.times l.length).Rejects (l.flatMap w) := by
  induction l with
  | nil => exact absurd hrejects (by simp)
  | cons a l ih =>
    obtain ⟨ha, hl⟩ := List.forall_mem_cons.mp h
    rw [List.length_cons, times, List.flatMap_cons]
    rcases ha with ha | ha
    · obtain ⟨b, hb, hbad⟩ := hrejects
      rcases List.mem_cons.mp hb with rfl | hb
      · exact absurd ha hbad.not_reads
      · exact ha.bind_rejects (ih hl ⟨b, hb, hbad⟩).bind_left
    · exact ha.bind

end Times

/-! ## Answers -/

/-- Whatever is read, the answer is of this kind. -/
def Always (r : Reader ι α) (P : α → Prop) : Prop :=
  ∀ input x rest, r.run input = some (x, rest) → P x

theorem always_pure {P : α → Prop} (h : P x) : (pure x : Reader ι α).Always P := by
  rintro input x' rest heq
  obtain ⟨rfl, -⟩ := Prod.mk.inj (Option.some.inj heq)
  exact h

theorem always_bind {P : β → Prop} (h : ∀ x, (f x).Always P) : (r >>= f).Always P := by
  intro input y rest heq
  rw [StateT.run_bind] at heq
  obtain ⟨⟨x, input'⟩, -, hf⟩ := Option.bind_eq_some_iff.mp heq
  exact h x input' y rest hf

theorem Reads.of_always {P : α → Prop} (h : r.Reads written x) (hP : r.Always P) : P x :=
  hP written x [] h.run

end Reader

end Foundation
