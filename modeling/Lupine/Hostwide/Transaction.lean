import Lupine.Hostwide.Rollback

/-!
# The installation as a transaction

Where there is no journal, an installation that is cut off leaves either no journal, and the managed
paths as they were, or a journal that remembers them. An uninstall that is cut off after that leaves
no journal only if it has restored them.

## What is noted

The journal and the backups together remember a path when the backup, if there was anything, is what
was there. An installation writes both before it changes a path, so whichever of its steps is the
last one, the paths are as they were or remembered.
-/

open Foundation

namespace Lupine

/-- The managed paths are as they were when there was no journal. -/
structure HostRoot.RolledBack (root : HostRoot) (initial final : HostFiles) : Prop where
  journal : final.journal = initial.journal
  files : ∀ path, root.lookup final path = root.lookup initial path ∨
    root.lookup final path = (root.lookup initial path).map Entry.kept

namespace HostRoot

variable {root : HostRoot} {initial st : HostFiles} {call : HostCall} {bundle : ShimBundle}
variable {endpoints : List String} {path : ManagedPath} {entry : Entry}

theorem RolledBack.refl : root.RolledBack initial initial := ⟨rfl, fun _ ↦ Or.inl rfl⟩

variable (root) in
/-- The managed paths are as they were, or a journal remembers them. -/
structure Remembered (initial st : HostFiles) : Prop where
  inv : root.Inv False st
  unchanged : st.journal = none → root.RolledBack initial st
  before : st.journal ≠ none → st.before = root.lookup initial

variable (root) in
/-- No managed path has been changed, and there is no journal. -/
structure Untouched (initial st : HostFiles) : Prop where
  journal : st.journal = none
  files : st.files = initial.files

variable (root) in
/-- What was there is noted beside the journal. -/
structure Noted (initial st : HostFiles) : Prop where
  journal : st.journal ≠ none
  before : st.before = root.lookup initial

theorem Untouched.lookup (h : Untouched initial st) : root.lookup st = root.lookup initial := by
  funext path
  rw [HostRoot.lookup, HostRoot.lookup, h.files]

variable (root) in
def Traced (initial st : HostFiles) : Prop := Untouched initial st ∨ root.Noted initial st

theorem spec_backup_untouched :
    Attempt.Spec True (Untouched initial) (root.backup path)
      (fun found st ↦ found = (root.lookup initial path).isSome ∧ Untouched initial st)
      (root.Traced initial) := by
  refine (Attempt.Spec.get (Q := fun found st ↦ root.lookup found = root.lookup initial ∧
    Untouched initial st) fun _ hst ↦ ⟨hst.lookup, hst⟩).bind fun found ↦ ?_
  split
  · rename_i hnone
    refine Attempt.Spec.pure fun st ⟨hfound, hst⟩ ↦ ⟨?_, hst⟩
    rw [← hfound, hnone, Option.isSome_none]
  · exact Attempt.Spec.fail fun _ _ ↦ trivial
  · rename_i entry _ hsome
    refine (Attempt.Spec.ensure (Q := fun _ st ↦ root.lookup found = root.lookup initial ∧
      Untouched initial st) (fun _ _ _ ↦ trivial) fun _ hst _ ↦ hst).bind fun _ ↦ ?_
    refine (Attempt.Spec.step (Q := fun _ st ↦ root.lookup found = root.lookup initial ∧
      Untouched initial st) ?_).bind fun _ ↦ ?_
    · rintro st ⟨hfound, hst⟩
      have hkept : ∀ backups, Untouched initial { st with backups := backups } :=
        fun _ ↦ ⟨hst.journal, hst.files⟩
      exact ⟨Or.inl (hkept _), hfound, hkept _⟩
    · refine Attempt.Spec.pure fun st ⟨hfound, hst⟩ ↦ ⟨?_, hst⟩
      rw [← hfound, hsome, Option.isSome_some]

/-- What is put at a path is not noted. -/
theorem spec_put_noted :
    Attempt.Spec True (root.Noted initial) (root.put path entry) (fun _ ↦ root.Noted initial)
      (root.Traced initial) := by
  refine spec_put (fun _ _ _ ↦ trivial) fun st hst _ ↦ ?_
  have hchanged : root.Noted initial (root.change path (some entry) st) := ⟨hst.journal, hst.before⟩
  exact ⟨Or.inr hchanged, hchanged⟩

/-- **What an installation leaves.** -/
theorem spec_install_traced :
    Attempt.Spec True (Untouched initial) (root.install call bundle endpoints)
      (fun journal st ↦ st.journal = some journal ∧ journal.phase = .attached)
      (root.Traced initial) := by
  rw [install]
  refine (Attempt.Spec.ensure (Q := fun _ ↦ Untouched initial) (fun _ _ _ ↦ trivial)
    fun _ hst _ ↦ hst).bind fun _ ↦ ?_
  refine (Attempt.Spec.get (Q := fun _ ↦ Untouched initial) fun _ hst ↦ hst).bind fun _ ↦ ?_
  refine (Attempt.Spec.ensure (Q := fun _ ↦ Untouched initial) (fun _ _ _ ↦ trivial)
    fun _ hst _ ↦ hst).bind fun _ ↦ ?_
  split
  · exact Attempt.Spec.fail fun _ _ ↦ trivial
  refine (Attempt.Spec.ensure (Q := fun _ ↦ Untouched initial) (fun _ _ _ ↦ trivial)
    fun _ hst _ ↦ hst).bind fun _ ↦ ?_
  have hbackups : Attempt.Spec True (Untouched initial)
      (Attempt.collect (fun path ↦ do return (path, ← root.backup path)) ManagedPath.managed)
      (fun _ ↦ Untouched initial) (root.Traced initial) := by
    refine (Attempt.Spec.collect (g := fun path ↦ (path, (root.lookup initial path).isSome))
      (I := fun _ ↦ Untouched initial) fun _ path _ _ ↦ ?_).mono (fun _ hst ↦ hst)
      fun _ _ hst ↦ hst.2
    exact spec_backup_untouched.bind fun found ↦
      Attempt.Spec.pure fun _ h ↦ ⟨h.1 ▸ rfl, h.2⟩
  refine hbackups.bind fun backups ↦ ?_
  refine (Attempt.Spec.step (Q := fun _ ↦ root.Noted initial) fun st hst ↦ ?_).bind fun _ ↦ ?_
  · have hnoted : ∀ journal, root.Noted initial (root.attach journal st) :=
      fun journal ↦ ⟨Option.some_ne_none journal, hst.lookup⟩
    exact ⟨Or.inr (hnoted _), hnoted _⟩
  refine (Attempt.Spec.forM (I := fun _ ↦ root.Noted initial) fun _ _ _ _ ↦ spec_put_noted).bind
    fun _ ↦ ?_
  refine (Attempt.Spec.ensure (Q := fun _ ↦ root.Noted initial) (fun _ _ _ ↦ trivial)
    fun _ hst _ ↦ hst).bind fun _ ↦ ?_
  refine (Attempt.Spec.get (Q := fun _ ↦ root.Noted initial) fun _ hst ↦ hst).bind fun _ ↦ ?_
  refine (Attempt.Spec.ensure (Q := fun _ ↦ root.Noted initial) (fun _ _ _ ↦ trivial)
    fun _ hst _ ↦ hst).bind fun _ ↦ ?_
  refine Attempt.Spec.bind (Attempt.Spec.step fun st hst ↦ ⟨Or.inr ?_, rfl⟩) fun _ ↦
    Attempt.Spec.pure fun _ hst ↦ ⟨hst, rfl⟩
  exact ⟨Option.some_ne_none _, hst.before⟩

/-! ## What is left

The statements about a whole installation and a whole uninstall follow from those about their
steps. -/

theorem Untouched.remembered (h : Untouched initial st) (hinv : root.Inv False st)
    (hinitial : initial.journal = none) : root.Remembered initial st where
  inv := hinv
  unchanged hnone := ⟨hnone.trans hinitial.symm, fun path ↦ Or.inl (congrFun h.lookup path)⟩
  before hjournal := absurd h.journal hjournal

theorem Traced.remembered (h : root.Traced initial st) (hinv : root.Inv False st)
    (hinitial : initial.journal = none) : root.Remembered initial st := by
  rcases h with huntouched | hnoted
  · exact huntouched.remembered hinv hinitial
  · exact ⟨hinv, fun hnone ↦ absurd hnone hnoted.journal, fun _ ↦ hnoted.before⟩

/-- **An installation** that is cut off or fails. -/
theorem install_remembered (hinv : root.Inv False initial) (hinitial : initial.journal = none)
    (steps : ℕ) :
    root.Remembered initial ((root.install call bundle endpoints).after steps initial) ∧
      root.Remembered initial ((root.install call bundle endpoints).final initial) := by
  have huntouched : Untouched initial initial := ⟨hinitial, rfl⟩
  have htraced : Attempt.Spec True (Untouched initial) (root.install call bundle endpoints) _
      (root.Traced initial) := spec_install_traced
  have hkept : Attempt.Spec True (root.Inv False) (root.install call bundle endpoints)
      (fun _ _ ↦ True) (root.Inv False) := spec_install False.elim
  constructor
  · exact (htraced.after huntouched (Or.inl huntouched) steps).remembered
      (hkept.after hinv hinv steps) hinitial
  · exact (htraced.final huntouched (Or.inl huntouched)).remembered (hkept.final hinv hinv) hinitial

theorem install_attached (hinitial : initial.journal = none) {journal : Journal}
    (hreturns : (root.install call bundle endpoints initial).2 = some journal) :
    ((root.install call bundle endpoints).final initial).journal.map (·.phase) =
      some .attached := by
  have huntouched : Untouched initial initial := ⟨hinitial, rfl⟩
  obtain ⟨hjournal, hphase⟩ := (spec_install_traced initial huntouched).2.2 journal hreturns
  rw [hjournal, Option.map_some, hphase]

theorem rolledBack_of_restored (hinitial : initial.journal = none) (hdetached : root.Detached st)
    (hrestored : ∀ path, root.Restored (root.lookup initial) st path) :
    root.RolledBack initial st :=
  ⟨hdetached.journal.trans hinitial.symm, fun path ↦ Or.inr (hrestored path)⟩

/-- **An uninstall** of what is remembered. -/
theorem spec_uninstall_remembered (hinitial : initial.journal = none) :
    Attempt.Spec True (fun st ↦ root.Remembered initial st ∧ st.journal ≠ none)
      (root.uninstall call) (fun _ ↦ root.RolledBack initial) (root.Remembered initial) := by
  have hspec : Attempt.Spec True (fun st ↦ root.Inv False st ∧ st.before = root.lookup initial ∧
      (¬True → ∃ journal, st.journal = some journal ∧ root.Accepted journal st))
      (root.uninstall call)
      (fun _ st ↦ root.Detached st ∧ ∀ path, root.Restored (root.lookup initial) st path)
      (root.Remembered initial) := by
    refine spec_uninstall (fun journal st hphase hst ↦ ?_) (fun st hst hrestored ↦ ?_)
      (fun _ ↦ trivial) (fun _ ↦ trivial) fun _ ↦ trivial
    · refine ⟨hst.inv hphase, fun hnone ↦ ?_, fun _ ↦ hst.before⟩
      exact nomatch hst.journaled.written.symm.trans hnone
    · refine ⟨hst.inv, fun _ ↦ rolledBack_of_restored hinitial hst hrestored, fun hjournal ↦ ?_⟩
      exact absurd hst.journal hjournal
  refine hspec.mono (fun st ⟨hst, hjournal⟩ ↦ ?_) fun _ st ⟨hst, hrestored⟩ ↦ ?_
  · exact ⟨hst.inv, hst.before hjournal, fun hnot ↦ absurd trivial hnot⟩
  · exact rolledBack_of_restored hinitial hst hrestored

end HostRoot

end Lupine
