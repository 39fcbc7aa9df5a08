import Lupine.Hostwide.Install

/-!
# Taking the installation back

The backups are made first, then the journal is written, and only then are managed paths changed. So
whenever there is a journal, the backups hold what was there before it, and what is found at a path
is what was installed, or what is backed up, or nothing while it is rolled back. That is what
`uninstall` checks before it removes anything, and it may be interrupted and start again.

## Two ways to be stuck

* The fingerprint that the journal has of a file of the bundle is taken without following links,
  while the file is copied from where the link leads. `install` then fails at its last check, and
  `uninstall` takes the copy for a file that someone has changed.
* Where a parent of a managed path is a file, `install` fails when it makes the parent, and
  `uninstall` when it removes the path: only a path that is missing is passed over.

In both cases the journal stays, and every attempt after that fails.

## The phases

An attempt goes through phases that each have an invariant of their own: backing up, when no managed
path has been changed; installing, when some paths are installed and the others as they were;
rolling back, when every path is owned; detached, when the journal is gone. An operation may be the
last one before the interruption, so every lemma about a phase says what holds after each of its
operations, and at its end. Both commands are put together from these lemmas.
-/

open Foundation

namespace Lupine

namespace HostRoot

variable {root : HostRoot} {st : HostFiles} {journal : Journal} {path other : ManagedPath}
variable {entry : Entry} {content : Option Entry}

/-! ## What is at a path

A tree is looked up by path. Putting and removing change one path, and the backup of an entry has
the fingerprint of the entry. -/

theorem files_change :
    (root.change path content st).files = Function.update st.files path content := rfl

theorem lookup_change_of_ne (h : other ≠ path) :
    root.lookup (root.change path content st) other = root.lookup st other := by
  rw [lookup, files_change, Function.update_of_ne h, lookup]

theorem lookup_put (h : root.parents path = .usable) :
    root.lookup (root.change path (some entry) st) path = some entry := by
  rw [lookup, if_pos h, files_change, Function.update_self]

theorem lookup_remove : root.lookup (root.change path none st) path = none := by
  rw [lookup, files_change, Function.update_self, ite_self]

theorem usable_of_lookup (h : root.lookup st path = some entry) : root.parents path = .usable :=
  (Option.ite_none_right_eq_some.mp h).1

theorem fingerprint_kept : root.fingerprint entry.kept = root.fingerprint entry := by
  cases entry <;> rfl

theorem kept_kept : entry.kept.kept = entry.kept := by
  cases entry with
  | file content mode => rw [Entry.kept, Entry.kept, Nat.mod_mod]
  | symlink target => rfl
  | directory => rfl

/-! ## What the journal accounts for

An entry is owned if it is what the journal says was installed, or what was backed up. Owned entries
are what `uninstall` accepts, and they are no directories, so they can be removed. -/

variable (root) in
/-- The entry is what the journal says that was installed, or what was backed up. -/
def Owned (journal : Journal) (st : HostFiles) (path : ManagedPath) (entry : Entry) : Prop :=
  ∃ actual, root.fingerprint entry = some actual ∧ (actual = journal.managed path ∨
    (journal.backup st path).bind root.fingerprint = some actual)

variable (root) in
def AllOwned (journal : Journal) (st : HostFiles) : Prop :=
  ∀ path entry, root.lookup st path = some entry → root.Owned journal st path entry

variable (root) in
/-- The check of `uninstall` is passed. -/
def Accepted (journal : Journal) (st : HostFiles) : Prop :=
  ∀ path, root.changed? journal st path = none

theorem changed?_of_owned (hphase : journal.phase ≠ .attached)
    (h : ∀ entry, root.lookup st path = some entry → root.Owned journal st path entry) :
    root.changed? journal st path = none := by
  rw [changed?]
  cases hlookup : root.lookup st path with
  | none => exact if_neg hphase
  | some target =>
    obtain ⟨actual, hactual, howned⟩ := h target hlookup
    simp only [hactual]
    split_ifs with hmanaged hbackup
    · rfl
    · rfl
    · exact absurd ⟨hphase, howned.resolve_left hmanaged⟩ hbackup

theorem changed?_of_managed
    (h : (root.lookup st path).bind root.fingerprint = some (journal.managed path)) :
    root.changed? journal st path = none := by
  obtain ⟨target, hlookup, hactual⟩ := Option.bind_eq_some_iff.mp h
  rw [changed?, hlookup]
  simp only [hactual, if_true]

theorem Accepted.owned (h : root.Accepted journal st) : root.AllOwned journal st := by
  intro path target hlookup
  have hpath := h path
  rw [changed?, hlookup] at hpath
  simp only at hpath
  split at hpath
  · exact nomatch hpath
  · rename_i actual hactual
    split_ifs at hpath with hmanaged hbackup
    · exact ⟨actual, hactual, Or.inl hmanaged⟩
    · exact ⟨actual, hactual, Or.inr hbackup.2⟩

theorem AllOwned.accepted (h : root.AllOwned journal st) (hphase : journal.phase ≠ .attached) :
    root.Accepted journal st :=
  fun path ↦ changed?_of_owned hphase (h path)

theorem Owned.ne_directory (h : root.Owned journal st path entry) : entry ≠ .directory := by
  rintro rfl
  obtain ⟨actual, hactual, -⟩ := h
  exact nomatch hactual

end HostRoot

/-- A removal or an overwriting that was allowed: what was there was installed, or is the backup. -/
def Touch.Allowed (root : HostRoot) (touch : Touch) : Prop :=
  ∀ entry, touch.found = some entry → ∃ actual, root.fingerprint entry = some actual ∧
    (touch.managed = some actual ∨ touch.backup.bind root.fingerprint = some actual)

namespace HostRoot

variable {root : HostRoot} {st : HostFiles} {journal : Journal} {path other : ManagedPath}
variable {entry : Entry} {content : Option Entry}

variable (root) in
/-- The journal is on disk, and the backups hold what was there before it. -/
structure Journaled (journal : Journal) (st : HostFiles) : Prop where
  written : st.journal = some journal
  absent : ∀ path, journal.backups path = false → st.before path = none
  backup : ∀ path, journal.backups path = true → root.parents path = .usable ∧
    ∃ entry, st.before path = some entry ∧ entry ≠ .directory ∧ st.backups path = some entry.kept
  touched : ∀ touch ∈ st.touched, touch.Allowed root

/-- What was there before is owned. -/
theorem Journaled.owned (h : root.Journaled journal st) (hbefore : st.before path = some entry) :
    root.Owned journal st path entry := by
  cases hbackups : journal.backups path with
  | false => exact nomatch (h.absent path hbackups).symm.trans hbefore
  | true =>
    obtain ⟨-, entry', hentry, hfile, hbackup⟩ := h.backup path hbackups
    obtain rfl := Option.some_inj.mp (hentry.symm.trans hbefore)
    obtain ⟨actual, hactual⟩ : ∃ actual, root.fingerprint entry' = some actual := by
      cases entry' with
      | file content mode => exact ⟨_, rfl⟩
      | symlink target => exact ⟨_, rfl⟩
      | directory => exact absurd rfl hfile
    refine ⟨actual, hactual, Or.inr ?_⟩
    rw [Journal.backup, if_pos hbackups, hbackup, Option.bind_some, fingerprint_kept, hactual]

theorem Journaled.change (h : root.Journaled journal st)
    (howned : ∀ entry, root.lookup st path = some entry → root.Owned journal st path entry)
    (content : Option Entry) : root.Journaled journal (root.change path content st) := by
  refine ⟨h.written, h.absent, h.backup, ?_⟩
  intro touch htouch
  rcases List.mem_cons.mp htouch with rfl | htouch
  · intro entry hlookup
    obtain ⟨actual, hactual, hor⟩ := howned entry hlookup
    rw [h.written]
    exact ⟨actual, hactual, hor.imp_left fun heq ↦ congrArg some heq.symm⟩
  · exact h.touched touch htouch

theorem AllOwned.remove (h : root.AllOwned journal st) :
    root.AllOwned journal (root.change path none st) := by
  intro other entry hlookup
  rcases eq_or_ne other path with rfl | hne
  · exact nomatch lookup_remove.symm.trans hlookup
  · rw [lookup_change_of_ne hne] at hlookup
    exact h other entry hlookup

theorem AllOwned.put (h : root.AllOwned journal st) (howned : root.Owned journal st path entry)
    (husable : root.parents path = .usable) :
    root.AllOwned journal (root.change path (some entry) st) := by
  intro other entry' hlookup
  rcases eq_or_ne other path with rfl | hne
  · rw [lookup_put husable] at hlookup
    exact Option.some_inj.mp hlookup ▸ howned
  · rw [lookup_change_of_ne hne] at hlookup
    exact h other entry' hlookup

/-! ## The operations -/

variable {fails : Prop} {P C : HostFiles → Prop} {call : HostCall}

theorem spec_put {Q : PUnit → HostFiles → Prop}
    (hfails : ∀ st, P st →
      ¬(root.parents path = .usable ∧ root.lookup st path ≠ some .directory) → fails)
    (h : ∀ st, P st → root.parents path = .usable →
      C (root.change path (some entry) st) ∧ Q ⟨⟩ (root.change path (some entry) st)) :
    Attempt.Spec fails P (root.put path entry) Q C := by
  have husable : Attempt.Spec fails P (Attempt.ensure (root.parents path = .usable))
      (fun _ st ↦ root.parents path = .usable ∧ P st) C :=
    Attempt.Spec.ensure (fun st hst hnot ↦ hfails st hst fun hboth ↦ hnot hboth.1)
      fun st hst husable ↦ ⟨husable, hst⟩
  refine husable.bind fun _ ↦ (Attempt.Spec.get (Q := fun found st ↦
    found = st ∧ root.parents path = .usable ∧ P st) fun st hst ↦ ⟨rfl, hst⟩).bind fun found ↦ ?_
  have hfile : Attempt.Spec fails (fun st ↦ found = st ∧ root.parents path = .usable ∧ P st)
      (Attempt.ensure (root.lookup found path ≠ some .directory))
      (fun _ st ↦ root.parents path = .usable ∧ P st) C := by
    refine Attempt.Spec.ensure ?_ fun st hst _ ↦ hst.2
    rintro st ⟨rfl, husable, hst⟩ hnot
    exact hfails _ hst fun hboth ↦ hnot hboth.2
  exact hfile.bind fun _ ↦ Attempt.Spec.step fun st ⟨husable, hst⟩ ↦ h st hst husable

theorem spec_removeTarget {Q : PUnit → HostFiles → Prop}
    (hfails : ∀ st, P st →
      ¬(root.parents path ≠ .blocked ∧ root.lookup st path ≠ some .directory) → fails)
    (hnone : ∀ st, P st → root.lookup st path = none → Q ⟨⟩ st)
    (h : ∀ st, P st → C (root.change path none st) ∧ Q ⟨⟩ (root.change path none st)) :
    Attempt.Spec fails P (root.removeTarget path) Q C := by
  have hopen : Attempt.Spec fails P (Attempt.ensure (root.parents path ≠ .blocked))
      (fun _ st ↦ P st) C :=
    Attempt.Spec.ensure (fun st hst hnot ↦ hfails st hst fun hboth ↦ hnot hboth.1)
      fun st hst _ ↦ hst
  refine hopen.bind fun _ ↦
    (Attempt.Spec.get (Q := fun found st ↦ found = st ∧ P st) fun st hst ↦ ⟨rfl, hst⟩).bind ?_
  intro found
  split
  · rename_i hlookup
    refine Attempt.Spec.pure ?_
    rintro st ⟨rfl, hst⟩
    exact hnone _ hst hlookup
  · rename_i hlookup
    refine Attempt.Spec.fail ?_
    rintro st ⟨rfl, hst⟩
    exact hfails _ hst fun hboth ↦ hboth.2 hlookup
  · exact Attempt.Spec.step fun st hst ↦ h st hst.2

/-! ## Rolling back

The removals come first. They leave nothing at any managed path; then what was there is put back
from the backups, one path at a time. -/

variable {before : ManagedPath → Option Entry}

variable (root) in
/-- While it is rolled back, every managed path is owned. -/
structure RollingBack (journal : Journal) (before : ManagedPath → Option Entry) (st : HostFiles) :
    Prop where
  journaled : root.Journaled journal st
  owned : root.AllOwned journal st
  before : st.before = before

variable (root) in
/-- A path has its content from before. -/
def Restored (before : ManagedPath → Option Entry) (st : HostFiles) (path : ManagedPath) : Prop :=
  root.lookup st path = (before path).map Entry.kept

theorem RollingBack.lookup_ne_directory (h : root.RollingBack journal before st) :
    root.lookup st path ≠ some .directory :=
  fun hlookup ↦ (h.owned path _ hlookup).ne_directory rfl

theorem RollingBack.remove (h : root.RollingBack journal before st) :
    root.RollingBack journal before (root.change path none st) :=
  ⟨h.journaled.change (h.owned path) none, h.owned.remove, h.before⟩

theorem RollingBack.put (h : root.RollingBack journal before st)
    (howned : root.Owned journal st path entry) (husable : root.parents path = .usable) :
    root.RollingBack journal before (root.change path (some entry) st) :=
  ⟨h.journaled.change (h.owned path) (some entry), h.owned.put howned husable, h.before⟩

theorem RollingBack.backup (h : root.RollingBack journal before st)
    (hbackups : journal.backups path = true) :
    root.parents path = .usable ∧ ∃ entry, before path = some entry ∧
      st.backups path = some entry.kept ∧ root.Owned journal st path entry.kept := by
  obtain ⟨husable, entry, hbefore, -, hbackup⟩ := h.journaled.backup path hbackups
  obtain ⟨actual, hactual, howned⟩ := h.journaled.owned hbefore
  exact ⟨husable, entry, h.before ▸ hbefore, hbackup, actual, fingerprint_kept.trans hactual,
    howned⟩

/-- **The removals.** -/
theorem spec_removals (hC : ∀ st, root.RollingBack journal before st → C st)
    (hfails : (∃ path, root.parents path = .blocked) → fails) :
    Attempt.Spec fails (root.RollingBack journal before)
      (ManagedPath.journalOrder.forM root.removeTarget)
      (fun _ st ↦ root.RollingBack journal before st ∧ ∀ path, root.lookup st path = none) C := by
  refine (Attempt.Spec.forM (I := fun done st ↦ root.RollingBack journal before st ∧
    ∀ path ∈ done, root.lookup st path = none) ?_).mono ?_ ?_
  · intro done path rest _
    apply spec_removeTarget
    · intro st hst hnot
      refine hfails ⟨path, ?_⟩
      by_contra hopen
      exact hnot ⟨hopen, hst.1.lookup_ne_directory⟩
    · rintro st ⟨hst, hdone⟩ hnone
      refine ⟨hst, fun other hother ↦ ?_⟩
      rcases List.mem_append.mp hother with hother | hother
      · exact hdone other hother
      · rwa [List.mem_singleton.mp hother]
    · rintro st ⟨hst, hdone⟩
      refine ⟨hC _ hst.remove, hst.remove, fun other hother ↦ ?_⟩
      rcases eq_or_ne other path with rfl | hne
      · exact lookup_remove
      · rw [lookup_change_of_ne hne]
        rcases List.mem_append.mp hother with hother | hother
        · exact hdone other hother
        · exact absurd (List.mem_singleton.mp hother) hne
  · exact fun st hst ↦ ⟨hst, fun _ hpath ↦ (List.not_mem_nil hpath).elim⟩
  · exact fun _ st hst ↦ ⟨hst.1, fun path ↦ hst.2 path (ManagedPath.mem_journalOrder path)⟩

theorem spec_restore {done : List ManagedPath}
    (hC : ∀ st, root.RollingBack journal before st → C st) :
    Attempt.Spec fails
      (fun st ↦ root.RollingBack journal before st ∧
        (∀ path, before path = none → root.lookup st path = none) ∧
        ∀ path ∈ done, root.Restored before st path)
      (root.restore journal path)
      (fun _ st ↦ root.RollingBack journal before st ∧
        (∀ path, before path = none → root.lookup st path = none) ∧
        ∀ other ∈ done ++ [path], root.Restored before st other) C := by
  rw [restore]
  split_ifs with hbackups
  · refine (Attempt.Spec.get (Q := fun found st ↦ found = st ∧
      root.RollingBack journal before st ∧
      (∀ path, before path = none → root.lookup st path = none) ∧
      ∀ path ∈ done, root.Restored before st path) fun st hst ↦ ⟨rfl, hst⟩).bind fun found ↦ ?_
    split
    · rename_i hnone
      refine Attempt.Spec.fail ?_
      rintro st ⟨rfl, hst, -⟩
      obtain ⟨-, entry, -, hbackup, -⟩ := hst.backup hbackups
      exact nomatch hnone.symm.trans hbackup
    · rename_i hdirectory
      refine Attempt.Spec.fail ?_
      rintro st ⟨rfl, hst, -⟩
      obtain ⟨-, entry, -, hbackup, howned⟩ := hst.backup hbackups
      exact absurd (Option.some_inj.mp (hbackup.symm.trans hdirectory)) howned.ne_directory
    · rename_i backup _ hfound
      apply spec_put
      · rintro st ⟨rfl, hst, -⟩ hnot
        exact absurd ⟨(hst.backup hbackups).1, hst.lookup_ne_directory⟩ hnot
      · rintro st ⟨rfl, hst, hnone, hdone⟩ husable
        obtain ⟨-, entry, hbefore, hbackup, howned⟩ := hst.backup hbackups
        obtain rfl := Option.some_inj.mp (hbackup.symm.trans hfound)
        rw [kept_kept]
        have hput := hst.put howned husable
        refine ⟨hC _ hput, hput, fun other hother ↦ ?_, fun other hother ↦ ?_⟩
        · rw [lookup_change_of_ne]
          · exact hnone other hother
          · rintro rfl
            exact nomatch hother.symm.trans hbefore
        · rcases eq_or_ne other path with rfl | hne
          · rw [Restored, lookup_put husable, hbefore, Option.map_some]
          · rw [Restored, lookup_change_of_ne hne]
            rcases List.mem_append.mp hother with hother | hother
            · exact hdone other hother
            · exact absurd (List.mem_singleton.mp hother) hne
  · refine Attempt.Spec.pure fun st ⟨hst, hnone, hdone⟩ ↦ ⟨hst, hnone, fun other hother ↦ ?_⟩
    rcases List.mem_append.mp hother with hother | hother
    · exact hdone other hother
    · obtain rfl := List.mem_singleton.mp hother
      -- the journal has no backup, so nothing was at the path before, and nothing is now
      have hbefore : before other = none :=
        hst.before ▸ hst.journaled.absent other (Bool.not_eq_true _ ▸ hbackups)
      rw [Restored, hbefore, hnone other hbefore]
      rfl

/-- **The restoration.** -/
theorem spec_restores (hC : ∀ st, root.RollingBack journal before st → C st) :
    Attempt.Spec fails
      (fun st ↦ root.RollingBack journal before st ∧ ∀ path, root.lookup st path = none)
      (ManagedPath.journalOrder.forM (root.restore journal))
      (fun _ st ↦ root.RollingBack journal before st ∧ ∀ path, root.Restored before st path) C := by
  refine (Attempt.Spec.forM (I := fun done st ↦ root.RollingBack journal before st ∧
    (∀ path, before path = none → root.lookup st path = none) ∧
    ∀ path ∈ done, root.Restored before st path) fun done path rest _ ↦ spec_restore hC).mono ?_ ?_
  · exact fun st hst ↦ ⟨hst.1, fun path _ ↦ hst.2 path, fun _ h ↦ (List.not_mem_nil h).elim⟩
  · exact fun _ st hst ↦ ⟨hst.1, fun path ↦ hst.2.2 path (ManagedPath.mem_journalOrder path)⟩

variable (root) in
/-- There is no journal, and what was changed so far was allowed. -/
structure Detached (st : HostFiles) : Prop where
  journal : st.journal = none
  touched : ∀ touch ∈ st.touched, touch.Allowed root

/-- **Rolling back.** It can fail only where a path is blocked or the loader's cache cannot be
refreshed. -/
theorem spec_rollback (hC : ∀ st, root.RollingBack journal before st → C st)
    (hD : ∀ st, root.Detached st → (∀ path, root.Restored before st path) → C st)
    (hblocked : (∃ path, root.parents path = .blocked) → fails)
    (hrefresh : ¬call.refreshed → fails) :
    Attempt.Spec fails (root.RollingBack journal before) (root.rollback call journal)
      (fun _ st ↦ root.Detached st ∧ ∀ path, root.Restored before st path) C := by
  refine (spec_removals hC hblocked).bind fun _ ↦ (spec_restores hC).bind fun _ ↦ ?_
  refine (Attempt.Spec.ensure (Q := fun _ st ↦ root.RollingBack journal before st ∧
    ∀ path, root.Restored before st path) (fun _ _ ↦ hrefresh) fun _ hst _ ↦ hst).bind fun _ ↦ ?_
  have hdetach : Attempt.Spec fails
      (fun st ↦ root.RollingBack journal before st ∧ ∀ path, root.Restored before st path)
      (Attempt.step fun st ↦ { st with journal := none })
      (fun _ st ↦ root.Detached st ∧ ∀ path, root.Restored before st path) C := by
    refine Attempt.Spec.step fun st ⟨hst, hrestored⟩ ↦ ?_
    have hdetached : root.Detached { st with journal := none } := ⟨rfl, hst.journaled.touched⟩
    exact ⟨hD _ hdetached hrestored, hdetached, hrestored⟩
  refine hdetach.bind fun _ ↦ Attempt.Spec.forM (I := fun _ st ↦ root.Detached st ∧
    ∀ path, root.Restored before st path) ?_
  refine fun done path rest _ ↦ Attempt.Spec.step fun st ⟨hst, hrestored⟩ ↦ ?_
  have hdetached : root.Detached { st with backups := Function.update st.backups path none } :=
    ⟨hst.journal, hst.touched⟩
  exact ⟨hD _ hdetached hrestored, hdetached, hrestored⟩

/-! ## The invariant

Between two attempts there is a journal with its backups, or none. With a journal `uninstall` can
take everything back, unless someone else has changed a managed path. -/

variable (root) in
/-- What was changed was allowed, and the backups of a journal are there. Unless someone else has
changed a managed path, `uninstall` accepts what it finds. `plain` says that only plain files are
installed. -/
structure Inv (plain : Prop) (st : HostFiles) : Prop where
  touched : ∀ touch ∈ st.touched, touch.Allowed root
  journaled : ∀ journal, st.journal = some journal → root.Journaled journal st
  accepted : ∀ journal, st.journal = some journal → plain → st.foreign = false →
    root.Accepted journal st

variable {plain : Prop}

theorem Detached.inv (h : root.Detached st) : root.Inv plain st where
  touched := h.touched
  journaled _ hjournal := nomatch h.journal.symm.trans hjournal
  accepted _ hjournal := nomatch h.journal.symm.trans hjournal

theorem Journaled.inv (h : root.Journaled journal st)
    (haccepted : plain → st.foreign = false → root.Accepted journal st) : root.Inv plain st where
  touched := h.touched
  journaled _ hjournal := Option.some_inj.mp (h.written.symm.trans hjournal) ▸ h
  accepted _ hjournal := Option.some_inj.mp (h.written.symm.trans hjournal) ▸ haccepted

theorem RollingBack.inv (hphase : journal.phase = .detaching)
    (h : root.RollingBack journal before st) : root.Inv plain st :=
  h.journaled.inv fun _ _ ↦ h.owned.accepted (by rw [hphase]; exact JournalPhase.noConfusion)

/-- What is accepted can be rolled back. -/
theorem spec_writeDetaching
    (hC : ∀ st, root.RollingBack { journal with phase := .detaching } before st → C st) :
    Attempt.Spec fails
      (fun st ↦ root.Journaled journal st ∧ root.Accepted journal st ∧ st.before = before)
      (writeDetaching journal)
      (fun _ ↦ root.RollingBack { journal with phase := .detaching } before) C := by
  rw [writeDetaching]
  split_ifs with hphase
  · obtain ⟨phase, managed, backups⟩ := journal
    obtain rfl : phase = .detaching := hphase
    exact Attempt.Spec.pure fun st ⟨hjournaled, haccepted, hbefore⟩ ↦
      ⟨hjournaled, haccepted.owned, hbefore⟩
  · refine Attempt.Spec.step fun st ⟨hjournaled, haccepted, hbefore⟩ ↦ ?_
    have hrolling : root.RollingBack { journal with phase := .detaching } before
        { st with journal := some { journal with phase := .detaching } } :=
      ⟨⟨rfl, hjournaled.absent, hjournaled.backup, hjournaled.touched⟩, haccepted.owned, hbefore⟩
    exact ⟨hC _ hrolling, hrolling⟩

/-- **Uninstalling.** -/
theorem spec_uninstall
    (hC : ∀ journal st, journal.phase = .detaching → root.RollingBack journal before st → C st)
    (hD : ∀ st, root.Detached st → (∀ path, root.Restored before st path) → C st)
    (hvalid : ¬root.valid call.allowLive = true → fails)
    (hblocked : (∃ path, root.parents path = .blocked) → fails)
    (hrefresh : ¬call.refreshed → fails) :
    Attempt.Spec fails
      (fun st ↦ root.Inv plain st ∧ st.before = before ∧
        (¬fails → ∃ journal, st.journal = some journal ∧ root.Accepted journal st))
      (root.uninstall call)
      (fun _ st ↦ root.Detached st ∧ ∀ path, root.Restored before st path) C := by
  rw [uninstall]
  refine (Attempt.Spec.ensure (fun _ _ ↦ hvalid) fun st hst _ ↦ hst).bind fun _ ↦
    (Attempt.Spec.get (Q := fun found st ↦ found = st ∧ root.Inv plain st ∧ st.before = before ∧
      (¬fails → ∃ journal, st.journal = some journal ∧ root.Accepted journal st))
      fun st hst ↦ ⟨rfl, hst⟩).bind fun found ↦ ?_
  split
  · rename_i hnone
    refine Attempt.Spec.fail ?_
    rintro st ⟨rfl, -, -, hready⟩
    by_contra hnot
    obtain ⟨journal, hjournal, -⟩ := hready hnot
    exact nomatch hnone.symm.trans hjournal
  · rename_i journal hjournal
    refine (Attempt.Spec.ensure (Q := fun _ st ↦ root.Journaled journal st ∧
      root.Accepted journal st ∧ st.before = before) ?_ ?_).bind fun _ ↦ ?_
    · rintro st ⟨rfl, -, -, hready⟩ hnot
      by_contra hfails
      obtain ⟨journal', hjournal', haccepted⟩ := hready hfails
      obtain rfl := Option.some_inj.mp (hjournal.symm.trans hjournal')
      exact hnot fun path _ ↦ haccepted path
    · rintro st ⟨rfl, hinv, hbefore, -⟩ haccepted
      exact ⟨hinv.journaled journal hjournal,
        fun path ↦ haccepted path (ManagedPath.mem_journalOrder path), hbefore⟩
    · refine (spec_writeDetaching fun st ↦ hC _ st rfl).bind fun _ ↦ ?_
      refine (spec_rollback (fun st ↦ hC _ st rfl) hD hblocked hrefresh).bind fun _ ↦ ?_
      exact Attempt.Spec.pure fun st hst ↦ hst

/-! ## Installing

The backups and the journal come before the first change, so each of the operations that follow
overwrites something that has a backup. -/

variable {bundle : ShimBundle} {endpoints : List String} {endpointText : String}
variable {files : ManagedPath → Option Entry}

variable (root) in
/-- A path has a backup if there is anything. -/
def BackedUp (st : HostFiles) (path : ManagedPath) : Prop :=
  ∀ entry, root.lookup st path = some entry →
    entry ≠ .directory ∧ st.backups path = some entry.kept

variable (root) in
/-- No managed path has been changed yet. -/
structure BackingUp (files : ManagedPath → Option Entry) (st : HostFiles) : Prop where
  detached : root.Detached st
  files : st.files = files

theorem BackedUp.update (h : root.BackedUp st other) (hfile : entry ≠ .directory)
    (hlookup : root.lookup st path = some entry) :
    root.BackedUp { st with backups := Function.update st.backups path (some entry.kept) }
      other := by
  intro entry' hentry'
  rcases eq_or_ne other path with rfl | hne
  · obtain rfl := Option.some_inj.mp (hlookup.symm.trans hentry')
    exact ⟨hfile, Function.update_self _ _ _⟩
  · exact ⟨(h entry' hentry').1, (Function.update_of_ne hne _ _).trans (h entry' hentry').2⟩

theorem spec_backup {done : List ManagedPath} :
    Attempt.Spec True
      (fun st ↦ root.BackingUp files st ∧ ∀ other ∈ done, root.BackedUp st other)
      (root.backup path)
      (fun found st ↦ found = (if root.parents path = .usable then files path else none).isSome ∧
        root.BackingUp files st ∧ ∀ other ∈ done ++ [path], root.BackedUp st other)
      (root.Inv plain) := by
  refine (Attempt.Spec.get (Q := fun found st ↦ found = st ∧ root.BackingUp files st ∧
    ∀ other ∈ done, root.BackedUp st other) fun st hst ↦ ⟨rfl, hst⟩).bind fun found ↦ ?_
  split
  · rename_i hnone
    refine Attempt.Spec.pure ?_
    rintro st ⟨rfl, hst, hdone⟩
    refine ⟨?_, hst, fun other hother ↦ ?_⟩
    · rw [lookup, hst.files] at hnone
      rw [hnone, Option.isSome_none]
    · rcases List.mem_append.mp hother with hother | hother
      · exact hdone other hother
      · obtain rfl := List.mem_singleton.mp hother
        exact fun entry hentry ↦ nomatch hnone.symm.trans hentry
  · exact Attempt.Spec.fail fun _ _ ↦ trivial
  · rename_i entry hfile hlookup
    refine (Attempt.Spec.ensure (Q := fun _ st ↦ found = st ∧ root.BackingUp files st ∧
      ∀ other ∈ done, root.BackedUp st other) (fun _ _ _ ↦ trivial) fun st hst _ ↦ hst).bind
      fun _ ↦ ?_
    -- the backup is made in one step; the managed path itself is not touched by it
    have hstep : Attempt.Spec True
        (fun st ↦ found = st ∧ root.BackingUp files st ∧ ∀ other ∈ done, root.BackedUp st other)
        (Attempt.step fun st ↦
          { st with backups := Function.update st.backups path (some entry.kept) })
        (fun _ st ↦ found.files = files ∧ root.BackingUp files st ∧
          ∀ other ∈ done ++ [path], root.BackedUp st other)
        (root.Inv plain) := by
      refine Attempt.Spec.step ?_
      rintro st ⟨rfl, hst, hdone⟩
      have hdetached : root.Detached
          { found with backups := Function.update found.backups path (some entry.kept) } :=
        ⟨hst.detached.journal, hst.detached.touched⟩
      refine ⟨hdetached.inv, hst.files, ⟨hdetached, hst.files⟩, fun other hother ↦ ?_⟩
      rcases List.mem_append.mp hother with hother | hother
      · exact (hdone other hother).update hfile hlookup
      · obtain rfl := List.mem_singleton.mp hother
        intro entry' hentry'
        obtain rfl := Option.some_inj.mp (hlookup.symm.trans hentry')
        exact ⟨hfile, Function.update_self _ _ _⟩
    refine hstep.bind fun _ ↦ Attempt.Spec.pure ?_
    rintro st ⟨hfiles, hst⟩
    rw [lookup, hfiles] at hlookup
    exact ⟨by rw [hlookup, Option.isSome_some], hst⟩

/-- **The backups.** -/
theorem spec_backups :
    Attempt.Spec True (root.BackingUp files)
      (Attempt.collect (fun path ↦ do return (path, ← root.backup path)) ManagedPath.managed)
      (fun found st ↦ root.BackingUp files st ∧ (∀ path, root.BackedUp st path) ∧
        ∀ path, (found.lookup path).getD false = (root.lookup st path).isSome)
      (root.Inv plain) := by
  refine (Attempt.Spec.collect
    (g := fun path ↦ (path, (if root.parents path = .usable then files path else none).isSome))
    (I := fun done st ↦ root.BackingUp files st ∧ ∀ other ∈ done, root.BackedUp st other)
    ?_).mono ?_ ?_
  · intro done path rest _
    refine spec_backup.bind fun found ↦ Attempt.Spec.pure ?_
    rintro st ⟨rfl, hst⟩
    exact ⟨rfl, hst⟩
  · exact fun st hst ↦ ⟨hst, fun _ h ↦ (List.not_mem_nil h).elim⟩
  · rintro found st ⟨rfl, hst, hdone⟩
    refine ⟨hst, fun path ↦ hdone path (ManagedPath.mem_managed path), fun path ↦ ?_⟩
    rw [lookup, hst.files]
    cases path <;> rfl

/-- What is installed is what the journal says, if no file of the bundle is a link. -/
theorem fingerprint_shimEntry (hplain : bundle.Plain) (path : ManagedPath) :
    root.fingerprint (shimEntry bundle endpointText path) =
      some (root.desired bundle endpointText path) := by
  have hsource (hpath : path ∈ ManagedPath.sources) : (bundle path).bind (·.link) = none :=
    hplain path hpath
  cases path <;> first | rfl | simp [shimEntry, desired, fingerprint, hsource (by decide)]

theorem journaled_attach (hdetached : root.Detached st) (hbackedUp : ∀ path, root.BackedUp st path)
    (hbackups : ∀ path, journal.backups path = (root.lookup st path).isSome) :
    root.Journaled journal (root.attach journal st) where
  written := rfl
  absent path hpath := Option.not_isSome_iff_eq_none.mp (Bool.not_eq_true _ ▸ hbackups path ▸ hpath)
  backup path hpath := by
    obtain ⟨entry, hentry⟩ := Option.isSome_iff_exists.mp ((hbackups path).symm.trans hpath)
    exact ⟨usable_of_lookup hentry, entry, hentry, hbackedUp path entry hentry⟩
  touched := hdetached.touched

variable (root) in
/-- Some managed paths have been installed, the others are as they were. -/
structure Installing (journal : Journal) (plain : Prop) (done : List ManagedPath) (st : HostFiles) :
    Prop where
  journaled : root.Journaled journal st
  pending : ∀ path ∉ done, root.lookup st path = st.before path
  owned : plain → root.AllOwned journal st

theorem Journaled.installing (plain : Prop) (h : root.Journaled journal (root.attach journal st)) :
    root.Installing journal plain [] (root.attach journal st) where
  journaled := h
  pending _ _ := rfl
  owned _ _ _ hlookup := h.owned hlookup

theorem Installing.inv {done : List ManagedPath} (hphase : journal.phase = .installing)
    (h : root.Installing journal plain done st) : root.Inv plain st :=
  h.journaled.inv fun hplain _ ↦
    (h.owned hplain).accepted (by rw [hphase]; exact JournalPhase.noConfusion)

theorem Installing.put {done : List ManagedPath} (h : root.Installing journal plain done st)
    (hpath : path ∉ done) (husable : root.parents path = .usable)
    (hentry : plain → root.fingerprint entry = some (journal.managed path)) :
    root.Installing journal plain (done ++ [path]) (root.change path (some entry) st) where
  journaled := h.journaled.change
    (fun _ hlookup ↦ h.journaled.owned ((h.pending path hpath).symm.trans hlookup)) _
  pending other hother := by
    rw [List.mem_append, List.mem_singleton, not_or] at hother
    exact (lookup_change_of_ne hother.2).trans (h.pending other hother.1)
  owned hplain := (h.owned hplain).put ⟨_, hentry hplain, Or.inl rfl⟩ husable

/-- **The installation of the shims.** -/
theorem spec_puts (hphase : journal.phase = .installing)
    (hentry : plain → ∀ path, root.fingerprint (shimEntry bundle endpointText path) =
      some (journal.managed path)) :
    Attempt.Spec True (root.Installing journal plain [])
      (ManagedPath.managed.forM fun path ↦ root.put path (shimEntry bundle endpointText path))
      (fun _ ↦ root.Journaled journal) (root.Inv plain) := by
  refine (Attempt.Spec.forM (I := root.Installing journal plain) ?_).mono (fun _ hst ↦ hst)
    fun _ st hst ↦ hst.journaled
  intro done path rest hl
  have hpath : path ∉ done := by
    have hnodup := hl ▸ ManagedPath.nodup_managed
    exact fun hmem ↦ (List.nodup_append.mp hnodup).2.2 path hmem path List.mem_cons_self rfl
  refine spec_put (fun _ _ _ ↦ trivial) fun st hst husable ↦ ?_
  have hput := hst.put hpath husable fun hplain ↦ hentry hplain path
  exact ⟨hput.inv hphase, hput⟩

theorem spec_finish :
    Attempt.Spec True (root.Journaled journal)
      (do
        let st ← Attempt.get
        Attempt.ensure (∀ path ∈ ManagedPath.managed,
          (root.lookup st path).bind root.fingerprint = some (journal.managed path))
        Attempt.step fun st ↦ { st with journal := some { journal with phase := .attached } }
        return { journal with phase := .attached })
      (fun _ _ ↦ True) (root.Inv plain) := by
  refine (Attempt.Spec.get (Q := fun found st ↦ found = st ∧ root.Journaled journal st)
    fun st hst ↦ ⟨rfl, hst⟩).bind fun found ↦ ?_
  refine (Attempt.Spec.ensure (Q := fun _ st ↦ root.Journaled journal st ∧
    ∀ path, (root.lookup st path).bind root.fingerprint = some (journal.managed path))
    (fun _ _ _ ↦ trivial) ?_).bind fun _ ↦ ?_
  · rintro st ⟨rfl, hst⟩ hverified
    exact ⟨hst, fun path ↦ hverified path (ManagedPath.mem_managed path)⟩
  · refine (Attempt.Spec.step (Q := fun _ _ ↦ True) fun st ⟨hst, hverified⟩ ↦ ⟨?_, trivial⟩).bind
      fun _ ↦ Attempt.Spec.pure fun _ _ ↦ trivial
    have hattached : root.Journaled { journal with phase := .attached }
        { st with journal := some { journal with phase := .attached } } :=
      ⟨rfl, hst.absent, hst.backup, hst.touched⟩
    exact hattached.inv fun _ _ path ↦ changed?_of_managed (hverified path)

/-- **Installing.** -/
theorem spec_install (hplain : plain → bundle.Plain) :
    Attempt.Spec True (root.Inv plain) (root.install call bundle endpoints) (fun _ _ ↦ True)
      (root.Inv plain) := by
  rw [install]
  refine (Attempt.Spec.ensure (Q := fun _ ↦ root.Inv plain) (fun _ _ _ ↦ trivial)
    fun st hst _ ↦ hst).bind fun _ ↦ ?_
  refine (Attempt.Spec.get (Q := fun found st ↦ found = st ∧ root.Inv plain st)
    fun st hst ↦ ⟨rfl, hst⟩).bind fun found ↦ ?_
  refine (Attempt.Spec.ensure (Q := fun _ ↦ root.BackingUp found.files) (fun _ _ _ ↦ trivial)
    ?_).bind fun _ ↦ ?_
  · rintro st ⟨rfl, hst⟩ hnone
    exact ⟨⟨Option.isNone_iff_eq_none.mp hnone, hst.touched⟩, rfl⟩
  split
  · exact Attempt.Spec.fail fun _ _ ↦ trivial
  · rename_i endpointText _
    refine (Attempt.Spec.ensure (Q := fun _ ↦ root.BackingUp found.files) (fun _ _ _ ↦ trivial)
      fun st hst _ ↦ hst).bind fun _ ↦ spec_backups.bind fun backups ↦ ?_
    refine (Attempt.Spec.step (Q := fun _ ↦ root.Installing
      (root.newJournal bundle endpointText backups) plain []) ?_).bind fun _ ↦ ?_
    · rintro st ⟨hst, hbackedUp, hbackups⟩
      have hjournaled : root.Journaled (root.newJournal bundle endpointText backups) _ :=
        journaled_attach hst.detached hbackedUp hbackups
      have hinstalling := Journaled.installing plain hjournaled
      exact ⟨hinstalling.inv rfl, hinstalling⟩
    · refine (spec_puts rfl fun h path ↦ fingerprint_shimEntry (hplain h) path).bind fun _ ↦ ?_
      exact (Attempt.Spec.ensure (fun _ _ _ ↦ trivial) fun st hst _ ↦ hst).bind fun _ ↦ spec_finish

/-! ## Runs

An attempt, or a change by someone else, keeps the invariant, and a tree without a journal has
it. -/

variable (root) in
/-- An uninstall that completes restores every managed path. One that is not interrupted completes,
as long as there is a journal and nobody else has changed a managed path. And no managed path was
removed or overwritten that was neither installed nor backed up. -/
structure Safe (st : HostFiles) : Prop where
  restores : ∀ call, (root.uninstall call st).2.isSome = true →
    ∀ path, root.Restored st.before ((root.uninstall call).final st) path
  recovers : ∀ call : HostCall, root.valid call.allowLive = true → call.refreshed →
    st.journal.isSome = true → st.foreign = false → (root.uninstall call st).2.isSome = true
  touched : ∀ touch ∈ st.touched, touch.Allowed root

theorem Inv.restores (h : root.Inv plain st) (call : HostCall)
    (hreturns : (root.uninstall call st).2.isSome = true) (path : ManagedPath) :
    root.Restored st.before ((root.uninstall call).final st) path := by
  have hspec : Attempt.Spec True (fun s ↦ root.Inv plain s ∧ s.before = st.before ∧
      (¬True → ∃ journal, s.journal = some journal ∧ root.Accepted journal s))
      (root.uninstall call)
      (fun _ s ↦ root.Detached s ∧ ∀ path, root.Restored st.before s path) (root.Inv plain) :=
    spec_uninstall (fun _ _ ↦ RollingBack.inv) (fun _ hst _ ↦ hst.inv) (fun _ ↦ trivial)
      (fun _ ↦ trivial) fun _ ↦ trivial
  obtain ⟨journal, hjournal⟩ := Option.isSome_iff_exists.mp hreturns
  exact ((hspec st ⟨h, rfl, fun hnot ↦ absurd trivial hnot⟩).2.2 journal hjournal).2 path

theorem Inv.recovers (h : root.Inv True st) (hopen : ∀ path, root.parents path ≠ .blocked)
    (hvalid : root.valid call.allowLive = true) (hrefreshed : call.refreshed)
    (hjournal : st.journal.isSome = true) (hforeign : st.foreign = false) :
    (root.uninstall call st).2.isSome = true := by
  have hspec : Attempt.Spec False (fun s ↦ root.Inv True s ∧ s.before = st.before ∧
      (¬False → ∃ journal, s.journal = some journal ∧ root.Accepted journal s))
      (root.uninstall call)
      (fun _ s ↦ root.Detached s ∧ ∀ path, root.Restored st.before s path) (root.Inv True) :=
    spec_uninstall (fun _ _ ↦ RollingBack.inv) (fun _ hst _ ↦ hst.inv) (fun hnot ↦ hnot hvalid)
      (fun ⟨path, hblocked⟩ ↦ hopen path hblocked) fun hnot ↦ hnot hrefreshed
  obtain ⟨journal, hjournal⟩ := Option.isSome_iff_exists.mp hjournal
  exact hspec.returns ⟨h, rfl, fun _ ↦ ⟨journal, hjournal, h.accepted journal hjournal trivial
    hforeign⟩⟩

end HostRoot

/-- What is installed are files, not links to them. -/
def HostAction.Plain : HostAction → Prop
  | .install _ bundle _ _ => bundle.Plain
  | _ => True

instance : ∀ action : HostAction, Decidable action.Plain
  | .install _ bundle _ _ => inferInstanceAs (Decidable bundle.Plain)
  | .uninstall _ _ => isTrue trivial
  | .foreign _ _ => isTrue trivial

namespace HostRoot

variable {root : HostRoot} {plain : Prop}

/-- **One attempt**, or one change by someone else. -/
theorem Inv.step {st st' : HostFiles} {action : HostAction} (h : root.Inv plain st)
    (hplain : plain → action.Plain) (hstep : (hostwideMachine root).step st action = some st') :
    root.Inv plain st' := by
  cases action with
  | install call bundle endpoints steps =>
    rw [← Option.some_inj.mp hstep]
    exact (spec_install hplain).after h h steps
  | uninstall call steps =>
    have hspec : Attempt.Spec True (fun s ↦ root.Inv plain s ∧ s.before = st.before ∧
        (¬True → ∃ journal, s.journal = some journal ∧ root.Accepted journal s))
        (root.uninstall call)
        (fun _ s ↦ root.Detached s ∧ ∀ path, root.Restored st.before s path) (root.Inv plain) :=
      spec_uninstall (fun _ _ ↦ RollingBack.inv) (fun _ hst _ ↦ hst.inv) (fun _ ↦ trivial)
        (fun _ ↦ trivial) fun _ ↦ trivial
    rw [← Option.some_inj.mp hstep]
    exact hspec.after ⟨h, rfl, fun hnot ↦ absurd trivial hnot⟩ h steps
  | foreign path entry =>
    rw [← Option.some_inj.mp hstep]
    refine ⟨h.touched, fun journal hjournal ↦ ?_, fun _ _ _ hforeign ↦ nomatch hforeign⟩
    have hjournaled := h.journaled journal hjournal
    exact ⟨hjournal, hjournaled.absent, hjournaled.backup, hjournaled.touched⟩

theorem Inv.init (files backups : ManagedPath → Option Entry) :
    root.Inv plain { files := files, backups := backups } :=
  Detached.inv ⟨rfl, fun _ htouch ↦ (List.not_mem_nil htouch).elim⟩

end HostRoot

/-- What holds for every bundle and every tree: nothing of others is touched, and an uninstall that
completes restores every managed path. -/
theorem hostwide_restores (root : HostRoot) (files backups : ManagedPath → Option Entry)
    (actions : List HostAction) {st : HostFiles}
    (hrun : (hostwideMachine root).run { files := files, backups := backups } actions = some st) :
    (∀ touch ∈ st.touched, touch.Allowed root) ∧
      ∀ call, (root.uninstall call st).2.isSome = true →
        ∀ path, root.Restored st.before ((root.uninstall call).final st) path := by
  have hinv : root.Inv False st := Machine.run_invariant _
    (fun _ _ _ hinv ↦ hinv.step False.elim) (HostRoot.Inv.init files backups) hrun
  exact ⟨hinv.touched, hinv.restores⟩

/-- **Attaching and detaching.** Where no parent of a managed path is a file, and no file of a
bundle is a link, every sequence of interrupted attempts leaves a tree that is safe. -/
theorem hostwide_safe (root : HostRoot) (hopen : ∀ path, root.parents path ≠ .blocked)
    (files backups : ManagedPath → Option Entry) (actions : List HostAction) {st : HostFiles}
    (hrun : ((hostwideMachine root).restrict fun _ action ↦ action.Plain).run
      { files := files, backups := backups } actions = some st) :
    root.Safe st := by
  have hstep (s : HostFiles) (action : HostAction) (s' : HostFiles) (hinv : root.Inv True s)
      (hs' : ((hostwideMachine root).restrict fun _ action ↦ action.Plain).step s action =
        some s') : root.Inv True s' := by
    obtain ⟨hplain, hs'⟩ := Machine.step_restrict.mp hs'
    exact hinv.step (fun _ ↦ hplain) hs'
  have hinv := Machine.run_invariant _ hstep (HostRoot.Inv.init files backups) hrun
  exact ⟨hinv.restores, fun call ↦ hinv.recovers hopen, hinv.touched⟩

/-- A directory that is not live, with nothing in the way. The digest of a file is its content. -/
def sandboxRoot : HostRoot where
  isDir := true
  live := false
  parents _ := .usable
  sha256 content := String.ofList (content.map fun byte ↦ Char.ofNat byte.toNat)

def plainBundle : ShimBundle := fun _ ↦ some { content := [1, 2, 3] }

/-- An endpoint is there before. An install is interrupted after nine operations, of which one was
the backup and one the journal; the uninstall after that is interrupted after four. -/
def interruptedAttempts : List HostAction :=
  [.install {} plainBundle ["192.0.2.10:14833"] 9, .uninstall {} 4]

theorem hostwide_safe_interruptedAttempts :
    ∃ st, ((hostwideMachine sandboxRoot).restrict fun _ action ↦ action.Plain).run
        { files := Function.update (fun _ ↦ none) .endpoint (some (.file [112] 0o644)),
          backups := fun _ ↦ none } interruptedAttempts = some st ∧
      st.touched.length = 10 ∧ sandboxRoot.Safe st := by
  have hrun : ∃ st, ((hostwideMachine sandboxRoot).restrict fun _ action ↦ action.Plain).run
      { files := Function.update (fun _ ↦ none) .endpoint (some (.file [112] 0o644)),
        backups := fun _ ↦ none } interruptedAttempts = some st ∧ st.touched.length = 10 :=
    ⟨_, rfl, by decide⟩
  obtain ⟨st, hrun, hlength⟩ := hrun
  exact ⟨st, hrun, hlength, hostwide_safe _ (fun _ ↦ Parents.noConfusion) _ _ _ hrun⟩

/-- A bundle in which the first library is a link to its file, as a versioned library is. -/
def linkedBundle : ShimBundle
  | .libcuda => some { link := some "libcuda.so.580", content := [1, 2, 3] }
  | _ => some { content := [1, 2, 3] }

/-- A tree in which `etc/rgpu` is a file. -/
def blockedRoot : HostRoot where
  isDir := true
  live := false
  parents path := if path = .endpoint then .blocked else .usable
  sha256 := sandboxRoot.sha256

/-- **What cannot be taken back.** The link's fingerprint is not that of the file that was copied;
and a path below a file cannot be removed. In both cases the tree was empty, nobody else has changed
it, and the journal is there. -/
theorem hostwide_unsafe :
    (∃ st, (hostwideMachine sandboxRoot).run { files := fun _ ↦ none, backups := fun _ ↦ none }
        [.install {} linkedBundle ["192.0.2.10:14833"] 2] = some st ∧ ¬sandboxRoot.Safe st) ∧
      ∃ st, (hostwideMachine blockedRoot).run { files := fun _ ↦ none, backups := fun _ ↦ none }
        [.install {} plainBundle ["192.0.2.10:14833"] 1] = some st ∧ ¬blockedRoot.Safe st := by
  constructor
  · refine ⟨_, rfl, fun hsafe ↦ ?_⟩
    exact absurd (hsafe.recovers {} rfl (by decide) rfl rfl) (by decide)
  · refine ⟨_, rfl, fun hsafe ↦ ?_⟩
    exact absurd (hsafe.recovers {} rfl (by decide) rfl rfl) (by decide)

end Lupine
