import Lupine.Launcher.RunCleanup

/-!
# The rollback of `rgpu attach`

When something is raised after the first server, `command_attach` uninstalls what `install` has
begun, removes the leases in `started`, and names what it could not take back. Only what is an
`Exception` is caught: after a signal nothing is taken back. And the `finally` raises its own error
if the local GPUs are not found as they were, in place of the one that names what is left.

## The order of the argument

The body either ends with everything attached or is left by an exception with what the rollback
starts from: the leases in `started` are all the servers that stand, and the journal, if there is
one, is that of this attach. The rollback takes back what it can, and names the rest. In the
`finally` the report must not be lost, so where something is left to report the rollback has begun
and the check of the local GPUs must succeed.
-/

open Foundation

namespace Lupine

def RgpuCall.inRollback : RgpuCall → Bool
  | hostwideUninstall | dockerRm _ => true
  | _ => false

def RgpuAnswer.isSignal : RgpuAnswer → Bool
  | cut (.signal _) _ => true
  | _ => false

/-- Something has been taken back, or it was attempted. -/
def RgpuRecord.rolledBack (record : RgpuRecord) : Prop :=
  ∃ step ∈ record, step.call.inRollback = true

instance (record : RgpuRecord) : Decidable record.rolledBack :=
  inferInstanceAs (Decidable (∃ step ∈ record, step.call.inRollback = true))

/-- What is asked of a step of `rgpu attach`. -/
structure AttachCondition (record : RgpuRecord) (step : RgpuStep) : Prop where
  /-- A step after which a server has no owner has succeeded. -/
  owned : ¬RgpuRecord.Owned (step :: record) → step.succeeds
  /-- No signal arrives while servers stand or something is installed, unless all is attached. -/
  uninterrupted : step.answer.isSignal = true →
    step.call ∉ [.localGpuIdentity .attached, .localGpuIdentity .after] →
      RgpuRecord.standing (step :: record) = [] ∧ step.journal = false ∧
        step.call ≠ .hostwideInstall
  /-- The local GPUs are found as they were if the rollback has left something. -/
  unchanged : step.call = .localGpuIdentity .after → record.rolledBack →
    record.standing ≠ [] ∨ step.journal = true → step.answer.output = record.identityBefore

instance AttachCondition.decidable (record : RgpuRecord) (step : RgpuStep) :
    Decidable (AttachCondition record step) :=
  decidable_of_iff
    ((¬RgpuRecord.Owned (step :: record) → step.succeeds) ∧
      (step.answer.isSignal = true →
        step.call ∉ [.localGpuIdentity .attached, .localGpuIdentity .after] →
          RgpuRecord.standing (step :: record) = [] ∧ step.journal = false ∧
            step.call ≠ .hostwideInstall) ∧
      (step.call = .localGpuIdentity .after → record.rolledBack →
        record.standing ≠ [] ∨ step.journal = true → step.answer.output = record.identityBefore))
    ⟨fun ⟨howned, huninterrupted, hunchanged⟩ ↦ ⟨howned, huninterrupted, hunchanged⟩,
      fun ⟨howned, huninterrupted, hunchanged⟩ ↦ ⟨howned, huninterrupted, hunchanged⟩⟩

/-- All is attached: the shims are installed, and there is a server on each host. -/
structure LiveAttachment (hosts : List Host) (st : RgpuState) : Prop where
  journal : st.files.journal.map (·.phase) = some .attached
  servers : ∀ host ∈ hosts, (host, serverName host) ∈ st.record.standing

/-- What holds when `attach` ends. -/
def Attached (root : HostRoot) (initial : HostFiles) (hosts : List Host) (report : Report)
    (st : RgpuState) : Prop :=
  LiveAttachment hosts st ∨ Cleared root initial report st

variable {root : HostRoot} {initial : HostFiles} {hosts done : List Host} {report : Report}
variable {st : RgpuState} {before : List Char} {call : RgpuCall} {answer : RgpuAnswer}
variable {leases removed : List Lease} {lease : Lease}

/-- Servers are started, and nothing is installed yet. -/
structure Attaching (initial : HostFiles) (before : List Char) (done : List Host) (st : RgpuState) :
    Prop where
  files : st.files = initial
  errors : st.errors = []
  identity : st.record.identityBefore = some before
  servers : ∀ host ∈ done, (host, serverName host) ∈ st.record.standing

structure Recoverable (root : HostRoot) (initial : HostFiles) (before : List Char)
    (st : RgpuState) : Prop where
  owned : st.record.Owned
  files : root.Remembered initial st.files
  errors : st.errors = []
  identity : st.record.identityBefore = some before

/-- What the `finally` starts from. Where something is left to report, the rollback has begun. -/
structure Finishing (root : HostRoot) (initial : HostFiles) (hosts : List Host)
    (before : List Char) (report : Report) (st : RgpuState) : Prop where
  attached : Attached root initial hosts report st
  identity : st.record.identityBefore = some before
  rolledBack : ¬LiveAttachment hosts st → ¬Cleared root initial {} st → st.record.rolledBack ∧
    (st.record.standing ≠ [] ∨ st.files.journal.isSome = true)

/-- What an exception of the body leaves: the rollback is for errors only. -/
def Unwound (root : HostRoot) (initial : HostFiles) (hosts : List Host) (before : List Char) :
    RgpuException → RgpuState → Prop
  | .error _ _, st => Recoverable root initial before st
  | _, st => Finishing root initial hosts before {} st

theorem Finishing.of_cleared (h : Cleared root initial {} st)
    (hidentity : st.record.identityBefore = some before) :
    Finishing root initial hosts before report st where
  attached := Or.inr h.mono
  identity := hidentity
  rolledBack _ hnot := absurd h hnot

theorem Finishing.mono (h : Finishing root initial hosts before {} st) :
    Finishing root initial hosts before report st where
  attached := h.attached.imp_right Cleared.mono
  identity := h.identity
  rolledBack := h.rolledBack

theorem Finishing.of_live (h : LiveAttachment hosts st)
    (hidentity : st.record.identityBefore = some before) :
    Finishing root initial hosts before report st where
  attached := Or.inl h
  identity := hidentity
  rolledBack hnot := absurd h hnot

namespace RgpuState

theorem mem_standing_push (h : call.inBody = true) (hlease : lease ∈ st.record.standing) :
    lease ∈ (st.push call answer).record.standing := by
  cases call with
  | dockerRun other =>
    have hstanding : (st.push (.dockerRun other) answer).record.standing =
        if answer.effective then other :: st.record.standing else st.record.standing := rfl
    rw [hstanding]
    split_ifs
    · exact List.mem_cons_of_mem _ hlease
    · exact hlease
  | dockerRm other => exact Bool.noConfusion h
  | _ => exact hlease

end RgpuState

theorem Attaching.recoverable (hinv : root.Inv False initial) (hinitial : initial.journal = none)
    (h : Attaching initial before done st) (howned : st.record.Owned) :
    Recoverable root initial before st where
  owned := howned
  files := by
    rw [h.files]
    exact ⟨hinv, fun _ ↦ HostRoot.RolledBack.refl, fun hjournal ↦ absurd hinitial hjournal⟩
  errors := h.errors
  identity := h.identity

/-- Everything is attached, and could be taken back. -/
structure AttachDone (root : HostRoot) (initial : HostFiles) (hosts : List Host)
    (before : List Char) (st : RgpuState) : Prop where
  recoverable : Recoverable root initial before st
  live : LiveAttachment hosts st

theorem Recoverable.push (h : Recoverable root initial before st) (hquiet : call.quiet = true)
    (hcall : call ≠ .localGpuIdentity .before) :
    Recoverable root initial before (st.push call answer) where
  owned := (RgpuState.owned_push_of_quiet hquiet).mpr h.owned
  files := h.files
  errors := h.errors
  identity := (RgpuState.identityBefore_push hcall).trans h.identity

theorem LiveAttachment.push (h : LiveAttachment hosts st) (hquiet : call.quiet = true) :
    LiveAttachment hosts (st.push call answer) where
  journal := h.journal
  servers := (RgpuState.standing_push_of_quiet hquiet).symm ▸ h.servers

theorem RgpuCall.not_mem_checks (h : ∀ check, call ≠ .localGpuIdentity check) :
    call ∉ [.localGpuIdentity .attached, .localGpuIdentity .after] := by
  intro hmem
  rcases List.mem_pair.mp hmem with hcall | hcall
  · exact h _ hcall
  · exact h _ hcall

namespace RgpuWorld

variable {world : RgpuWorld}

/-! ## The body

The servers are started one by one and appended to `started`; what is raised in between leaves them
to the rollback. A signal leaves nothing, under the condition. -/

/-- What a signal leaves where it may arrive. -/
theorem unwound_signal {signum : Signal} (h : Finishing root initial hosts before {} st) :
    CutOff (Unwound root initial hosts before) (Attached root initial hosts {}) (.signal signum)
      st :=
  cutOff_signal h (fun _ ↦ h) h.attached

theorem attaching_rules (hinv : root.Inv False initial) (hinitial : initial.journal = none) :
    BodyRules AttachCondition (Attaching initial before done) (Unwound root initial hosts before)
      (Attached root initial hosts {}) where
  owned _ _ hcondition := hcondition.owned
  push st call answer hst hbody :=
    ⟨hst.files, hst.errors, (RgpuState.identityBefore_push_of_inBody hbody).trans hst.identity,
      fun host hhost ↦ RgpuState.mem_standing_push hbody (hst.servers host hhost)⟩
  cut st call by' effects hbody hst howned hstep := by
    cases by' with
    | error kind => exact hst.recoverable hinv hinitial howned
    | signal signum =>
      have hcall : ∀ check, call ≠ .localGpuIdentity check := by
        rintro check rfl
        exact Bool.noConfusion hbody
      obtain ⟨hstanding, -⟩ := hstep.uninterrupted rfl (RgpuCall.not_mem_checks hcall)
      exact unwound_signal (.of_cleared (Cleared.of_none hstanding hst.files) hst.identity)
  raise st hst howned := hst.recoverable hinv hinitial howned

/-- **A server for a host.** -/
theorem spec_attachHost (hinv : root.Inv False initial) (hinitial : initial.journal = none)
    (host : Host) :
    Command.Spec (Assumed AttachCondition) (Quiet (Attaching initial before done))
      (do
        world.requireMatchingServerImage host
        let identity ← world.requireSuccess (.remoteGpuIdentity host)
        expectUuids identity
        world.startServer host (serverName host)
        world.pass (.appendStarted (host, serverName host)))
      (fun _ ↦ Quiet (Attaching initial before (done ++ [host])))
      (Unwound root initial hosts before) (Attached root initial hosts {}) := by
  have rules : BodyRules AttachCondition (Attaching initial before done)
      (Unwound root initial hosts before) (Attached root initial hosts {}) :=
    attaching_rules hinv hinitial
  refine (spec_requireMatchingServerImage rules).bind fun _ ↦ ?_
  refine (spec_quiet_success rules rfl rfl).bind fun identity ↦ ?_
  refine Command.Spec.bind (Q := fun _ ↦ Quiet (Attaching initial before done))
    (Command.Spec.update (fun _ hG ↦ hG) fun _ ⟨hst, howned⟩ ↦
      ⟨⟨hst.files, hst.errors, hst.identity, hst.servers⟩, howned⟩) fun _ ↦ ?_
  refine (spec_startServer rules).bind fun _ ↦ (spec_appendStarted rules).mono
    (fun _ _ hst ↦ hst) (fun _ st hst ↦ ?_) (fun _ _ hst ↦ hst) fun _ hst ↦ hst
  obtain ⟨⟨hst, howned⟩, hlease⟩ := hst
  refine ⟨⟨hst.files, hst.errors, hst.identity, fun other hother ↦ ?_⟩, howned⟩
  rcases List.mem_append.mp hother with hother | hother
  · exact hst.servers other hother
  · exact List.mem_singleton.mp hother ▸ hlease

theorem spec_attempt {condition : RgpuRecord → RgpuStep → Prop} {α : Type}
    {body : HostCall → Attempt HostFiles α} {P : RgpuState → Prop} {Q : α → RgpuState → Prop}
    {E : RgpuException → RgpuState → Prop} {D : RgpuState → Prop}
    (hcut : ∀ st by' effects hostCall, P st →
      condition st.record (st.step call (.cut by' effects)) →
      CutOff E D by' { st.push call (.cut by' effects) with
        files := (body hostCall).after effects st.files })
    (hfails : ∀ st answer hostCall, P st → (body hostCall st.files).2 = none →
      E (.error .hostwide {}) { st.push call answer with files := (body hostCall).final st.files })
    (h : ∀ st answer hostCall a, P st → (body hostCall st.files).2 = some a →
      Q a { st.push call answer with files := (body hostCall).final st.files }) :
    Command.Spec (Assumed condition) P (world.attempt call body) Q E D := by
  refine (spec_ask (Q := fun answer st ↦ ∃ before, st = before.push call answer ∧ P before ∧
    condition before.record (before.step call answer))
    fun st answer hst hstep ↦ ⟨st, rfl, hst, hstep⟩).bind fun answer ↦ ?_
  cases answer with
  -- the call was cut off, with as many of its steps done as the world says
  | cut by' effects =>
    refine Command.Spec.bind (Q := fun _ ↦ CutOff E D by') (Command.Spec.update (fun _ hG ↦ hG) ?_)
      fun _ ↦ spec_interrupt fun _ hst ↦ hst
    rintro _ ⟨st, rfl, hst, hstep⟩
    exact hcut st by' effects _ hst hstep
  | completed returncode stdout effect =>
    refine (Command.Spec.read (Q := fun found st ↦ found = st ∧ ∃ before,
      st = before.push call (.completed returncode stdout effect) ∧ P before)
      fun _ ⟨before, hpush, hst, _⟩ ↦ ⟨rfl, before, hpush, hst⟩).bind fun found ↦ ?_
    -- whether `ldconfig` has worked is read off the return code
    let hostCall : HostCall := { allowLive := world.root.live, ldconfig := returncode = 0 }
    refine Command.Spec.bind (Q := fun _ st ↦ ∃ before, P before ∧ before.files = found.files ∧
      st = { before.push call (.completed returncode stdout effect) with
        files := (body hostCall).final before.files })
      (Command.Spec.update (fun _ hG ↦ hG) ?_) fun _ ↦ ?_
    · rintro _ ⟨rfl, before, rfl, hst⟩
      exact ⟨before, hst, rfl, rfl⟩
    · split
      · rename_i hnone
        refine Command.Spec.raise ?_
        rintro _ ⟨before, hst, hfiles, rfl⟩
        exact hfails before _ hostCall hst (hfiles ▸ hnone)
      · rename_i a hsome
        refine Command.Spec.pure ?_
        rintro _ ⟨before, hst, hfiles, rfl⟩
        exact h before _ hostCall a hst (hfiles ▸ hsome)

/-- **The installation.** -/
theorem spec_attachInstall (hinv : root.Inv False initial) (hinitial : initial.journal = none)
    {bundle : ShimBundle} {endpoints : List String} (hroot : world.root = root) :
    Command.Spec (Assumed AttachCondition) (Quiet (Attaching initial before hosts))
      (world.attempt .hostwideInstall fun call ↦ world.root.install call bundle endpoints)
      (fun _ ↦ AttachDone root initial hosts before) (Unwound root initial hosts before)
      (Attached root initial hosts {}) := by
  subst hroot
  have hpush {st : RgpuState} {answer : RgpuAnswer} {files : HostFiles}
      (hst : Quiet (Attaching initial before hosts) st)
      (hfiles : world.root.Remembered initial files) :
      Recoverable world.root initial before
        { st.push .hostwideInstall answer with files := files } :=
    ⟨(RgpuState.owned_push_of_quiet rfl).mpr hst.2, hfiles, hst.1.errors,
      (RgpuState.identityBefore_push (by nofun)).trans hst.1.identity⟩
  have hremembered {st : RgpuState} (hst : Quiet (Attaching initial before hosts) st)
      (call : HostCall) (steps : ℕ) :
      world.root.Remembered initial
          ((world.root.install call bundle endpoints).after steps st.files) ∧
        world.root.Remembered initial
          ((world.root.install call bundle endpoints).final st.files) := by
    rw [hst.1.files]
    exact HostRoot.install_remembered hinv hinitial steps
  refine spec_attempt ?_ ?_ ?_
  · intro st by' effects hostCall hst hstep
    cases by' with
    | error kind => exact hpush hst (hremembered hst hostCall effects).1
    | signal signum =>
      exact absurd rfl (hstep.uninterrupted rfl (RgpuCall.not_mem_checks nofun)).2.2
  · intro st answer hostCall hst _
    exact hpush hst (hremembered hst hostCall 0).2
  · intro st answer hostCall journal hst hreturns
    refine ⟨hpush hst (hremembered hst hostCall 0).2, ?_, hst.1.servers⟩
    rw [hst.1.files] at hreturns ⊢
    exact HostRoot.install_attached hinitial hreturns

/-- **The servers and the installation.** -/
theorem spec_attachBody (hinv : world.root.Inv False initial) (hinitial : initial.journal = none)
    (args : AttachArgs) :
    Command.Spec (Assumed AttachCondition) (Quiet (Attaching initial before []))
      (world.attachBody args hosts) (fun _ ↦ AttachDone world.root initial hosts before)
      (Unwound world.root initial hosts before) (Attached world.root initial hosts {}) := by
  refine (spec_deployImages (attaching_rules hinv hinitial) args.deploy hosts).bind fun _ ↦ ?_
  refine (Command.Spec.forM (I := fun done ↦ Quiet (Attaching initial before done))
    fun done host _ _ ↦ spec_attachHost hinv hinitial host).bind fun _ ↦ ?_
  refine (spec_attachInstall hinv hinitial rfl).bind fun _ ↦ ?_
  split_ifs
  · refine (spec_requireSuccess (Q := fun _ ↦ AttachDone world.root initial hosts before)
      (fun st by' _ hst _ ↦ ?_) (fun st _ hst _ _ ↦ ?_) fun st _ _ hst _ _ ↦ ?_).bind fun uuids ↦ ?_
    · cases by' with
      | error kind => exact hst.recoverable.push rfl (by nofun)
      | signal signum =>
        exact unwound_signal (.of_live (hst.live.push rfl)
          (hst.recoverable.push rfl (by nofun)).identity)
    · exact hst.recoverable.push rfl (by nofun)
    · exact ⟨hst.recoverable.push rfl (by nofun), hst.live.push rfl⟩
    · refine (Command.Spec.read (Q := fun _ ↦ AttachDone world.root initial hosts before)
        fun _ hst ↦ hst).bind fun found ↦ ?_
      split_ifs
      · exact Command.Spec.pure fun _ hst ↦ hst
      · exact Command.Spec.raise fun _ hst ↦ hst.recoverable
  · exact Command.Spec.pure fun _ hst ↦ hst

end RgpuWorld

/-! ## The rollback

The uninstall comes first, then the removals, and the identity of the local GPUs is looked at last.
Each of them either does its work or adds an error to what is named. -/

namespace RgpuRecord

variable {step : RgpuStep} {record : RgpuRecord}

theorem rolledBack.push (h : record.rolledBack) : rolledBack (step :: record) := by
  obtain ⟨earlier, hearlier, hrollback⟩ := h
  exact ⟨earlier, List.mem_cons_of_mem _ hearlier, hrollback⟩

theorem rolledBack_of_inRollback (h : step.call.inRollback = true) : rolledBack (step :: record) :=
  ⟨step, List.mem_cons_self, h⟩

end RgpuRecord

/-- What holds while the rollback goes on. -/
structure Recovering (root : HostRoot) (initial : HostFiles) (before : List Char)
    (leases removed : List Lease) (st : RgpuState) : Prop where
  removing : Removing leases removed st
  files : root.RolledBack initial st.files ∨ st.report.localIncomplete = true ∧
    st.files.journal.isSome = true ∧ st.record.rolledBack
  begun : removed ≠ [] → st.record.rolledBack
  identity : st.record.identityBefore = some before

namespace Recovering

theorem note (h : Recovering root initial before leases removed st) :
    Recovering root initial before leases removed (st.note report) where
  removing := ⟨h.removing.known, fun lease hlease hremoved ↦ by
    rw [RgpuState.leases_note]
    exact List.mem_append_left _ (h.removing.named lease hlease hremoved)⟩
  files := by
    refine h.files.imp_right fun ⟨hincomplete, hjournal⟩ ↦ ⟨?_, hjournal⟩
    rw [RgpuState.localIncomplete_note, hincomplete, Bool.true_or]
  begun := h.begun
  identity := h.identity

theorem push (h : Recovering root initial before leases removed st) (hquiet : call.quiet = true)
    (hcall : call ≠ .localGpuIdentity .before) :
    Recovering root initial before leases removed (st.push call answer) where
  removing := h.removing.push_of_quiet hquiet
  files := h.files.imp_right fun ⟨hincomplete, hjournal, hrolled⟩ ↦
    ⟨hincomplete, hjournal, hrolled.push⟩
  begun hne := (h.begun hne).push
  identity := (RgpuState.identityBefore_push hcall).trans h.identity

theorem dockerRm (h : Recovering root initial before leases removed st)
    (hremoving : Removing leases (removed ++ [lease]) (st.push (.dockerRm lease) answer)) :
    Recovering root initial before leases (removed ++ [lease])
      (st.push (.dockerRm lease) answer) where
  removing := hremoving
  files := h.files.imp_right fun ⟨hincomplete, hjournal, hrolled⟩ ↦
    ⟨hincomplete, hjournal, hrolled.push⟩
  begun _ := RgpuRecord.rolledBack_of_inRollback rfl
  identity := (RgpuState.identityBefore_push (by nofun)).trans h.identity

theorem dockerRm_note (h : Recovering root initial before leases removed st)
    (hreport : lease ∈ report.leases) :
    Recovering root initial before leases (removed ++ [lease])
      ((st.push (.dockerRm lease) answer).note report) where
  removing := h.removing.noted hreport
  files := by
    refine h.files.imp_right fun ⟨hincomplete, hjournal, hrolled⟩ ↦ ⟨?_, hjournal, hrolled.push⟩
    rw [RgpuState.localIncomplete_note]
    exact Bool.or_eq_true_iff.mpr (Or.inl hincomplete)
  begun _ := RgpuRecord.rolledBack_of_inRollback rfl
  identity := (RgpuState.identityBefore_push (by nofun)).trans h.identity

theorem finishing_of_signal (h : Recovering root initial before leases removed st)
    (hcall : ∀ check, check ≠ .restored → call ≠ .localGpuIdentity check) {signum : Signal}
    {effects : ℕ}
    (hstep : AttachCondition st.record (st.step call (.cut (.signal signum) effects))) :
    Finishing root initial hosts before report (st.push call (.cut (.signal signum) effects)) := by
  have hchecks : call ∉ [.localGpuIdentity .attached, .localGpuIdentity .after] := by
    intro hmem
    rcases List.mem_pair.mp hmem with heq | heq
    · exact hcall .attached nofun heq
    · exact hcall .after nofun heq
  obtain ⟨hstanding, hjournal, -⟩ := hstep.uninterrupted rfl hchecks
  refine .of_cleared ⟨fun lease hlease ↦ (List.not_mem_nil (hstanding ▸ hlease)).elim, ?_⟩ ?_
  · refine Or.inl (h.files.resolve_right fun ⟨_, hsome, _⟩ ↦ ?_)
    exact Bool.noConfusion (hjournal.symm.trans hsome)
  · exact (RgpuState.identityBefore_push (hcall .before nofun)).trans h.identity

/-- **What the rollback leaves** is what it names. -/
theorem finishing (h : Recovering root initial before leases leases st) :
    Finishing root initial hosts before st.report st where
  attached := Or.inr ⟨h.removing.complete, h.files.imp_right fun hleft ↦ hleft.1⟩
  identity := h.identity
  rolledBack _ hnot := by
    by_cases hstanding : st.record.standing = []
    · rcases h.files with hfiles | ⟨-, hjournal, hrolled⟩
      · refine absurd ⟨fun lease hlease ↦ ?_, Or.inl hfiles⟩ hnot
        exact (List.not_mem_nil (hstanding ▸ hlease)).elim
      · exact ⟨hrolled, Or.inr hjournal⟩
    · obtain ⟨lease, hlease⟩ := List.exists_mem_of_ne_nil _ hstanding
      exact ⟨h.begun (List.ne_nil_of_mem (h.removing.known lease hlease)), Or.inl hstanding⟩

end Recovering

namespace RgpuWorld

variable {world : RgpuWorld}

/-- What a step of the rollback leaves: what is noted, unless it was a signal. -/
def NotedOr (Q : RgpuState → Prop) (report : Report) (E : RgpuException → RgpuState → Prop) :
    RgpuException → RgpuState → Prop
  | .error _ _, st => Q (st.note report)
  | e, st => E e st

theorem spec_rollbackStep {G P Q : RgpuState → Prop} {E : RgpuException → RgpuState → Prop}
    {D : RgpuState → Prop} {step : Rgpu PUnit} (hG : ∀ st, G (st.note report) → G st)
    (h : Command.Spec G P step (fun _ ↦ Q) (NotedOr Q report E) D) :
    Command.Spec G P (rollbackStep step report) (fun _ ↦ Q) E D := by
  refine h.tryCatch fun e ↦ ?_
  cases e with
  | error kind other => exact Command.Spec.update hG fun _ hst ↦ hst
  | keyboardInterrupt => exact Command.Spec.raise fun _ hst ↦ hst
  | launchInterrupted signum => exact Command.Spec.raise fun _ hst ↦ hst

theorem notedOr_signal {Q : RgpuState → Prop} {signum : Signal}
    (h : Finishing root initial hosts before {} st) :
    CutOff (NotedOr Q report fun e ↦ Finishing root initial hosts before e.report)
      (Attached root initial hosts {}) (.signal signum) st :=
  cutOff_signal h (fun _ ↦ h) h.attached

/-- **The uninstall.** -/
theorem spec_rollbackUninstall (hinitial : initial.journal = none) :
    Command.Spec (Assumed AttachCondition)
      (fun st ↦ Recoverable world.root initial before st ∧ st.files.journal ≠ none)
      (rollbackStep (do
        let _ ← world.attempt .hostwideUninstall world.root.uninstall) { localIncomplete := true })
      (fun _ st ↦ Recovering world.root initial before st.record.started [] st)
      (fun e ↦ Finishing world.root initial hosts before e.report)
      (Attached world.root initial hosts {}) := by
  have hremoving {st : RgpuState} {answer : RgpuAnswer}
      (hst : Recoverable world.root initial before st) :
      Removing (st.push .hostwideUninstall answer).record.started []
        (st.push .hostwideUninstall answer) :=
    ⟨(RgpuState.owned_push_of_quiet rfl).mpr hst.owned, fun _ _ ↦ nofun⟩
  have hidentity {st : RgpuState} {answer : RgpuAnswer}
      (hst : Recoverable world.root initial before st) :
      (st.push .hostwideUninstall answer).record.identityBefore = some before :=
    (RgpuState.identityBefore_push (by nofun)).trans hst.identity
  -- an uninstall that does not complete
  have hnoted {st : RgpuState} {answer : RgpuAnswer} {files : HostFiles}
      (hst : Recoverable world.root initial before st)
      (hfiles : world.root.Remembered initial files) :
      Recovering world.root initial before st.record.started []
        (RgpuState.note { st.push .hostwideUninstall answer with files := files }
          { localIncomplete := true }) := by
    refine ⟨⟨(hremoving hst).known, fun _ _ ↦ nofun⟩, ?_, nofun, hidentity hst⟩
    by_cases hjournal : files.journal = none
    · exact Or.inl (hfiles.unchanged hjournal)
    · refine Or.inr ⟨?_, Option.isSome_iff_ne_none.mpr hjournal,
        RgpuRecord.rolledBack_of_inRollback rfl⟩
      rw [RgpuState.localIncomplete_note, Bool.or_true]
  refine spec_rollbackStep (fun _ hG ↦ hG) (Command.Spec.bind (spec_attempt ?_ ?_ ?_) fun _ ↦
    Command.Spec.pure fun _ hst ↦ hst)
  · rintro st by' effects hostCall ⟨hst, hjournal⟩ hstep
    cases by' with
    | error kind =>
      exact hnoted hst ((HostRoot.spec_uninstall_remembered hinitial).after ⟨hst.files, hjournal⟩
        hst.files effects)
    | signal signum =>
      have hnone := (hstep.uninterrupted rfl (RgpuCall.not_mem_checks nofun)).2.1
      exact absurd (Option.not_isSome_iff_eq_none.mp (Bool.not_eq_true _ ▸ hnone)) hjournal
  · rintro st answer hostCall ⟨hst, hjournal⟩ _
    exact hnoted hst ((HostRoot.spec_uninstall_remembered hinitial).final ⟨hst.files, hjournal⟩
      hst.files)
  · rintro st answer hostCall journal ⟨hst, hjournal⟩ hreturns
    have hrolledBack := ((HostRoot.spec_uninstall_remembered hinitial) st.files
      ⟨hst.files, hjournal⟩).2.2 journal hreturns
    exact ⟨⟨(hremoving hst).known, fun _ _ ↦ nofun⟩, Or.inl hrolledBack, nofun, hidentity hst⟩

/-- **A removal.** -/
theorem spec_stopServer_attach :
    Command.Spec (Assumed AttachCondition) (Recovering root initial before leases removed)
      (rollbackStep (world.stopServer lease) { leases := [lease] })
      (fun _ ↦ Recovering root initial before leases (removed ++ [lease]))
      (fun e ↦ Finishing root initial hosts before e.report) (Attached root initial hosts {}) := by
  have hnoted {st : RgpuState} {answer : RgpuAnswer}
      (hst : Recovering root initial before leases removed st) :
      Recovering root initial before leases (removed ++ [lease])
        ((st.push (.dockerRm lease) answer).note { leases := [lease] }) :=
    hst.dockerRm_note (List.mem_singleton_self lease)
  refine spec_rollbackStep (fun _ hG ↦ hG) ?_
  refine (spec_perform (Q := fun result st ↦ if result.1 = 0
    then Recovering root initial before leases (removed ++ [lease]) st
    else Recovering root initial before leases (removed ++ [lease])
      (st.note { leases := [lease] })) ?_ ?_).bind fun result ↦ ?_
  · intro st by' effects hst hstep
    cases by' with
    | error kind => exact hnoted hst
    | signal signum => exact notedOr_signal (hst.finishing_of_signal (fun _ _ ↦ by nofun) hstep)
  · intro st returncode stdout effect hst _
    by_cases hzero : returncode = 0
    · simp only [hzero, if_true]
      exact hst.dockerRm (hst.removing.removed rfl)
    · simp only [hzero, if_false]
      exact hnoted hst
  · by_cases hzero : result.1 = 0
    · simp only [hzero, if_true, ne_eq, not_true_eq_false, if_false]
      exact Command.Spec.pure fun _ hst ↦ hst
    · simp only [hzero, if_false, ne_eq, not_false_eq_true, if_true]
      exact Command.Spec.raise fun _ hst ↦ hst

theorem spec_restored :
    Command.Spec (Assumed AttachCondition) (Recovering root initial before leases leases)
      (rollbackStep (do
        let restored ← world.localGpuIdentity .restored
        if restored ≠ before then noteError {}) {})
      (fun _ ↦ Recovering root initial before leases leases)
      (fun e ↦ Finishing root initial hosts before e.report) (Attached root initial hosts {}) := by
  refine spec_rollbackStep (fun _ hG ↦ hG) ?_
  refine (spec_requireSuccess (Q := fun _ ↦ Recovering root initial before leases leases)
    (fun st by' _ hst hstep ↦ ?_) (fun _ _ hst _ _ ↦ (hst.push rfl (by nofun)).note)
    fun _ _ _ hst _ _ ↦ hst.push rfl (by nofun)).bind fun restored ↦ ?_
  · cases by' with
    | error kind => exact (hst.push rfl (by nofun)).note
    | signal signum =>
      refine notedOr_signal (hst.finishing_of_signal ?_ hstep)
      rintro check hcheck ⟨⟩
      exact hcheck rfl
  · split_ifs
    · exact Command.Spec.update (fun _ hG ↦ hG) fun _ hst ↦ hst.note
    · exact Command.Spec.pure fun _ hst ↦ hst

/-- **The rollback.** -/
theorem spec_attachRollback (hinitial : initial.journal = none) (e : RgpuException) :
    Command.Spec (Assumed AttachCondition) (Recoverable world.root initial before)
      (world.attachRollback before e) (fun (_ : PUnit) _ ↦ False)
      (fun e ↦ Finishing world.root initial hosts before e.report)
      (Attached world.root initial hosts {}) := by
  refine (Command.Spec.read (Q := fun found st ↦ found = st ∧
    Recoverable world.root initial before st) fun _ hst ↦ ⟨rfl, hst⟩).bind fun found ↦ ?_
  refine Command.Spec.when
    (A := fun st ↦ Recovering world.root initial before st.record.started [] st)
    (fun hjournal ↦ ?_) (fun hjournal ↦ ?_) ?_
  · refine (spec_rollbackUninstall hinitial).mono ?_ (fun _ _ hst ↦ hst) (fun _ _ hst ↦ hst)
      fun _ hst ↦ hst
    rintro st _ ⟨rfl, hst⟩
    exact ⟨hst, Option.isSome_iff_ne_none.mp hjournal⟩
  · rintro st _ ⟨rfl, hst⟩
    have hnone := Option.not_isSome_iff_eq_none.mp hjournal
    exact ⟨⟨hst.owned, fun _ _ ↦ nofun⟩, Or.inl (hst.files.unchanged hnone), nofun, hst.identity⟩
  refine (Command.Spec.read (Q := fun found ↦
    Recovering world.root initial before found.record.started []) fun _ hst ↦ hst).bind
    fun found ↦ ?_
  refine (Command.Spec.forM (I := Recovering world.root initial before found.record.started)
    fun _ lease _ _ ↦ spec_stopServer_attach).bind fun _ ↦ ?_
  refine Command.Spec.when (A := Recovering world.root initial before found.record.started
    found.record.started) (fun _ ↦ spec_restored) (fun _ _ _ hst ↦ hst) ?_
  refine (Command.Spec.read (Q := fun last st ↦ last = st ∧ Recovering world.root initial before
    found.record.started found.record.started st) fun _ hst ↦ ⟨rfl, hst⟩).bind fun last ↦ ?_
  split_ifs with herrors
  · refine Command.Spec.raise ?_
    rintro st ⟨rfl, hst⟩
    exact hst.finishing
  · refine Command.Spec.raise ?_
    rintro st ⟨rfl, hst⟩
    have hreport : last.report = {} := by
      rw [RgpuState.report, not_not.mp herrors]
      rfl
    exact (hreport ▸ hst.finishing).mono

/-! ## The end

If the local GPUs are not found as they were there is nothing left to report, and a root to which
something is attached already is left alone. -/

/-- **The check of the local GPUs.** If they are not found as they were there is nothing left to
report. -/
theorem attached_of_unchanged (h : Finishing root initial hosts before report st)
    (hstep : AttachCondition st.record (st.step (.localGpuIdentity .after) answer))
    (houtput : answer.output ≠ some before) :
    Attached root initial hosts {} (st.push (.localGpuIdentity .after) answer) := by
  by_cases hlive : LiveAttachment hosts st
  · exact Or.inl (hlive.push rfl)
  · by_cases hcleared : Cleared root initial {} st
    · exact Or.inr ⟨hcleared.servers, hcleared.files⟩
    · obtain ⟨hrolled, hleft⟩ := h.rolledBack hlive hcleared
      exact absurd ((hstep.unchanged rfl hrolled hleft).trans h.identity) houtput

theorem spec_attachFinally :
    Command.Spec (Assumed AttachCondition) (Finishing root initial hosts before report)
      (world.attachFinally before) (fun _ ↦ Attached root initial hosts report)
      (fun e ↦ Attached root initial hosts e.report) (Attached root initial hosts {}) := by
  rw [attachFinally]
  split_ifs
  · refine (spec_requireSuccess (Q := fun after st ↦ Attached root initial hosts report st ∧
      (after ≠ before → Attached root initial hosts {} st)) (fun st by' _ hst hstep ↦ ?_)
      (fun st _ hst hstep houtput ↦ ?_) fun st _ after hst hstep houtput ↦ ?_).bind fun after ↦ ?_
    · have hattached := attached_of_unchanged hst hstep nofun
      exact cutOff_of (fun _ ↦ hattached) hattached (fun _ ↦ hattached) hattached
    · exact attached_of_unchanged hst hstep (houtput ▸ nofun)
    · refine ⟨hst.attached.imp (·.push rfl) fun hcleared ↦ ⟨hcleared.servers, hcleared.files⟩, ?_⟩
      exact fun hne ↦ attached_of_unchanged hst hstep fun heq ↦
        hne (Option.some_inj.mp (houtput.symm.trans heq))
    · split_ifs with hne
      · exact Command.Spec.raise fun st hst ↦ hst.2 hne
      · exact Command.Spec.pure fun st hst ↦ hst.1
  · exact Command.Spec.pure fun _ hst ↦ hst.attached

/-- **Behind the checks.** -/
theorem spec_attachTransaction (hinv : world.root.Inv False initial)
    (hinitial : initial.journal = none) (args : AttachArgs) :
    Command.Spec (Assumed AttachCondition) (Fresh initial) (world.attachTransaction args hosts)
      (fun _ ↦ Attached world.root initial hosts {})
      (fun e ↦ Attached world.root initial hosts e.report)
      (Attached world.root initial hosts {}) := by
  refine (spec_identityBefore.mono (fun _ _ hst ↦ hst) (fun _ _ hst ↦ hst)
    (fun _ _ hst ↦ Or.inr hst) fun _ hst ↦ Or.inr hst).bind fun before ↦ ?_
  refine Command.Spec.bind (Q := fun _ ↦ Identified initial before)
    (Command.Spec.update (fun _ hG ↦ hG) fun _ hst ↦ ⟨⟨hst.fresh.standing, hst.fresh.started,
      hst.fresh.files, hst.fresh.handlers, hst.fresh.errors⟩, hst.identity⟩) fun _ ↦ ?_
  refine (spec_prepareShimBundle.mono (fun _ _ hst ↦ hst) (fun _ _ hst ↦ hst)
    (fun _ _ hst ↦ Or.inr hst) fun _ hst ↦ Or.inr hst).bind fun _ ↦ ?_
  have hbody : Command.Spec (Assumed AttachCondition) (Identified initial before)
      (world.attachBody args hosts) (fun _ ↦ Finishing world.root initial hosts before {})
      (Unwound world.root initial hosts before) (Attached world.root initial hosts {}) := by
    refine (spec_attachBody hinv hinitial args).mono (fun st _ hst ↦ ?_)
      (fun _ _ hst ↦ .of_live hst.live hst.recoverable.identity) (fun _ _ hst ↦ hst)
      fun _ hst ↦ hst
    refine ⟨⟨hst.fresh.files, hst.fresh.errors, hst.identity, fun _ ↦ nofun⟩, ?_⟩
    rw [RgpuRecord.Owned, hst.fresh.standing]
    exact fun _ hlease ↦ (List.not_mem_nil hlease).elim
  refine Command.Spec.tryFinally (hbody.tryCatch fun e ↦ ?_) (fun _ ↦ spec_attachFinally)
    fun e ↦ spec_attachFinally
  cases e with
  | error kind report =>
    exact (spec_attachRollback hinitial _).mono (fun _ _ hst ↦ hst) (fun _ _ ↦ False.elim)
      (fun _ _ hst ↦ hst) fun _ hst ↦ hst
  | keyboardInterrupt => exact Command.Spec.raise fun _ hst ↦ hst
  | launchInterrupted signum => exact Command.Spec.raise fun _ hst ↦ hst

theorem commandAttach_of_journal (args : AttachArgs) (h : st.files.journal.isSome = true) :
    world.commandAttach args hosts st = (.raises (.error .hostwide {}), st) := by
  rw [commandAttach]
  split_ifs
  · rfl
  · rfl
  · exact (Command.read_bind _ st).trans (congrFun (if_pos h) st)
  · exact (Command.read_bind _ st).trans (congrFun (if_pos h) st)

/-- **`rgpu attach`.** -/
theorem spec_commandAttach (hinv : world.root.Inv False initial)
    (hinitial : initial.journal = none) (args : AttachArgs) :
    Command.Spec (Assumed AttachCondition) (Fresh initial) (world.commandAttach args hosts)
      (fun _ ↦ Attached world.root initial hosts {})
      (fun e ↦ Attached world.root initial hosts e.report)
      (Attached world.root initial hosts {}) := by
  refine Command.Spec.check (fun _ hst _ ↦ Or.inr hst.cleared) fun _ ↦ ?_
  refine (Command.Spec.read (Q := fun _ ↦ Fresh initial) fun _ hst ↦ hst).bind fun found ↦ ?_
  refine Command.Spec.check (fun _ hst _ ↦ Or.inr hst.cleared) fun _ ↦ ?_
  split_ifs
  · have hidle : Command.Spec (Assumed AttachCondition) (Fresh initial)
        (world.requireSuccess .localComputeProcesses) (fun _ ↦ Fresh initial)
        (fun e ↦ Cleared world.root initial e.report) (Cleared world.root initial {}) :=
      spec_early_success (fun _ hst ↦ hst) rfl fun _ _ _ hst _ ↦ hst.push rfl
    refine (hidle.mono (fun _ _ hst ↦ hst) (fun _ _ hst ↦ hst) (fun _ _ hst ↦ Or.inr hst)
      fun _ hst ↦ Or.inr hst).bind fun active ↦ ?_
    exact Command.Spec.check (fun _ hst _ ↦ Or.inr hst.cleared) fun _ ↦
      spec_attachTransaction hinv hinitial args
  · exact spec_attachTransaction hinv hinitial args

end RgpuWorld

end Lupine
