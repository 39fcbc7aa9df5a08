import Lupine.Launcher.Servers

/-!
# The cleanup of `rgpu run`

The `finally` of `command_run` stops the workload and removes every lease in `started`; a lease that
cannot be removed is named in the error that it raises in the end. That error is lost if something
else is raised before, and the removals that are left are skipped if anything but a failed removal
is raised among them.

## The order of the argument

The result is about every answer and every signal, so each part of `command_run` has a rule that
says what holds when it returns and what holds when it is cut off. Before the first server there is
nothing to remove. In the body every server that stands is in `started`. In the cleanup a lease is
removed or named, and what is cut off there, or raised before the error, is what the condition
leaves out.
-/

open Foundation

namespace Lupine

/-- The calls of the cleanup, up to the check of the local GPUs. -/
def RgpuCall.inCleanup : RgpuCall → Bool
  | childPoll | dockerStop | childWaitTimeout | childKill | childWaitKilled => true
  | dockerRm _ | restoreHandlers => true
  | _ => false

def RgpuAnswer.isCut : RgpuAnswer → Bool
  | cut _ _ => true
  | completed _ _ _ => false

/-- What is asked of a step of `rgpu run`. -/
structure RunCondition (record : RgpuRecord) (step : RgpuStep) : Prop where
  /-- A step after which a server has no owner has succeeded. -/
  owned : ¬RgpuRecord.Owned (step :: record) → step.succeeds
  /-- A call of the cleanup is not cut off while servers stand. -/
  uninterrupted : step.call.inCleanup = true → RgpuRecord.standing (step :: record) ≠ [] →
    step.answer.isCut = false
  /-- The local GPUs are found as they were if servers stand. -/
  unchanged : step.call = .localGpuIdentity .after → record.standing ≠ [] →
    step.answer.output = record.identityBefore

instance RunCondition.decidable (record : RgpuRecord) (step : RgpuStep) :
    Decidable (RunCondition record step) :=
  decidable_of_iff
    ((¬RgpuRecord.Owned (step :: record) → step.succeeds) ∧
      (step.call.inCleanup = true → RgpuRecord.standing (step :: record) ≠ [] →
        step.answer.isCut = false) ∧
      (step.call = .localGpuIdentity .after → record.standing ≠ [] →
        step.answer.output = record.identityBefore))
    ⟨fun ⟨howned, huninterrupted, hunchanged⟩ ↦ ⟨howned, huninterrupted, hunchanged⟩,
      fun ⟨howned, huninterrupted, hunchanged⟩ ↦ ⟨howned, huninterrupted, hunchanged⟩⟩

variable {root : HostRoot} {initial : HostFiles} {st : RgpuState} {report : Report}
variable {call : RgpuCall} {answer : RgpuAnswer} {before : List Char}

namespace Cleared

theorem mono (h : Cleared root initial {} st) : Cleared root initial report st where
  servers lease hlease := (List.not_mem_nil (h.servers lease hlease)).elim
  files := Or.inl (h.files.resolve_right Bool.noConfusion)

theorem of_none (hstanding : st.record.standing = []) (hfiles : st.files = initial) :
    Cleared root initial report st where
  servers := hstanding ▸ fun _ hlease ↦ (List.not_mem_nil hlease).elim
  files := Or.inl (hfiles ▸ HostRoot.RolledBack.refl)

theorem cutOff (h : Cleared root initial {} st) (by' : Cut) :
    RgpuWorld.CutOff (fun e ↦ Cleared root initial e.report) (Cleared root initial {}) by' st :=
  RgpuWorld.cutOff_of (fun _ ↦ h) h (fun _ ↦ h) h

end Cleared

namespace RgpuState

theorem identityBefore_push (h : call ≠ .localGpuIdentity .before) :
    (st.push call answer).record.identityBefore = st.record.identityBefore :=
  if_neg h

theorem identityBefore_push_of_inBody (h : call.inBody = true) :
    (st.push call answer).record.identityBefore = st.record.identityBefore := by
  refine identityBefore_push ?_
  rintro rfl
  exact Bool.noConfusion h

end RgpuState

/-! ## Before the servers

Nothing stands, and whatever is raised leaves the files as they were. What later identities are
compared with becomes known here. -/

structure Fresh (initial : HostFiles) (st : RgpuState) : Prop where
  standing : st.record.standing = []
  started : st.record.started = []
  files : st.files = initial
  handlers : st.handlers = false
  errors : st.errors = []

theorem Fresh.push (h : Fresh initial st) (hquiet : call.quiet = true) :
    Fresh initial (st.push call answer) where
  standing := (RgpuState.standing_push_of_quiet hquiet).trans h.standing
  started := (RgpuState.started_push_of_quiet hquiet).trans h.started
  files := h.files
  handlers := h.handlers
  errors := h.errors

theorem Fresh.cleared (h : Fresh initial st) : Cleared root initial report st :=
  Cleared.of_none h.standing h.files

/-- Nothing has been started yet, and it is known what the identity of the local GPUs is. -/
structure Identified (initial : HostFiles) (before : List Char) (st : RgpuState) : Prop where
  fresh : Fresh initial st
  identity : st.record.identityBefore = some before

namespace RgpuWorld

variable {world : RgpuWorld} {condition : RgpuRecord → RgpuStep → Prop} {host : Host}

theorem spec_early_success {P : RgpuState → Prop} {Q : List Char → RgpuState → Prop}
    (hP : ∀ st, P st → Fresh initial st) (hquiet : call.quiet = true)
    (h : ∀ st answer stdout, P st → answer.output = some stdout → Q stdout (st.push call answer)) :
    Command.Spec (Assumed condition) P (world.requireSuccess call) Q
      (fun e ↦ Cleared root initial e.report) (Cleared root initial {}) :=
  spec_requireSuccess (fun st by' _ hst _ ↦ ((hP st hst).push hquiet).cleared.cutOff by')
    (fun st _ hst _ _ ↦ ((hP st hst).push hquiet).cleared) fun st answer stdout hst _ houtput ↦
      h st answer stdout hst houtput

theorem spec_early_pass {P : RgpuState → Prop} (hP : ∀ st, P st → Fresh initial st)
    (hquiet : call.quiet = true) (h : ∀ st answer, P st → P (st.push call answer)) :
    Command.Spec (Assumed condition) P (world.pass call) (fun _ ↦ P)
      (fun e ↦ Cleared root initial e.report) (Cleared root initial {}) :=
  spec_pass (fun st by' _ hst _ ↦ ((hP st hst).push hquiet).cleared.cutOff by')
    fun st _ _ _ hst _ ↦ h st _ hst

theorem spec_identityBefore :
    Command.Spec (Assumed condition) (Fresh initial) (world.localGpuIdentity .before)
      (Identified initial) (fun e ↦ Cleared root initial e.report) (Cleared root initial {}) :=
  spec_early_success (fun _ hst ↦ hst) rfl fun _ _ _ hst houtput ↦
    ⟨hst.push rfl, (if_pos rfl).trans houtput⟩

theorem Identified.push (h : Identified initial before st) (hquiet : call.quiet = true)
    (hbody : call.inBody = true) : Identified initial before (st.push call answer) where
  fresh := h.fresh.push hquiet
  identity := (RgpuState.identityBefore_push_of_inBody hbody).trans h.identity

theorem spec_prepareShimBundle :
    Command.Spec (Assumed condition) (Identified initial before)
      (world.requireSuccess .prepareShimBundle) (fun _ ↦ Identified initial before)
      (fun e ↦ Cleared root initial e.report) (Cleared root initial {}) :=
  spec_early_success (fun _ hst ↦ hst.fresh) rfl fun _ _ _ hst _ ↦ Identified.push hst rfl rfl

/-! ## The body

A server is appended to `started` when it has been checked, so whatever is raised then, every server
is owned by the cleanup. -/

/-- What holds as long as servers are started and the workload runs. -/
structure Running (initial : HostFiles) (before : List Char) (st : RgpuState) : Prop where
  files : st.files = initial
  handlers : st.handlers = true
  errors : st.errors = []
  identity : st.record.identityBefore = some before

/-- Whatever is raised, every server is owned. -/
theorem running_rules {D : RgpuState → Prop} :
    BodyRules RunCondition (Running initial before) (fun _ ↦ Quiet (Running initial before)) D where
  owned _ _ hcondition := hcondition.owned
  push st call answer hst hbody :=
    ⟨hst.files, hst.handlers, hst.errors,
      (RgpuState.identityBefore_push_of_inBody hbody).trans hst.identity⟩
  cut st call by' effects _ hst howned _ := by
    cases by' with
    | error kind => exact ⟨hst, howned⟩
    | signal signum =>
      simp only [CutOff, if_pos hst.handlers]
      exact ⟨hst, howned⟩
  raise st hst howned := ⟨hst, howned⟩

theorem spec_runBody {D : RgpuState → Prop} (args : RunArgs) (hosts : List Host) :
    Command.Spec (Assumed RunCondition) (Quiet (Running initial before))
      (world.runBody args hosts) (fun _ ↦ Quiet (Running initial before))
      (fun _ ↦ Quiet (Running initial before)) D := by
  have rules : BodyRules RunCondition (Running initial before)
      (fun _ ↦ Quiet (Running initial before)) D := running_rules
  refine (spec_deployImages rules args.deploy hosts).bind fun _ ↦ ?_
  have hserver : ∀ host, Command.Spec (Assumed RunCondition) (Quiet (Running initial before))
      (do
        world.requireMatchingServerImage host
        if args.reuseAttached then world.reusePersistentServer host (serverName host)
        else do
          world.startServer host (serverName host)
          world.pass (.appendStarted (host, serverName host)))
      (fun _ ↦ Quiet (Running initial before)) (fun _ ↦ Quiet (Running initial before)) D := by
    intro host
    refine (spec_requireMatchingServerImage rules).bind fun _ ↦ ?_
    split_ifs
    · exact spec_reusePersistentServer rules
    · exact (spec_startServer rules).bind fun _ ↦ (spec_appendStarted rules).mono
        (fun _ _ hst ↦ hst) (fun _ _ hst ↦ hst.1) (fun _ _ hst ↦ hst) fun _ hst ↦ hst
  refine (Command.Spec.forM (I := fun _ ↦ Quiet (Running initial before))
    fun _ host _ _ ↦ hserver host).bind fun _ ↦ ?_
  refine (spec_quiet_success rules rfl rfl).bind fun _ ↦ ?_
  refine (spec_quiet_pass rules rfl rfl).bind fun _ ↦ ?_
  refine Command.Spec.bind (Q := fun _ ↦ Quiet (Running initial before))
    (Command.Spec.update (fun _ hG ↦ hG) fun _ ⟨hst, howned⟩ ↦
      ⟨⟨hst.files, hst.handlers, hst.errors, hst.identity⟩, howned⟩) fun _ ↦ ?_
  exact (spec_quiet_perform rules rfl rfl).bind fun _ ↦ Command.Spec.pure fun _ hst ↦ hst

/-! ## The cleanup

A call of the cleanup that is cut off leaves nothing, under the condition. -/

/-- A call of the cleanup that is cut off leaves nothing. -/
theorem cleared_of_cut (hcleanup : call.inCleanup = true) (hfiles : st.files = initial)
    {by' : Cut} {effects : ℕ}
    (hstep : RunCondition st.record (st.step call (.cut by' effects))) :
    Cleared root initial {} (st.push call (.cut by' effects)) := by
  refine Cleared.of_none ?_ hfiles
  by_contra hstanding
  exact Bool.noConfusion (hstep.uninterrupted hcleanup hstanding)

theorem spec_cleanup_perform {P : RgpuState → Prop} (hcleanup : call.inCleanup = true)
    (hP : ∀ st, P st → st.files = initial) (h : ∀ st answer, P st → P (st.push call answer)) :
    Command.Spec (Assumed RunCondition) P (world.perform call) (fun _ ↦ P)
      (fun e ↦ Cleared root initial e.report) (Cleared root initial {}) :=
  spec_perform (fun st by' _ hst hstep ↦ (cleared_of_cut hcleanup (hP st hst) hstep).cutOff by')
    fun st _ _ _ hst _ ↦ h st _ hst

theorem spec_cleanup_pass {P : RgpuState → Prop} (hcleanup : call.inCleanup = true)
    (hP : ∀ st, P st → st.files = initial) (h : ∀ st answer, P st → P (st.push call answer)) :
    Command.Spec (Assumed RunCondition) P (world.pass call) (fun _ ↦ P)
      (fun e ↦ Cleared root initial e.report) (Cleared root initial {}) :=
  (spec_cleanup_perform hcleanup hP h).bind fun _ ↦ Command.Spec.pure fun _ hst ↦ hst

theorem spec_stopChild :
    Command.Spec (Assumed RunCondition) (Quiet (Running initial before)) world.stopChild
      (fun _ ↦ Quiet (Running initial before)) (fun e ↦ Cleared root initial e.report)
      (Cleared root initial {}) := by
  have hpush {call : RgpuCall} (hbody : call.inBody = true) (hquiet : call.quiet = true) :
      ∀ st answer, Quiet (Running initial before) st →
        Quiet (Running initial before) (st.push call answer) := fun st answer hst ↦
    hst.push (running_rules (D := Cleared root initial {})) hbody hquiet
  have hfiles : ∀ st, Quiet (Running initial before) st → st.files = initial :=
    fun st hst ↦ hst.1.files
  refine (Command.Spec.read (Q := fun _ ↦ Quiet (Running initial before))
    fun _ hst ↦ hst).bind fun found ↦ ?_
  split_ifs
  · refine (spec_cleanup_perform rfl hfiles (hpush rfl rfl)).bind fun polled ↦ ?_
    dsimp only
    split_ifs
    · refine (spec_cleanup_pass rfl hfiles (hpush rfl rfl)).bind fun _ ↦ ?_
      refine (spec_cleanup_perform rfl hfiles (hpush rfl rfl)).bind fun waited ↦ ?_
      split_ifs
      · exact (spec_cleanup_pass rfl hfiles (hpush rfl rfl)).bind fun _ ↦
          spec_cleanup_pass rfl hfiles (hpush rfl rfl)
      · exact Command.Spec.pure fun _ hst ↦ hst
    · exact Command.Spec.pure fun _ hst ↦ hst
  · exact Command.Spec.pure fun _ hst ↦ hst

end RgpuWorld

/-! ## The removals

The leases are removed in order. Each is gone afterwards or stands and is named, and the check of
the local GPUs comes last, which leaves what is named to be reported. -/

def RgpuState.note (st : RgpuState) (report : Report) : RgpuState :=
  { st with errors := st.errors ++ [report] }

theorem RgpuState.leases_note :
    (st.note report).report.leases = st.report.leases ++ report.leases := by
  simp [RgpuState.report, RgpuState.note]

theorem RgpuState.localIncomplete_note : (st.note report).report.localIncomplete =
    (st.report.localIncomplete || report.localIncomplete) := by
  simp [RgpuState.report, RgpuState.note]

/-- Some of the leases in `started` have been removed or are named. -/
structure Removing (leases done : List Lease) (st : RgpuState) : Prop where
  known : ∀ lease ∈ st.record.standing, lease ∈ leases
  named : ∀ lease ∈ st.record.standing, lease ∈ done → lease ∈ st.report.leases

namespace Removing

variable {leases done : List Lease} {lease : Lease}

theorem of_standing_eq_nil (h : st.record.standing = []) : Removing leases done st where
  known _ hother := (List.not_mem_nil (h ▸ hother)).elim
  named _ hother := (List.not_mem_nil (h ▸ hother)).elim

/-- What stands after an attempt to remove a server. -/
theorem mem_standing_push {other : Lease}
    (h : other ∈ (st.push (.dockerRm lease) answer).record.standing) :
    other ∈ st.record.standing ∧ (answer.effective = true → other ≠ lease) := by
  have hstanding : (st.push (.dockerRm lease) answer).record.standing =
      if answer.effective then st.record.standing.filter (· ≠ lease) else st.record.standing := rfl
  rw [hstanding] at h
  split_ifs at h with heffective
  · obtain ⟨hmem, hne⟩ := List.mem_filter.mp h
    exact ⟨hmem, fun _ ↦ of_decide_eq_true hne⟩
  · exact ⟨h, fun htrue ↦ absurd htrue heffective⟩

theorem removed (h : Removing leases done st) (heffective : answer.effective = true) :
    Removing leases (done ++ [lease]) (st.push (.dockerRm lease) answer) where
  known other hother := h.known other (mem_standing_push hother).1
  named other hother hdone := by
    obtain ⟨hstanding, hne⟩ := mem_standing_push hother
    rcases List.mem_append.mp hdone with hdone | hdone
    · exact h.named other hstanding hdone
    · exact absurd (List.mem_singleton.mp hdone) (hne heffective)

theorem noted (h : Removing leases done st) (hreport : lease ∈ report.leases) :
    Removing leases (done ++ [lease]) ((st.push (.dockerRm lease) answer).note report) where
  known other hother := h.known other (mem_standing_push hother).1
  named other hother hdone := by
    rw [RgpuState.leases_note]
    rcases List.mem_append.mp hdone with hdone | hdone
    · exact List.mem_append_left _ (h.named other (mem_standing_push hother).1 hdone)
    · exact List.mem_append_right _ (List.mem_singleton.mp hdone ▸ hreport)

theorem push_of_quiet (h : Removing leases done st) (hquiet : call.quiet = true) :
    Removing leases done (st.push call answer) where
  known := by
    rw [RgpuState.standing_push_of_quiet hquiet]
    exact h.known
  named := by
    rw [RgpuState.standing_push_of_quiet hquiet]
    exact h.named

theorem complete (h : Removing leases leases st) :
    ∀ lease ∈ st.record.standing, lease ∈ st.report.leases :=
  fun lease hlease ↦ h.named lease hlease (h.known lease hlease)

end Removing

/-- What holds while `run` removes its servers. -/
structure RunRemoving (initial : HostFiles) (before : List Char) (leases done : List Lease)
    (st : RgpuState) : Prop where
  removing : Removing leases done st
  files : st.files = initial
  identity : st.record.identityBefore = some before

namespace RgpuWorld

variable {world : RgpuWorld} {leases done : List Lease} {lease : Lease}

/-- **A removal.** -/
theorem spec_stopServer_run :
    Command.Spec (Assumed RunCondition) (RunRemoving initial before leases done)
      ((world.stopServer lease).tryCatch fun
        | .error .rgpu report => noteError report
        | e => Command.raise e)
      (fun _ ↦ RunRemoving initial before leases (done ++ [lease]))
      (fun e ↦ Cleared root initial e.report) (Cleared root initial {}) := by
  have hidentity {st : RgpuState} {answer : RgpuAnswer}
      (hst : RunRemoving initial before leases done st) :
      (st.push (.dockerRm lease) answer).record.identityBefore = some before :=
    (RgpuState.identityBefore_push (by nofun)).trans hst.identity
  -- an error that is noted, and the others
  have hstop : Command.Spec (Assumed RunCondition) (RunRemoving initial before leases done)
      (world.stopServer lease) (fun _ ↦ RunRemoving initial before leases (done ++ [lease]))
      (fun e st ↦ match e with
        | .error .rgpu report =>
          RunRemoving initial before leases (done ++ [lease]) (st.note report)
        | e => Cleared root initial e.report st) (Cleared root initial {}) := by
    refine (spec_perform (Q := fun result st ↦ if result.1 = 0
      then RunRemoving initial before leases (done ++ [lease]) st
      else RunRemoving initial before leases (done ++ [lease]) (st.note { leases := [lease] }))
      ?_ ?_).bind fun result ↦ ?_
    · intro st by' effects hst hstep
      have hcleared : Cleared root initial {} (st.push (.dockerRm lease) (.cut by' effects)) :=
        cleared_of_cut rfl hst.files hstep
      have hstanding : (st.push (.dockerRm lease) (.cut by' effects)).record.standing = [] :=
        List.eq_nil_iff_forall_not_mem.mpr fun other hother ↦
          List.not_mem_nil (hcleared.servers other hother)
      refine cutOff_of (fun kind ↦ ?_) hcleared (fun _ ↦ hcleared) hcleared
      cases kind with
      | rgpu => exact ⟨Removing.of_standing_eq_nil hstanding, hst.files, hidentity hst⟩
      | hostwide => exact hcleared
      | other => exact hcleared
    · intro st returncode stdout effect hst _
      by_cases hzero : returncode = 0
      · simp only [hzero, if_true]
        exact ⟨hst.removing.removed rfl, hst.files, hidentity hst⟩
      · simp only [hzero, if_false]
        exact ⟨hst.removing.noted (List.mem_singleton_self lease), hst.files, hidentity hst⟩
    · by_cases hzero : result.1 = 0
      · simp only [hzero, if_true, ne_eq, not_true_eq_false, if_false]
        exact Command.Spec.pure fun _ hst ↦ hst
      · simp only [hzero, if_false, ne_eq, not_false_eq_true, if_true]
        exact Command.Spec.raise fun _ hst ↦ hst
  refine hstop.tryCatch fun e ↦ ?_
  rcases e with ⟨_ | _ | _, report⟩ | _ | signum
  · exact Command.Spec.update (fun _ hG ↦ hG) fun _ hst ↦ hst
  · exact Command.Spec.raise fun _ hst ↦ hst
  · exact Command.Spec.raise fun _ hst ↦ hst
  · exact Command.Spec.raise fun _ hst ↦ hst
  · exact Command.Spec.raise fun _ hst ↦ hst

/-- **The check of the local GPUs.** What is named is still there to be reported. -/
theorem spec_identityAfter {P : RgpuState → Prop} (hfiles : ∀ st, P st → st.files = initial)
    (hidentity : ∀ st, P st → st.record.identityBefore = some before)
    (hpush : ∀ st answer, P st → P (st.push (.localGpuIdentity .after) answer)) :
    Command.Spec (Assumed RunCondition) P (world.localGpuIdentity .after)
      (fun after st ↦ P st ∧ (after ≠ before → st.record.standing = []))
      (fun e ↦ Cleared root initial e.report) (Cleared root initial {}) := by
  -- if it is not found as it was, nothing stands
  have hnone {st : RgpuState} {answer : RgpuAnswer} (hst : P st)
      (hstep : RunCondition st.record (st.step (.localGpuIdentity .after) answer))
      (houtput : answer.output ≠ some before) :
      (st.push (.localGpuIdentity .after) answer).record.standing = [] := by
    by_contra hstanding
    exact houtput ((hstep.unchanged rfl hstanding).trans (hidentity st hst))
  refine spec_requireSuccess (fun st by' effects hst hstep ↦ ?_)
    (fun st answer hst hstep houtput ↦ ?_) fun st answer stdout hst hstep houtput ↦ ?_
  · exact (Cleared.of_none (hnone hst hstep nofun) (hfiles st hst)).cutOff by'
  · exact Cleared.of_none (hnone hst hstep (houtput ▸ nofun)) (hfiles st hst)
  · refine ⟨hpush st answer hst, fun hne ↦ hnone hst hstep fun heq ↦ hne ?_⟩
    exact Option.some_inj.mp (houtput.symm.trans heq)

/-- **The cleanup.** -/
theorem spec_runCleanup :
    Command.Spec (Assumed RunCondition) (Quiet (Running initial before)) (world.runCleanup before)
      (fun _ ↦ Cleared root initial {}) (fun e ↦ Cleared root initial e.report)
      (Cleared root initial {}) := by
  refine spec_stopChild.bind fun _ ↦ ?_
  refine (Command.Spec.read (Q := fun found ↦
    RunRemoving initial before found.record.started [])
    fun st ⟨hst, howned⟩ ↦ ⟨⟨howned, fun _ _ ↦ nofun⟩, hst.files, hst.identity⟩).bind fun found ↦ ?_
  refine (Command.Spec.forM (I := RunRemoving initial before found.record.started)
    fun _ lease _ _ ↦ spec_stopServer_run).bind fun _ ↦ ?_
  -- every server has been removed or is named
  let Done (st : RgpuState) : Prop :=
    RunRemoving initial before found.record.started found.record.started st
  have hpush {call : RgpuCall} (hquiet : call.quiet = true)
      (hcall : call ≠ .localGpuIdentity .before) :
      ∀ st answer, Done st → Done (st.push call answer) := fun st answer hst ↦
    ⟨hst.removing.push_of_quiet hquiet, hst.files,
      (RgpuState.identityBefore_push hcall).trans hst.identity⟩
  refine (spec_cleanup_pass (P := Done) rfl (fun _ hst ↦ hst.files) (hpush rfl (by nofun))).bind
    fun _ ↦ ?_
  refine Command.Spec.bind (Q := fun _ ↦ Done) (Command.Spec.update (fun _ hG ↦ hG)
    fun _ hst ↦ ⟨⟨hst.removing.known, hst.removing.named⟩, hst.files, hst.identity⟩) fun _ ↦ ?_
  refine (spec_identityAfter (fun _ hst ↦ hst.files) (fun _ hst ↦ hst.identity)
    (hpush rfl (by nofun))).bind fun after ↦ ?_
  refine Command.Spec.check (fun st ⟨hst, hstanding⟩ hne ↦
    Cleared.of_none (hstanding hne) hst.files) fun _ ↦ ?_
  refine (Command.Spec.read (Q := fun found st ↦ found = st ∧ Done st)
    fun _ hst ↦ ⟨rfl, hst.1⟩).bind fun found ↦ ?_
  split_ifs with herrors
  · refine Command.Spec.raise ?_
    rintro st ⟨rfl, hst⟩
    exact ⟨hst.removing.complete, Or.inl (hst.files ▸ HostRoot.RolledBack.refl)⟩
  · refine Command.Spec.pure ?_
    rintro st ⟨rfl, hst⟩
    have hreport : found.report.leases = [] := by
      rw [RgpuState.report, not_not.mp herrors]
      rfl
    exact ⟨hreport ▸ hst.removing.complete, Or.inl (hst.files ▸ HostRoot.RolledBack.refl)⟩

/-- **`rgpu run`.** -/
theorem spec_commandRun (args : RunArgs) (hosts : List Host) :
    Command.Spec (Assumed RunCondition) (Fresh initial) (world.commandRun args hosts)
      (fun _ ↦ Cleared root initial {}) (fun e ↦ Cleared root initial e.report)
      (Cleared root initial {}) := by
  refine Command.Spec.check (fun _ hst _ ↦ hst.cleared) fun _ ↦ ?_
  refine Command.Spec.check (fun _ hst _ ↦ hst.cleared) fun _ ↦ ?_
  refine (Command.Spec.forM (I := fun _ ↦ Fresh initial) fun _ host _ _ ↦
    spec_early_pass (fun _ hst ↦ hst) rfl fun _ _ hst ↦ hst.push rfl).bind fun _ ↦ ?_
  refine spec_identityBefore.bind fun before ↦ spec_prepareShimBundle.bind fun _ ↦ ?_
  refine (spec_early_pass (fun _ hst ↦ hst.fresh) rfl fun _ _ hst ↦
    Identified.push hst rfl rfl).bind fun _ ↦ ?_
  refine Command.Spec.bind (Q := fun _ ↦ Quiet (Running initial before))
    (Command.Spec.update (fun _ hG ↦ hG) fun st hst ↦ ?_) fun _ ↦ ?_
  · refine ⟨⟨hst.fresh.files, rfl, hst.fresh.errors, hst.identity⟩, ?_⟩
    rw [RgpuRecord.Owned, hst.fresh.standing]
    exact fun _ hlease ↦ (List.not_mem_nil hlease).elim
  have rules : BodyRules RunCondition (Running initial before)
      (fun _ ↦ Quiet (Running initial before)) (Cleared root initial {}) := running_rules
  -- whatever the body ends with, the cleanup starts from a state in which the workload runs
  refine Command.Spec.tryFinally
    (Command.Spec.tryCatch (E := fun _ ↦ Quiet (Running initial before)) (spec_runBody args hosts)
      fun e ↦ ?_)
    (fun _ ↦ spec_runCleanup) fun e ↦ spec_runCleanup.mono
      (fun _ _ hst ↦ hst) (fun _ _ hst ↦ hst.mono) (fun _ _ hst ↦ hst) fun _ hst ↦ hst
  cases e with
  | launchInterrupted signum =>
    exact (spec_quiet_pass rules rfl rfl).bind fun _ ↦ Command.Spec.pure fun _ hst ↦ hst
  | error kind report => exact Command.Spec.raise fun _ hst ↦ hst
  | keyboardInterrupt => exact Command.Spec.raise fun _ hst ↦ hst

end RgpuWorld

end Lupine
