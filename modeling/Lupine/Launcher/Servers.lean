import Lupine.Hostwide.Transaction
import Lupine.Launcher.Commands

/-!
# The servers that a command answers for

`start_server` makes several calls after `docker run`, and only then is the lease appended to
`started`, which is what the cleanup goes by. A server is owned if its lease has been appended. What
is shown of the calls up to there assumes that a call that leaves a server without an owner has
succeeded, and so has every call until it has one.

## Programs and rules

A command is a program that makes calls, each of which is answered or cut off by a signal. What is
shown of it is of the form: from a state with this property the program returns in a state with that
one, and what leaves it by an exception or a signal leaves in a third. There is one rule for a call,
one for a call that has to succeed, and one for a check that raises, and the parts of the commands
are put together from these.
-/

open Foundation

namespace Lupine

namespace RgpuRecord

/-- Every step meets a condition, which may look at what was done before. -/
def AllSteps (condition : RgpuRecord → RgpuStep → Prop) : RgpuRecord → Prop
  | [] => True
  | step :: record => condition record step ∧ AllSteps condition record

instance AllSteps.decidable {condition : RgpuRecord → RgpuStep → Prop}
    [∀ record step, Decidable (condition record step)] :
    ∀ record, Decidable (AllSteps condition record)
  | [] => isTrue trivial
  | step :: record =>
    have : Decidable (AllSteps condition record) := AllSteps.decidable record
    inferInstanceAs (Decidable (condition record step ∧ AllSteps condition record))

/-- Every server that stands is in `started`. -/
def Owned (record : RgpuRecord) : Prop := ∀ lease ∈ record.standing, lease ∈ record.started

instance (record : RgpuRecord) : Decidable record.Owned :=
  inferInstanceAs (Decidable (∀ lease ∈ record.standing, lease ∈ record.started))

def identityBefore : RgpuRecord → Option (List Char)
  | [] => none
  | step :: record =>
    if step.call = .localGpuIdentity .before then step.answer.output else identityBefore record

end RgpuRecord

/-- A call was done and says what it should. -/
def RgpuStep.succeeds (step : RgpuStep) : Prop :=
  match step.call with
  | .inspectRunning _ => step.answer.output = some "true".toList
  | _ => step.answer.output.isSome = true

instance RgpuStep.succeeds.decidable (step : RgpuStep) : Decidable step.succeeds := by
  unfold RgpuStep.succeeds
  split <;> infer_instance

def RgpuException.report : RgpuException → Report
  | .error _ report => report
  | _ => {}

def reported {α : Type} : Ending RgpuException α → Report
  | .raises e => e.report
  | _ => {}

/-- Every server that was created has been removed or is named, and the managed paths are as they
were or reported as not. -/
structure Cleared (root : HostRoot) (initial : HostFiles) (report : Report) (st : RgpuState) :
    Prop where
  servers : ∀ lease ∈ st.record.standing, lease ∈ report.leases
  files : root.RolledBack initial st.files ∨ report.localIncomplete = true

/-! ## Calls

The record of a run has the calls with their answers. A call that is cut off may have been carried
out or not. -/

def RgpuState.step (st : RgpuState) (call : RgpuCall) (answer : RgpuAnswer) : RgpuStep :=
  ⟨call, answer, st.files.journal.isSome⟩

def RgpuState.push (st : RgpuState) (call : RgpuCall) (answer : RgpuAnswer) : RgpuState :=
  { st with record := st.step call answer :: st.record }

/-- A call that neither removes a server nor asks for the identity of the local GPUs. -/
def RgpuCall.inBody : RgpuCall → Bool
  | dockerRm _ | localGpuIdentity _ => false
  | _ => true

namespace RgpuWorld

variable {world : RgpuWorld} {condition : RgpuRecord → RgpuStep → Prop} {call : RgpuCall}
variable {P J : RgpuState → Prop} {E : RgpuException → RgpuState → Prop} {D : RgpuState → Prop}

/-- What is assumed of a run. -/
def Assumed (condition : RgpuRecord → RgpuStep → Prop) (st : RgpuState) : Prop :=
  st.record.AllSteps condition

/-- What a signal or an exception brings about. -/
def CutOff (E : RgpuException → RgpuState → Prop) (D : RgpuState → Prop) :
    Cut → RgpuState → Prop
  | .error kind, st => E (.error kind {}) st
  | .signal signum, st =>
    if st.handlers = true then E (.launchInterrupted signum) st
    else
      match signum with
      | .sigint => E .keyboardInterrupt st
      | .sigterm => D st

/-- What holds after a call, by its answer. -/
def Answered (E : RgpuException → RgpuState → Prop) (D : RgpuState → Prop)
    (Q : ℕ × List Char → RgpuState → Prop) : RgpuAnswer → RgpuState → Prop
  | .cut by' _, st => CutOff E D by' st
  | .completed returncode stdout _, st => Q (returncode, strip stdout) st

theorem cutOff_signal {st : RgpuState} {signum : Signal} (hkeyboard : E .keyboardInterrupt st)
    (hlaunch : ∀ signum, E (.launchInterrupted signum) st) (hdies : D st) :
    CutOff E D (.signal signum) st := by
  simp only [CutOff]
  split_ifs
  · exact hlaunch signum
  · cases signum with
    | sigint => exact hkeyboard
    | sigterm => exact hdies

theorem cutOff_of {st : RgpuState} {by' : Cut} (herror : ∀ kind, E (.error kind {}) st)
    (hkeyboard : E .keyboardInterrupt st) (hlaunch : ∀ signum, E (.launchInterrupted signum) st)
    (hdies : D st) : CutOff E D by' st := by
  cases by' with
  | error kind => exact herror kind
  | signal signum => exact cutOff_signal hkeyboard hlaunch hdies

theorem spec_ask {Q : RgpuAnswer → RgpuState → Prop}
    (h : ∀ st answer, P st → condition st.record (st.step call answer) →
      Q answer (st.push call answer)) :
    Command.Spec (Assumed condition) P (world.ask call) Q E D := by
  rintro st ⟨hstep, hrecord⟩
  exact ⟨hrecord, fun hst ↦ h st _ hst hstep⟩

theorem spec_interrupt {α : Type} {G : RgpuState → Prop} {Q : α → RgpuState → Prop} {by' : Cut}
    (h : ∀ st, P st → CutOff E D by' st) :
    Command.Spec G P (interrupt by') Q E D := by
  cases by' with
  | error kind => exact Command.Spec.raise h
  | signal signum =>
    refine (Command.Spec.read (Q := fun found st ↦ found = st ∧ P st)
      fun _ hst ↦ ⟨rfl, hst⟩).bind fun found ↦ ?_
    split_ifs with hhandlers
    · refine Command.Spec.raise ?_
      rintro st ⟨rfl, hst⟩
      have hcut := h _ hst
      simp only [CutOff, if_pos hhandlers] at hcut
      exact hcut
    · cases signum with
      | sigint =>
        refine Command.Spec.raise ?_
        rintro st ⟨rfl, hst⟩
        have hcut := h _ hst
        rwa [CutOff, if_neg hhandlers] at hcut
      | sigterm =>
        refine Command.Spec.die ?_
        rintro st ⟨rfl, hst⟩
        have hcut := h _ hst
        rwa [CutOff, if_neg hhandlers] at hcut

/-- **A call.** -/
theorem spec_perform {Q : ℕ × List Char → RgpuState → Prop}
    (hcut : ∀ st by' effects, P st → condition st.record (st.step call (.cut by' effects)) →
      CutOff E D by' (st.push call (.cut by' effects)))
    (h : ∀ st returncode stdout effect, P st →
      condition st.record (st.step call (.completed returncode stdout effect)) →
      Q (returncode, strip stdout) (st.push call (.completed returncode stdout effect))) :
    Command.Spec (Assumed condition) P (world.perform call) Q E D := by
  refine (spec_ask (Q := Answered E D Q) ?_).bind fun answer ↦ ?_
  · intro st answer hst hstep
    cases answer with
    | cut by' effects => exact hcut st by' effects hst hstep
    | completed returncode stdout effect => exact h st returncode stdout effect hst hstep
  · cases answer with
    | cut by' effects => exact spec_interrupt fun _ hst ↦ hst
    | completed returncode stdout effect => exact Command.Spec.pure fun _ hst ↦ hst

theorem spec_pass {Q : RgpuState → Prop}
    (hcut : ∀ st by' effects, P st → condition st.record (st.step call (.cut by' effects)) →
      CutOff E D by' (st.push call (.cut by' effects)))
    (h : ∀ st returncode stdout effect, P st →
      condition st.record (st.step call (.completed returncode stdout effect)) →
      Q (st.push call (.completed returncode stdout effect))) :
    Command.Spec (Assumed condition) P (world.pass call) (fun _ ↦ Q) E D :=
  (spec_perform (Q := fun _ ↦ Q) hcut h).bind fun _ ↦ Command.Spec.pure fun _ hst ↦ hst

/-- **A call that has to succeed.** -/
theorem spec_requireSuccess {Q : List Char → RgpuState → Prop}
    (hcut : ∀ st by' effects, P st → condition st.record (st.step call (.cut by' effects)) →
      CutOff E D by' (st.push call (.cut by' effects)))
    (hfails : ∀ st answer, P st → condition st.record (st.step call answer) →
      answer.output = none → E (.error .rgpu {}) (st.push call answer))
    (h : ∀ st answer stdout, P st → condition st.record (st.step call answer) →
      answer.output = some stdout → Q stdout (st.push call answer)) :
    Command.Spec (Assumed condition) P (world.requireSuccess call) Q E D := by
  refine (spec_perform (Q := fun result st ↦
    if result.1 = 0 then Q result.2 st else E (.error .rgpu {}) st) hcut ?_).bind fun result ↦ ?_
  · intro st returncode stdout effect hst hstep
    cases returncode with
    | zero => exact h st _ _ hst hstep rfl
    | succ => exact hfails st _ hst hstep rfl
  · obtain ⟨returncode, stdout⟩ := result
    by_cases hzero : returncode = 0
    · simp only [hzero, if_true]
      exact Command.Spec.pure fun _ hst ↦ hst
    · simp only [hzero, if_false]
      exact Command.Spec.raise fun _ hst ↦ hst

/-! ## Starting servers

From `docker run` up to the append, the server has no owner. Every call in between leaves it so, and
under the assumption none of them fails. -/

/-- What the part of a command up to the cleanup keeps: `J` at every call, and the exceptions and
deaths that leave it when every server is owned. -/
structure BodyRules (condition : RgpuRecord → RgpuStep → Prop) (J : RgpuState → Prop)
    (E : RgpuException → RgpuState → Prop) (D : RgpuState → Prop) : Prop where
  /-- A step after which a server has no owner has succeeded. -/
  owned : ∀ record step, condition record step → ¬RgpuRecord.Owned (step :: record) → step.succeeds
  push : ∀ st call answer, J st → call.inBody = true → J (st.push call answer)
  cut : ∀ (st : RgpuState) call by' effects, call.inBody = true →
    J (st.push call (.cut by' effects)) →
    (st.push call (.cut by' effects)).record.Owned →
    condition st.record (st.step call (.cut by' effects)) →
    CutOff E D by' (st.push call (.cut by' effects))
  raise : ∀ (st : RgpuState), J st → st.record.Owned → E (.error .rgpu {}) st

end RgpuWorld

/-- A server has just been started and has no owner yet. -/
structure Starting (lease : Lease) (st : RgpuState) : Prop where
  owned : ∀ other ∈ st.record.standing, other = lease ∨ other ∈ st.record.started
  standing : lease ∈ st.record.standing

/-- A call that changes neither what stands nor what is in `started`. -/
def RgpuCall.quiet : RgpuCall → Bool
  | dockerRun _ | dockerRm _ | appendStarted _ => false
  | _ => true

theorem RgpuAnswer.effective_of_output {answer : RgpuAnswer} (h : answer.output.isSome = true) :
    answer.effective = true := by
  match answer, h with
  | .completed 0 _ _, _ => rfl

namespace RgpuState

variable {st : RgpuState} {call : RgpuCall} {answer : RgpuAnswer} {lease : Lease}

theorem standing_push_of_quiet (h : call.quiet = true) :
    (st.push call answer).record.standing = st.record.standing := by
  cases call <;> first | rfl | exact nomatch h

theorem started_push_of_quiet (h : call.quiet = true) :
    (st.push call answer).record.started = st.record.started := by
  cases call <;> first | rfl | exact nomatch h

theorem owned_push_of_quiet (h : call.quiet = true) :
    (st.push call answer).record.Owned ↔ st.record.Owned := by
  rw [RgpuRecord.Owned, RgpuRecord.Owned, standing_push_of_quiet h, started_push_of_quiet h]

theorem starting_push_dockerRun (howned : st.record.Owned) (h : answer.effective = true) :
    Starting lease (st.push (.dockerRun lease) answer) := by
  have hstanding : (st.push (.dockerRun lease) answer).record.standing =
      lease :: st.record.standing := if_pos h
  constructor
  · rw [hstanding]
    intro other hother
    exact (List.mem_cons.mp hother).imp_right (howned other)
  · rw [hstanding]
    exact List.mem_cons_self

theorem owned_push_appendStarted (hst : Starting lease st) (h : answer.effective = true) :
    (st.push (.appendStarted lease) answer).record.Owned := by
  have hstarted : (st.push (.appendStarted lease) answer).record.started =
      lease :: st.record.started := if_pos h
  rw [RgpuRecord.Owned, hstarted]
  exact fun other hother ↦ List.mem_cons.mpr (hst.owned other hother)

theorem starting_push_of_quiet (h : call.quiet = true) (hst : Starting lease st) :
    Starting lease (st.push call answer) := by
  constructor
  · rw [standing_push_of_quiet h, started_push_of_quiet h]
    exact hst.owned
  · rw [standing_push_of_quiet h]
    exact hst.standing

end RgpuState

namespace RgpuWorld

variable {world : RgpuWorld} {condition : RgpuRecord → RgpuStep → Prop} {call : RgpuCall}
variable {J : RgpuState → Prop} {E : RgpuException → RgpuState → Prop} {D : RgpuState → Prop}
variable {host : Host} {name : List Char} {lease : Lease}

namespace BodyRules

/-- A call that is cut off, or that does not succeed, leaves every server with an owner. -/
theorem owned_of_not_succeeds (rules : BodyRules condition J E D) {st : RgpuState}
    {answer : RgpuAnswer} (hstep : condition st.record (st.step call answer))
    (hfails : ¬(st.step call answer).succeeds) : (st.push call answer).record.Owned := by
  by_contra howned
  exact hfails (rules.owned _ _ hstep howned)

end BodyRules

theorem not_succeeds_of_output {step : RgpuStep} (h : step.answer.output = none) :
    ¬step.succeeds := by
  rw [RgpuStep.succeeds]
  split
  · rw [h]
    exact nofun
  · rw [h]
    exact nofun

theorem spec_body_perform (rules : BodyRules condition J E D) (hbody : call.inBody = true)
    {P Q : RgpuState → Prop} (hP : ∀ st, P st → J st)
    (h : ∀ st returncode stdout effect, P st →
      condition st.record (st.step call (.completed returncode stdout effect)) →
      Q (st.push call (.completed returncode stdout effect))) :
    Command.Spec (Assumed condition) P (world.perform call) (fun _ ↦ Q) E D := by
  refine spec_perform (fun st by' effects hst hstep ↦ ?_) h
  have howned := rules.owned_of_not_succeeds hstep (not_succeeds_of_output rfl)
  exact rules.cut st call by' effects hbody (rules.push st call _ (hP st hst) hbody) howned hstep

theorem spec_body_success (rules : BodyRules condition J E D) (hbody : call.inBody = true)
    {P : RgpuState → Prop} {Q : List Char → RgpuState → Prop} (hP : ∀ st, P st → J st)
    (h : ∀ st answer stdout, P st → condition st.record (st.step call answer) →
      answer.output = some stdout → Q stdout (st.push call answer)) :
    Command.Spec (Assumed condition) P (world.requireSuccess call) Q E D := by
  refine spec_requireSuccess (fun st by' effects hst hstep ↦ ?_)
    (fun st answer hst hstep houtput ↦ ?_) h
  · have howned := rules.owned_of_not_succeeds hstep (not_succeeds_of_output rfl)
    exact rules.cut st call by' effects hbody (rules.push st call _ (hP st hst) hbody) howned hstep
  · have howned := rules.owned_of_not_succeeds hstep (not_succeeds_of_output houtput)
    exact rules.raise _ (rules.push st call _ (hP st hst) hbody) howned

/-- What holds between two calls when no server is being started. -/
def Quiet (J : RgpuState → Prop) (st : RgpuState) : Prop := J st ∧ st.record.Owned

theorem Quiet.push (rules : BodyRules condition J E D) (hbody : call.inBody = true)
    (hquiet : call.quiet = true) {st : RgpuState} {answer : RgpuAnswer} (h : Quiet J st) :
    Quiet J (st.push call answer) :=
  ⟨rules.push st call answer h.1 hbody, (RgpuState.owned_push_of_quiet hquiet).mpr h.2⟩

theorem spec_quiet_perform (rules : BodyRules condition J E D) (hbody : call.inBody = true)
    (hquiet : call.quiet = true) :
    Command.Spec (Assumed condition) (Quiet J) (world.perform call) (fun _ ↦ Quiet J) E D :=
  spec_body_perform rules hbody (fun _ hst ↦ hst.1) fun _ _ _ _ hst _ ↦
    hst.push rules hbody hquiet

theorem spec_quiet_pass (rules : BodyRules condition J E D) (hbody : call.inBody = true)
    (hquiet : call.quiet = true) :
    Command.Spec (Assumed condition) (Quiet J) (world.pass call) (fun _ ↦ Quiet J) E D :=
  (spec_quiet_perform rules hbody hquiet).bind fun _ ↦ Command.Spec.pure fun _ hst ↦ hst

theorem spec_quiet_success (rules : BodyRules condition J E D) (hbody : call.inBody = true)
    (hquiet : call.quiet = true) :
    Command.Spec (Assumed condition) (Quiet J) (world.requireSuccess call) (fun _ ↦ Quiet J) E D :=
  spec_body_success rules hbody (fun _ hst ↦ hst.1) fun _ _ _ hst _ _ ↦
    hst.push rules hbody hquiet

/-- A check that raises, and what follows it. -/
theorem spec_check (rules : BodyRules condition J E D) {c : Prop} [Decidable c] {α : Type}
    {rest : PUnit → Rgpu α} {Q : α → RgpuState → Prop}
    (h : Command.Spec (Assumed condition) (Quiet J) (rest ⟨⟩) Q E D) :
    Command.Spec (Assumed condition) (Quiet J)
      (if c then raiseRgpuError {} >>= rest else rest ⟨⟩) Q E D :=
  Command.Spec.check (fun st hst _ ↦ rules.raise st hst.1 hst.2) fun _ ↦ h

theorem spec_deployImages (rules : BodyRules condition J E D) (deploy : Bool) (hosts : List Host) :
    Command.Spec (Assumed condition) (Quiet J) (world.deployImages deploy hosts)
      (fun _ ↦ Quiet J) E D := by
  rw [deployImages]
  split_ifs
  · refine Command.Spec.forM (I := fun _ ↦ Quiet J) fun _ host _ _ ↦ ?_
    exact (spec_quiet_success rules rfl rfl).bind fun _ ↦ Command.Spec.pure fun _ hst ↦ hst
  · exact Command.Spec.pure fun _ hst ↦ hst

theorem spec_requireMatchingServerImage (rules : BodyRules condition J E D) :
    Command.Spec (Assumed condition) (Quiet J) (world.requireMatchingServerImage host)
      (fun _ ↦ Quiet J) E D :=
  (spec_quiet_success rules rfl rfl).bind fun _ ↦ (spec_quiet_success rules rfl rfl).bind
    fun _ ↦ spec_check rules (Command.Spec.pure fun _ hst ↦ hst)

theorem spec_reusePersistentServer (rules : BodyRules condition J E D) :
    Command.Spec (Assumed condition) (Quiet J) (world.reusePersistentServer host name)
      (fun _ ↦ Quiet J) E D := by
  have hraise : Command.Spec (Assumed condition) (Quiet J) (raiseRgpuError {})
      (fun (_ : PUnit) ↦ Quiet J) E D :=
    Command.Spec.raise fun st hst ↦ rules.raise st hst.1 hst.2
  refine (spec_quiet_success rules rfl rfl).bind fun active ↦ spec_check rules ?_
  refine (spec_quiet_success rules rfl rfl).bind fun value ↦ ?_
  split
  · exact hraise
  · split
    · exact hraise
    · split_ifs
      · exact (spec_quiet_success rules rfl rfl).bind fun _ ↦ Command.Spec.pure fun _ hst ↦ hst
      · exact hraise

/-- **Starting a server.** -/
theorem spec_startServer (rules : BodyRules condition J E D) :
    Command.Spec (Assumed condition) (Quiet J) (world.startServer host name)
      (fun _ st ↦ J st ∧ Starting (host, name) st) E D := by
  refine (spec_quiet_success rules rfl rfl).bind fun active ↦ spec_check rules ?_
  refine (spec_quiet_perform rules rfl rfl).bind fun existing ↦ spec_check rules ?_
  refine (spec_quiet_success rules rfl rfl).bind fun listener ↦ spec_check rules ?_
  refine (spec_quiet_pass rules rfl rfl).bind fun _ ↦ ?_
  refine (spec_body_success (Q := fun _ st ↦ J st ∧ Starting (host, name) st) rules rfl
    (fun _ hst ↦ hst.1) ?_).bind fun _ ↦ ?_
  · intro st answer stdout hst _ houtput
    have heffective := RgpuAnswer.effective_of_output (Option.isSome_of_eq_some houtput)
    exact ⟨rules.push st _ answer hst.1 rfl, RgpuState.starting_push_dockerRun hst.2 heffective⟩
  refine (spec_body_success (Q := fun _ st ↦ J st ∧ Starting (host, name) st) rules rfl
    (fun _ hst ↦ hst.1) ?_).bind fun _ ↦ ?_
  · intro st answer stdout hst _ _
    exact ⟨rules.push st _ answer hst.1 rfl, RgpuState.starting_push_of_quiet rfl hst.2⟩
  refine (spec_body_success (Q := fun running st ↦ (J st ∧ Starting (host, name) st) ∧
    (running ≠ "true".toList → st.record.Owned)) rules rfl (fun _ hst ↦ hst.1) ?_).bind
    fun running ↦ ?_
  · intro st answer stdout hst hstep houtput
    refine ⟨⟨rules.push st _ answer hst.1 rfl, RgpuState.starting_push_of_quiet rfl hst.2⟩, ?_⟩
    intro hrunning
    refine rules.owned_of_not_succeeds hstep fun hsucceeds ↦ hrunning ?_
    exact Option.some_inj.mp (houtput.symm.trans hsucceeds)
  · split_ifs with hrunning
    · exact Command.Spec.raise fun st ⟨hst, howned⟩ ↦ rules.raise st hst.1 (howned hrunning)
    · exact Command.Spec.pure fun st hst ↦ hst.1

theorem spec_appendStarted (rules : BodyRules condition J E D) :
    Command.Spec (Assumed condition) (fun st ↦ J st ∧ Starting lease st)
      (world.pass (.appendStarted lease)) (fun _ st ↦ Quiet J st ∧ lease ∈ st.record.standing)
      E D := by
  refine (spec_body_perform (Q := fun st ↦ Quiet J st ∧ lease ∈ st.record.standing) rules rfl
    (fun _ hst ↦ hst.1) ?_).bind fun _ ↦ Command.Spec.pure fun _ hst ↦ hst
  intro st returncode stdout effect hst hstep
  refine ⟨⟨rules.push st _ _ hst.1 rfl, ?_⟩, hst.2.standing⟩
  by_cases heffective : (RgpuAnswer.completed returncode stdout effect).effective = true
  · exact RgpuState.owned_push_appendStarted hst.2 heffective
  · -- a call that is not done has not succeeded
    refine rules.owned_of_not_succeeds hstep fun hsucceeds ↦ heffective ?_
    exact RgpuAnswer.effective_of_output hsucceeds

end RgpuWorld

end Lupine
