import Lupine.Launcher.AttachRollback

/-!
# Servers that are left

When `rgpu run` or `rgpu attach` ends without an attachment, the servers that it has created should
be gone or named, and the installation taken back or reported. That is so in every run whose steps
meet the conditions of the two commands, and they say where it fails.

* Between `docker run` and the append to `started` a server has no owner: if anything fails there,
  nothing removes it and nothing names it. `docker run` itself can create a container and fail.
* `attach` catches an `Exception`. A signal is none, so it leaves all that is there.
* In the cleanup of `run`, whatever is raised other than by a removal skips the removals after it.
* An error of the check of the local GPUs at the end takes the place of the one with the names.
-/

open Foundation

namespace Lupine

variable {initial : HostFiles}

/-- The files below a root as a command finds them. -/
def foundFiles (tree backups : ManagedPath → Option Entry) (journal : Option Journal) :
    HostFiles where
  files := tree
  backups := backups
  journal := journal

def rgpuStart (initial : HostFiles) : RgpuState where
  files := initial

theorem fresh_rgpuStart : Fresh initial (rgpuStart initial) := ⟨rfl, rfl, rfl, rfl, rfl⟩

/-- When a command has ended, every server that it has created has been removed or is named, and the
managed paths are as they were or reported as not. -/
def Accounted {α : Type} (root : HostRoot) (initial : HostFiles)
    (result : Ending RgpuException α × RgpuState) : Prop :=
  Cleared root initial (reported result.1) result.2

theorem reported_of_meets {α : Type} {result : Ending RgpuException α × RgpuState}
    {R : Report → RgpuState → Prop}
    (h : Command.Meets (fun _ ↦ R {}) (fun e ↦ R e.report) (R {}) result) :
    R (reported result.1) result.2 := by
  obtain ⟨_ | _ | _, st⟩ := result
  · exact h
  · exact h
  · exact h

/-- **Servers and files.** Where each of its steps meets the condition, `rgpu run` has removed or
named every server that it has created when it ends. So has `rgpu attach`, unless all is attached,
and it has taken the installation back or reported that it has not. -/
theorem servers_accounted (world : RgpuWorld) (tree backups : ManagedPath → Option Entry)
    (journal : Option Journal) (hosts : List Host) :
    (∀ args : RunArgs,
      let result := world.commandRun args hosts (rgpuStart (foundFiles tree backups journal))
      result.2.record.AllSteps RunCondition →
        Accounted world.root (foundFiles tree backups journal) result) ∧
    ∀ args : AttachArgs,
      let result := world.commandAttach args hosts (rgpuStart (foundFiles tree backups journal))
      result.2.record.AllSteps AttachCondition →
        LiveAttachment hosts result.2 ∨
          Accounted world.root (foundFiles tree backups journal) result := by
  constructor
  · intro args result hcondition
    exact reported_of_meets ((RgpuWorld.spec_commandRun args hosts).run fresh_rgpuStart hcondition)
  · intro args result hcondition
    cases journal with
    | none =>
      have hinv : world.root.Inv False (foundFiles tree backups none) :=
        HostRoot.Inv.init tree backups
      exact reported_of_meets (R := Attached world.root _ hosts)
        ((RgpuWorld.spec_commandAttach hinv rfl args).run fresh_rgpuStart hcondition)
    | some journal =>
      have hrefused : result = _ := RgpuWorld.commandAttach_of_journal args rfl
      rw [hrefused]
      exact Or.inr fresh_rgpuStart.cleared

/-! ## Examples -/

/-- A world with the answers of a list, and the last of them from then on. -/
def answering (root : HostRoot) (answers : List RgpuAnswer) : RgpuWorld where
  answers n := answers.getD n (.completed 0 [] true)
  root := root
  loadLabels _ := none

def rgpuHost (address : String) : Host where
  sshTarget := address.toList
  address := address.toList
  port := 14833
  transportEndpoint := none

def finished (stdout : String) : RgpuAnswer := .completed 0 stdout.toList true

def failed : RgpuAnswer := .completed 1 [] false

/-- The answers to `start_server` up to `docker run`, and after it up to the append. -/
def beforeDockerRun : List RgpuAnswer := [finished "", failed, finished "", finished ""]

def afterDockerRun : List RgpuAnswer :=
  [finished "", finished "true", finished ""]

/-- The answers to `run` up to `docker run` on its first host, of some hosts. -/
def runAnswers (hosts : ℕ) : List RgpuAnswer :=
  List.replicate hosts (finished "") ++ [finished "gpu", finished "", finished ""] ++
    [finished "image", finished "image"] ++ beforeDockerRun

/-- The answers to `attach` behind the checks, up to `docker run` on its first host. -/
def attachAnswers : List RgpuAnswer :=
  [finished "gpu", finished ""] ++ [finished "image", finished "image", finished ""] ++
    beforeDockerRun

def emptyFiles : HostFiles := foundFiles (fun _ ↦ none) (fun _ ↦ none) none

/-- `rgpu run` in an empty tree. -/
def sandboxRun (hosts : List Host) (answers : List RgpuAnswer) :
    Ending RgpuException ℕ × RgpuState :=
  (answering sandboxRoot answers).commandRun {} hosts (rgpuStart emptyFiles)

/-- `rgpu attach` to an empty tree. -/
def sandboxAttach (hosts : List Host) (answers : List RgpuAnswer) :
    Ending RgpuException PUnit × RgpuState :=
  (answering sandboxRoot answers).commandAttach { bundle := plainBundle } hosts
    (rgpuStart emptyFiles)

/-- `docker run` fails on the second host, and the first server cannot be removed. -/
def secondHostFails : List RgpuAnswer :=
  runAnswers 2 ++ [finished ""] ++ afterDockerRun ++ [finished "image", finished "image"] ++
    beforeDockerRun ++ [failed, failed, finished "", finished "gpu"]

/-- The installation fails when the journal is written, and the first server cannot be removed. -/
def installationFails : List RgpuAnswer :=
  attachAnswers ++ [finished ""] ++ afterDockerRun ++
    [finished "image", finished "image", finished ""] ++ beforeDockerRun ++ [finished ""] ++
    afterDockerRun ++ [.cut (.error .hostwide) 1, finished "", finished "", failed, finished "gpu"]

theorem servers_accounted_twoHosts :
    ((sandboxRun [rgpuHost "a", rgpuHost "b"] secondHostFails).2.record.standing.length = 1 ∧
      Accounted sandboxRoot emptyFiles
        (sandboxRun [rgpuHost "a", rgpuHost "b"] secondHostFails)) ∧
      (sandboxAttach [rgpuHost "a", rgpuHost "b"] installationFails).2.record.standing.length = 1 ∧
      (LiveAttachment [rgpuHost "a", rgpuHost "b"]
          (sandboxAttach [rgpuHost "a", rgpuHost "b"] installationFails).2 ∨
        Accounted sandboxRoot emptyFiles
          (sandboxAttach [rgpuHost "a", rgpuHost "b"] installationFails)) := by
  refine ⟨⟨by decide +kernel, ?_⟩, by decide +kernel, ?_⟩
  · exact (servers_accounted (answering sandboxRoot secondHostFails) (fun _ ↦ none) (fun _ ↦ none)
      none _).1 {} (by decide +kernel)
  · exact (servers_accounted (answering sandboxRoot installationFails) (fun _ ↦ none)
      (fun _ ↦ none) none _).2 { bundle := plainBundle } (by decide +kernel)

def neverReady : List RgpuAnswer :=
  runAnswers 1 ++ [finished "", failed, finished "", finished "gpu"]

/-- SIGINT arrives when the journal has been written. -/
def interruptedAttach : List RgpuAnswer :=
  attachAnswers ++ [finished ""] ++ afterDockerRun ++ [.cut (.signal .sigint) 1, finished "gpu"]

/-- SIGINT arrives while the workload runs, and again while it is stopped. -/
def interruptedTwice : List RgpuAnswer :=
  runAnswers 1 ++ [finished ""] ++ afterDockerRun ++ [finished "", finished "",
    .cut (.signal .sigint) 0, finished "", finished "", .cut (.signal .sigint) 0]

/-- The server cannot be removed, and the local GPUs are not found as they were. -/
def identityChanged : List RgpuAnswer :=
  runAnswers 1 ++ [finished ""] ++ afterDockerRun ++ [finished "", finished "", finished "", failed,
    failed, finished "", finished "other"]

/-- A server stands that is not named. -/
theorem not_accounted {α : Type} {root : HostRoot} {result : Ending RgpuException α × RgpuState}
    {lease : Lease} (hstanding : lease ∈ result.2.record.standing)
    (hnamed : lease ∉ (reported result.1).leases) : ¬Accounted root initial result :=
  fun haccounted ↦ hnamed (haccounted.servers lease hstanding)

/-- **What is left behind.** A server that never became ready is neither removed nor named; one that
was started when a signal stopped `attach` is there with the journal of the installation; a second
signal stops the cleanup of `run`; and a server that could not be removed is not named if the local
GPUs were found changed. -/
theorem servers_left :
    ¬Accounted sandboxRoot emptyFiles (sandboxRun [rgpuHost "a"] neverReady) ∧
      ¬(LiveAttachment [rgpuHost "a"] (sandboxAttach [rgpuHost "a"] interruptedAttach).2 ∨
        Accounted sandboxRoot emptyFiles (sandboxAttach [rgpuHost "a"] interruptedAttach)) ∧
      ¬Accounted sandboxRoot emptyFiles (sandboxRun [rgpuHost "a"] interruptedTwice) ∧
      ¬Accounted sandboxRoot emptyFiles (sandboxRun [rgpuHost "a"] identityChanged) := by
  have hleft {α : Type} {result : Ending RgpuException α × RgpuState}
      (hstanding : (rgpuHost "a", serverName (rgpuHost "a")) ∈ result.2.record.standing)
      (hnamed : (rgpuHost "a", serverName (rgpuHost "a")) ∉ (reported result.1).leases) :
      ¬Accounted sandboxRoot emptyFiles result := not_accounted hstanding hnamed
  refine ⟨hleft (by decide +kernel) (by decide +kernel), fun hor ↦ hor.elim (fun hlive ↦ ?_)
    (hleft (by decide +kernel) (by decide +kernel)), hleft (by decide +kernel) (by decide +kernel),
    hleft (by decide +kernel) (by decide +kernel)⟩
  exact absurd hlive.journal (by decide +kernel)

end Lupine
