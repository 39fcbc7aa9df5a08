import Lupine.Foundation.Unwinding
import Lupine.Hostwide.Install
import Lupine.Routing.LauncherHosts

/-!
# `rgpu run` and `rgpu attach`

Both commands start a server container on each host of a list, one after another. `run` removes them
when the workload has ended; `attach` installs the shims host-wide and leaves them, and takes back
what it has done when anything fails on the way.

Each thing that a command does to the world outside, or that could be interrupted, is a call, and
how the world answers is given from outside: a call completes with a return code and an output, or
it is cut off by a signal or an exception before or after it took effect. The calls and their
answers are recorded, and what stands on the hosts is read off the record.

`run` handles SIGINT and SIGTERM while its servers are there. In `attach`, as anywhere else, SIGINT
raises `KeyboardInterrupt` and SIGTERM ends the process.
-/

namespace Lupine

open Foundation

/-! ## Calls

A call is known by what it is meant to do. What stands on a host is read off the calls that took
effect, whether or not they were seen to. -/

inductive Signal where
  | sigint
  | sigterm
  deriving DecidableEq, Repr

def Signal.number : Signal → ℕ
  | .sigint => 2
  | .sigterm => 15

/-- A server container: its host and its name. -/
abbrev Lease := Host × List Char

/-- `server_name`. -/
def serverName (host : Host) : List Char := "rgpu-server-".toList ++ decimal host.port

/-- What `local_gpu_identity` is asked for: to compare with later, to see what was attached, or
whether all is as it was, in the rollback and at the end. -/
inductive IdentityCheck where
  | before
  | attached
  | restored
  | after
  deriving DecidableEq, Repr

/-- The calls. `wait_ready` is one, with return code 0 if a connection was made before the deadline;
so are a deployment and the preparation of the shim bundle, with return code 0 if they are done. A
`statement` is a place between two calls where a signal can arrive. -/
inductive RgpuCall where
  | localServerInterface (host : Host)
  | localComputeProcesses
  | localGpuIdentity (check : IdentityCheck)
  | prepareShimBundle
  | installHandlers
  | deployImage (host : Host)
  | localImageId
  | remoteImageId (host : Host)
  | remoteGpuIdentity (host : Host)
  | remoteComputeProcesses (host : Host)
  | inspectContainer (lease : Lease)
  | remotePortListener (host : Host)
  | remoteClientInterface (host : Host)
  | dockerRun (lease : Lease)
  | waitReady (host : Host)
  | inspectRunning (lease : Lease)
  | appendStarted (lease : Lease)
  | inspectLabels (lease : Lease)
  | hostwideInstall
  | hostwideUninstall
  | clientCommand
  | popen
  | childWait
  | statement
  | childPoll
  | dockerStop
  | childWaitTimeout
  | childKill
  | childWaitKilled
  | dockerRm (lease : Lease)
  | restoreHandlers
  deriving DecidableEq

inductive ErrorKind where
  | rgpu
  | hostwide
  | other
  deriving DecidableEq, Repr

/-- What cuts off a call: a signal, or an exception other than of what the call returns. -/
inductive Cut where
  | signal (signum : Signal)
  | error (kind : ErrorKind)
  deriving DecidableEq, Repr

/-- How the world answers a call. One that is cut off has taken some of its effects; most have
one. A call can also take effect and fail. -/
inductive RgpuAnswer where
  | cut (by' : Cut) (effects : ℕ)
  | completed (returncode : ℕ) (stdout : List Char) (effect : Bool)
  deriving DecidableEq

namespace RgpuAnswer

/-- Whether a call with one effect has taken it. A return code of 0 says that it has. -/
def effective : RgpuAnswer → Bool
  | cut _ effects => effects ≠ 0
  | completed returncode _ effect => returncode = 0 || effect

def output : RgpuAnswer → Option (List Char)
  | completed 0 stdout _ => some (strip stdout)
  | _ => none

end RgpuAnswer

/-- A call and its answer, and whether `state_path.exists()` held before. -/
structure RgpuStep where
  call : RgpuCall
  answer : RgpuAnswer
  journal : Bool
  deriving DecidableEq

/-- What was done so far, the last first. -/
abbrev RgpuRecord := List RgpuStep

namespace RgpuRecord

/-- The containers that the command has created and that are still there. -/
def standing : RgpuRecord → List Lease
  | [] => []
  | step :: record =>
    match step.call with
    | .dockerRun lease =>
      if step.answer.effective then lease :: standing record else standing record
    | .dockerRm lease =>
      if step.answer.effective then (standing record).filter (· ≠ lease) else standing record
    | _ => standing record

/-- `started`, the last first. -/
def started : RgpuRecord → List Lease
  | [] => []
  | step :: record =>
    match step.call with
    | .appendStarted lease =>
      if step.answer.effective then lease :: started record else started record
    | _ => started record

end RgpuRecord

/-! ## Exceptions and the state

A command is a program that may raise or die; its local variables are in the state, where a
`finally` finds them. -/

/-- What an error message says of the cleanup. -/
structure Report where
  leases : List Lease := []
  localIncomplete : Bool := false
  deriving DecidableEq

inductive RgpuException where
  | error (kind : ErrorKind) (report : Report)
  | keyboardInterrupt
  | launchInterrupted (signum : Signal)

/-- The record, the files of the root, and the variables of a command. -/
structure RgpuState where
  record : RgpuRecord := []
  files : HostFiles
  handlers : Bool := false
  child : Bool := false
  expectedUuids : List (List Char) := []
  /-- `cleanup_errors` or `rollback_errors`. -/
  errors : List Report := []

abbrev Rgpu (α : Type) := Command RgpuState RgpuException α

/-- What the commands meet: the answers to the calls in order, the root, and what `json.loads` makes
of the labels of a container. -/
structure RgpuWorld where
  answers : ℕ → RgpuAnswer
  root : HostRoot
  loadLabels : List Char → Option (List Char → Option (List Char))

namespace RgpuWorld

variable (world : RgpuWorld)

def ask (call : RgpuCall) : Rgpu RgpuAnswer := fun st ↦
  (.returns (world.answers st.record.length),
    { st with
      record := ⟨call, world.answers st.record.length, st.files.journal.isSome⟩ :: st.record })

end RgpuWorld

/-- A call is cut off. `forward` raises `LaunchInterrupted`. -/
def interrupt {α : Type} : Cut → Rgpu α
  | .error kind => Command.raise (.error kind {})
  | .signal signum => do
    let st ← Command.read
    if st.handlers = true then Command.raise (.launchInterrupted signum)
    else
      match signum with
      | .sigint => Command.raise .keyboardInterrupt
      | .sigterm => Command.die

def raiseRgpuError {α : Type} (report : Report) : Rgpu α := Command.raise (.error .rgpu report)

namespace RgpuWorld

variable (world : RgpuWorld)

/-- `run_checked` and `ssh`. -/
def perform (call : RgpuCall) : Rgpu (ℕ × List Char) := do
  match ← world.ask call with
  | .cut by' _ => interrupt by'
  | .completed returncode stdout _ => return (returncode, strip stdout)

/-- `require_success` of a call. -/
def requireSuccess (call : RgpuCall) : Rgpu (List Char) := do
  let (returncode, stdout) ← world.perform call
  if returncode = 0 then return stdout else raiseRgpuError {}

/-- A call that only can be cut off. -/
def pass (call : RgpuCall) : Rgpu PUnit := do
  let _ ← world.perform call
  return ⟨⟩

/-- A call of `hostwide.py`. Its return code is that of `ldconfig`. -/
def attempt {α : Type} (call : RgpuCall) (body : HostCall → Attempt HostFiles α) : Rgpu α := do
  match ← world.ask call with
  | .cut by' effects =>
    Command.update fun st ↦
      { st with files := (body { allowLive := world.root.live }).after effects st.files }
    interrupt by'
  | .completed returncode _ _ =>
    let body := body { allowLive := world.root.live, ldconfig := returncode = 0 }
    let st ← Command.read
    Command.update fun st ↦ { st with files := body.final st.files }
    match (body st.files).2 with
    | none => Command.raise (.error .hostwide {})
    | some a => return a

/-! ## Servers

A name is made of the port, so that a container of another command can have it. -/

/-- `require_matching_server_image`. -/
def requireMatchingServerImage (host : Host) : Rgpu PUnit := do
  let localId ← world.requireSuccess .localImageId
  let remoteId ← world.requireSuccess (.remoteImageId host)
  if remoteId ≠ localId then raiseRgpuError {}

/-- `start_server`. The client's interface only adds an option to the command. -/
def startServer (host : Host) (name : List Char) : Rgpu PUnit := do
  let active ← world.requireSuccess (.remoteComputeProcesses host)
  if active ≠ [] then raiseRgpuError {}
  let existing ← world.perform (.inspectContainer (host, name))
  if existing.1 = 0 then raiseRgpuError {}
  let listener ← world.requireSuccess (.remotePortListener host)
  if listener ≠ [] then raiseRgpuError {}
  world.pass (.remoteClientInterface host)
  let _ ← world.requireSuccess (.dockerRun (host, name))
  let _ ← world.requireSuccess (.waitReady host)
  let running ← world.requireSuccess (.inspectRunning (host, name))
  if running ≠ "true".toList then raiseRgpuError {}

/-- `reuse_persistent_server`. -/
def reusePersistentServer (host : Host) (name : List Char) : Rgpu PUnit := do
  let active ← world.requireSuccess (.remoteComputeProcesses host)
  if active ≠ [] then raiseRgpuError {}
  let value ← world.requireSuccess (.inspectLabels (host, name))
  match cutLast ' ' value with
  | (none, _) => raiseRgpuError {}
  | (some rawLabels, running) =>
    match world.loadLabels rawLabels with
    | none => raiseRgpuError {}
    | some labels =>
      if labels "io.rgpu.managed".toList = some "true".toList ∧
          labels "io.rgpu.lease-mode".toList = some "persistent".toList ∧
          labels "io.rgpu.endpoint".toList = some host.endpoint ∧ running = "true".toList then do
        let _ ← world.requireSuccess (.waitReady host)
      else raiseRgpuError {}

/-- `stop_server`. Its error names the lease. -/
def stopServer (lease : Lease) : Rgpu PUnit := do
  let (returncode, _) ← world.perform (.dockerRm lease)
  if returncode ≠ 0 then raiseRgpuError { leases := [lease] }

/-- `local_gpu_identity`. -/
def localGpuIdentity (check : IdentityCheck) : Rgpu (List Char) :=
  world.requireSuccess (.localGpuIdentity check)

/-- A deployment of the server image, if it is asked for. -/
def deployImages (deploy : Bool) (hosts : List Host) : Rgpu PUnit :=
  if deploy then hosts.forM fun host ↦ do
    let _ ← world.requireSuccess (.deployImage host)
  else return ⟨⟩

end RgpuWorld

def noteError (report : Report) : Rgpu PUnit :=
  Command.update fun st ↦ { st with errors := st.errors ++ [report] }

/-- The errors that were noted, in one message. -/
def RgpuState.report (st : RgpuState) : Report where
  leases := st.errors.flatMap (·.leases)
  localIncomplete := st.errors.any (·.localIncomplete)

/-! ## `rgpu run` -/

structure RunArgs where
  cublasRpc : Bool := false
  cublasAsync : Bool := false
  allowUnsupportedLibraryFallback : Bool := false
  reuseAttached : Bool := false
  deploy : Bool := false

namespace RgpuWorld

variable (world : RgpuWorld)

def runBody (args : RunArgs) (hosts : List Host) : Rgpu ℕ := do
  world.deployImages args.deploy hosts
  hosts.forM fun host ↦ do
    world.requireMatchingServerImage host
    if args.reuseAttached then world.reusePersistentServer host (serverName host)
    else do
      world.startServer host (serverName host)
      world.pass (.appendStarted (host, serverName host))
  let _ ← world.requireSuccess .clientCommand
  world.pass .popen
  Command.update fun st ↦ { st with child := true }
  let (returncode, _) ← world.perform .childWait
  return returncode

/-- The workload is stopped, if it is still there. `poll` has return code 0 as long as it is, and
`wait` if it ends in time. -/
def stopChild : Rgpu PUnit := do
  let st ← Command.read
  if st.child = true then do
    let (polled, _) ← world.perform .childPoll
    if polled = 0 then do
      world.pass .dockerStop
      let (waited, _) ← world.perform .childWaitTimeout
      if waited ≠ 0 then do
        world.pass .childKill
        world.pass .childWaitKilled

/-- The `finally` of `command_run`. -/
def runCleanup (before : List Char) : Rgpu PUnit := do
  world.stopChild
  let st ← Command.read
  (RgpuRecord.started st.record).forM fun lease ↦
    (world.stopServer lease).tryCatch fun
      | .error .rgpu report => noteError report
      | e => Command.raise e
  world.pass .restoreHandlers
  Command.update fun st ↦ { st with handlers := false }
  let after ← world.localGpuIdentity .after
  if after ≠ before then raiseRgpuError {}
  let st ← Command.read
  if st.errors ≠ [] then raiseRgpuError st.report

/-- `command_run`. The hosts have been read from the arguments. -/
def commandRun (args : RunArgs) (hosts : List Host) : Rgpu ℕ := do
  if args.cublasAsync = true ∧ args.cublasRpc = false then raiseRgpuError {}
  if args.allowUnsupportedLibraryFallback = true ∧ args.cublasRpc = false then raiseRgpuError {}
  hosts.forM fun host ↦ world.pass (.localServerInterface host)
  let before ← world.localGpuIdentity .before
  let _ ← world.requireSuccess .prepareShimBundle
  world.pass .installHandlers
  Command.update fun st ↦ { st with handlers := true }
  Command.tryFinally
    ((world.runBody args hosts).tryCatch fun
      | .launchInterrupted signum => do
        world.pass .statement
        return 128 + signum.number
      | e => Command.raise e)
    (world.runCleanup before)

end RgpuWorld

/-! ## `rgpu attach` -/

/-- What follows the first occurrence of a marker. -/
def afterMarker (marker : List Char) : List Char → Option (List Char)
  | [] => if marker = [] then some [] else none
  | c :: rest =>
    if marker <+: c :: rest then some ((c :: rest).drop marker.length) else afterMarker marker rest

/-- What ends a line for `str.splitlines`. -/
def isLineEnd (c : Char) : Bool :=
  (10 ≤ c.toNat && c.toNat ≤ 13) || (28 ≤ c.toNat && c.toNat ≤ 30) || c.toNat = 0x85 ||
    c.toNat = 0x2028 || c.toNat = 0x2029

/-- `gpu_uuids`. -/
def gpuUuids (identity : List Char) : List (List Char) :=
  ((identity.splitOnP isLineEnd).filterMap (afterMarker "UUID: ".toList)).map
    (·.rdropWhile (· = ')'))

/-- The arguments of `attach`, whether it is run by the superuser, and the files of the bundle. -/
structure AttachArgs where
  superuser : Bool := false
  deploy : Bool := false
  bundle : ShimBundle

namespace RgpuWorld

variable (world : RgpuWorld)

/-- Identities whose GPUs have to be enumerated in the end. -/
def expectUuids (identity : List Char) : Rgpu PUnit :=
  Command.update fun st ↦ { st with expectedUuids := st.expectedUuids ++ gpuUuids identity }

def attachBody (args : AttachArgs) (hosts : List Host) : Rgpu PUnit := do
  world.deployImages args.deploy hosts
  hosts.forM fun host ↦ do
    world.requireMatchingServerImage host
    let identity ← world.requireSuccess (.remoteGpuIdentity host)
    expectUuids identity
    world.startServer host (serverName host)
    world.pass (.appendStarted (host, serverName host))
  let _ ← world.attempt .hostwideInstall fun call ↦
    world.root.install call args.bundle (hosts.map fun host ↦ String.ofList host.endpoint)
  if world.root.live = true then do
    let attached ← world.localGpuIdentity .attached
    let st ← Command.read
    if ¬st.expectedUuids ⊆ gpuUuids attached then raiseRgpuError {}

/-- A step of the rollback. What it raises, other than for a signal, is noted. -/
def rollbackStep (step : Rgpu PUnit) (report : Report) : Rgpu PUnit :=
  step.tryCatch fun
    | .error _ _ => noteError report
    | e => Command.raise e

/-- The `except` of `command_attach`. -/
def attachRollback (before : List Char) (attachError : RgpuException) : Rgpu PUnit := do
  let st ← Command.read
  if st.files.journal.isSome = true then
    rollbackStep (do
      let _ ← world.attempt .hostwideUninstall world.root.uninstall) { localIncomplete := true }
  let st ← Command.read
  (RgpuRecord.started st.record).forM fun lease ↦
    rollbackStep (world.stopServer lease) { leases := [lease] }
  if world.root.live = true then
    rollbackStep (do
      let restored ← world.localGpuIdentity .restored
      if restored ≠ before then noteError {}) {}
  let st ← Command.read
  if st.errors ≠ [] then raiseRgpuError st.report else Command.raise attachError

/-- The `finally` of `command_attach`. -/
def attachFinally (before : List Char) : Rgpu PUnit := do
  if world.root.live = false then do
    let after ← world.localGpuIdentity .after
    if after ≠ before then raiseRgpuError {}

/-- The part of `command_attach` behind the checks. The hosts have been read from the arguments. -/
def attachTransaction (args : AttachArgs) (hosts : List Host) : Rgpu PUnit := do
  let before ← world.localGpuIdentity .before
  expectUuids before
  let _ ← world.requireSuccess .prepareShimBundle
  Command.tryFinally
    ((world.attachBody args hosts).tryCatch fun
      | .error kind report => world.attachRollback before (.error kind report)
      | e => Command.raise e)
    (world.attachFinally before)

/-- `command_attach`. -/
def commandAttach (args : AttachArgs) (hosts : List Host) : Rgpu PUnit := do
  if world.root.live = true ∧ args.superuser = false then Command.raise (.error .hostwide {})
  let st ← Command.read
  if st.files.journal.isSome = true then Command.raise (.error .hostwide {})
  if world.root.live = true then do
    let active ← world.requireSuccess .localComputeProcesses
    if active ≠ [] then Command.raise (.error .hostwide {})
  world.attachTransaction args hosts

end RgpuWorld

end Lupine
