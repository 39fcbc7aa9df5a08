import Mathlib.Data.Nat.Notation
import Lupine.Foundation.Attempts
import Lupine.Foundation.Machine

/-!
# Host-wide installation

`hostwide.py` puts the shims into a file tree and takes them out again. The paths that it manages
are fixed. Before it changes any of them it copies what is there to a backup, and writes a journal
that says what it is going to put where; the journal goes when all is as it was.

An attempt to install or to uninstall can be interrupted after each of its atomic operations. A
call that fails, other than where it is modelled to, ends an attempt in the same way. Directories
that are made on the way stay; the mode of a file is kept without the set-user-ID and sticky bits.

The checks on the root and on the endpoints come first. The metadata that the command line adds to
the journal, and what only describes the installation in it, is left out. A managed path is a name:
where it lies below the root decides nothing but the order of the journal, which is given.
-/

open Foundation

namespace Lupine

/-! ## The paths -/

/-- The managed paths, in the order in which they are installed. -/
inductive ManagedPath where
  | libcuda
  | libnvidiaMl
  | cudartCompat
  | cudart
  | cublasRpc
  | cusolverRpc
  | cufftRpc
  | unsupportedRpcGuard
  | nccl
  | ncclReal
  | sitecustomize
  | libcudaLink
  | libnvidiaMlLink
  | endpoint
  | loader
  | profile
  deriving DecidableEq, Repr

namespace ManagedPath

/-- The paths that are copied from the shim bundle. -/
def sources : List ManagedPath :=
  [libcuda, libnvidiaMl, cudartCompat, cudart, cublasRpc, cusolverRpc, cufftRpc,
    unsupportedRpcGuard, nccl, ncclReal, sitecustomize]

def managed : List ManagedPath :=
  sources ++ [libcudaLink, libnvidiaMlLink, endpoint, loader, profile]

/-- The order of a journal that is read back: its keys are sorted when it is written. -/
def journalOrder : List ManagedPath :=
  [loader, profile, endpoint, cublasRpc, libcudaLink, libcuda, cudart, cufftRpc, cusolverRpc,
    cudartCompat, nccl, ncclReal, libnvidiaMlLink, libnvidiaMl, unsupportedRpcGuard, sitecustomize]

theorem mem_managed (path : ManagedPath) : path ∈ managed := by
  cases path <;> decide

theorem mem_journalOrder (path : ManagedPath) : path ∈ journalOrder := by
  cases path <;> decide

theorem nodup_managed : managed.Nodup := by decide

end ManagedPath

/-! ## The file tree

A tree is what is at the managed paths. What the results need to look back to is noted beside it,
and no operation reads it. -/

inductive Entry where
  | file (content : List UInt8) (mode : ℕ)
  | symlink (target : String)
  | directory
  deriving DecidableEq, Repr

/-- What `_backup` and the restoration keep of an entry: `mode & 0o777`. -/
def Entry.kept : Entry → Entry
  | file content mode => file content (mode % 512)
  | symlink target => symlink target
  | directory => directory

/-- The parents of a path: directories, which are made where they are missing; something where
`mkdir` fails and nothing is below, as a link that leads nowhere; or a file, where `unlink` fails
with another error than that the path is missing. -/
inductive Parents where
  | usable
  | dangling
  | blocked
  deriving DecidableEq, Repr

/-- The root. It is live if it is `/`. The parents of the paths stay as they are. -/
structure HostRoot where
  isDir : Bool
  live : Bool
  parents : ManagedPath → Parents
  /-- `hashlib.sha256(..).hexdigest()`. -/
  sha256 : List UInt8 → String

/-- The string that `_fingerprint` returns. -/
inductive Fingerprint where
  | symlink (target : String)
  | sha256 (hexdigest : String)
  deriving DecidableEq, Repr

inductive JournalPhase where
  | installing
  | attached
  | detaching
  deriving DecidableEq, Repr

/-- The journal. A backup is at `BACKUP_ROOT` and the path, if there is one. -/
structure Journal where
  phase : JournalPhase
  managed : ManagedPath → Fingerprint
  backups : ManagedPath → Bool

/-- A managed path that was removed or overwritten, what was found there, what the journal on disk
said that was installed, and the backup that it named. -/
structure Touch where
  path : ManagedPath
  found : Option Entry
  managed : Option Fingerprint
  backup : Option Entry

/-- The files below the root. What was at the managed paths when the journal was written, whether
anyone else has changed one since, and what was removed or overwritten is noted beside them. -/
structure HostFiles where
  files : ManagedPath → Option Entry
  backups : ManagedPath → Option Entry
  journal : Option Journal := none
  before : ManagedPath → Option Entry := fun _ ↦ none
  foreign : Bool := false
  touched : List Touch := []

/-- The backup of a path, if the journal says that there is one. -/
def Journal.backup (journal : Journal) (st : HostFiles) (path : ManagedPath) : Option Entry :=
  if journal.backups path then st.backups path else none

namespace HostRoot

variable (root : HostRoot)

/-- `_fingerprint`. A directory cannot be read. -/
def fingerprint : Entry → Option Fingerprint
  | .file content _ => some (.sha256 (root.sha256 content))
  | .symlink target => some (.symlink target)
  | .directory => none

def lookup (st : HostFiles) (path : ManagedPath) : Option Entry :=
  if root.parents path = .usable then st.files path else none

def change (path : ManagedPath) (entry : Option Entry) (st : HostFiles) : HostFiles :=
  { st with
    files := Function.update st.files path entry
    touched := {
      path
      found := root.lookup st path
      managed := st.journal.map fun journal ↦ journal.managed path
      backup := st.journal.bind fun journal ↦ journal.backup st path } :: st.touched }

/-- `_atomic_copy`, `_atomic_text` and `_atomic_symlink`. -/
def put (path : ManagedPath) (entry : Entry) : Attempt HostFiles PUnit := do
  Attempt.ensure (root.parents path = .usable)
  let st ← Attempt.get
  Attempt.ensure (root.lookup st path ≠ some .directory)
  Attempt.step (root.change path (some entry))

/-- `_remove_target`. -/
def removeTarget (path : ManagedPath) : Attempt HostFiles PUnit := do
  Attempt.ensure (root.parents path ≠ .blocked)
  let st ← Attempt.get
  match root.lookup st path with
  | none => pure ⟨⟩
  | some .directory => Attempt.fail
  | some _ => Attempt.step (root.change path none)

/-- `_backup`. -/
def backup (path : ManagedPath) : Attempt HostFiles Bool := do
  let st ← Attempt.get
  match root.lookup st path with
  | none => return false
  | some .directory => Attempt.fail
  | some entry =>
    Attempt.ensure (st.backups path ≠ some .directory)
    Attempt.step fun st ↦
      { st with backups := Function.update st.backups path (some entry.kept) }
    return true

/-- `_validate_root`. -/
def valid (allowLive : Bool) : Bool := root.isDir && (!root.live || allowLive)

end HostRoot

/-! ## Installing

The functions are attempts in the sense of `Lupine.Foundation.Attempts`, one atomic step for each
operation that is seen by others. -/

/-- A file of the shim bundle, or a link to one. -/
structure BundleFile where
  link : Option String := none
  content : List UInt8
  deriving DecidableEq, Repr

/-- The files of the shim bundle by the paths that they go to. -/
abbrev ShimBundle := ManagedPath → Option BundleFile

/-- No file of the bundle is a link. -/
def ShimBundle.Plain (bundle : ShimBundle) : Prop :=
  ∀ path ∈ ManagedPath.sources, (bundle path).bind (·.link) = none

instance (bundle : ShimBundle) : Decidable bundle.Plain :=
  inferInstanceAs (Decidable (∀ path ∈ ManagedPath.sources, (bundle path).bind (·.link) = none))

/-- `str.isspace` of a character. -/
def isspace (c : Char) : Bool :=
  c.toNat ∈ [0x20, 0x85, 0xa0, 0x1680, 0x2028, 0x2029, 0x202f, 0x205f, 0x3000] ||
    (0x9 ≤ c.toNat && c.toNat ≤ 0xd) || (0x1c ≤ c.toNat && c.toNat ≤ 0x1f) ||
    (0x2000 ≤ c.toNat && c.toNat ≤ 0x200a)

/-- `_validate_endpoints`. -/
def validateEndpoints (endpoints : List String) : Option String :=
  let invalid := endpoints.any fun endpoint ↦ endpoint.isEmpty || endpoint.toList.any isspace
  if endpoints.isEmpty || invalid then none else some (",".intercalate endpoints)

/-- `_profile_text`. -/
def profileText : String :=
  String.join <| List.map (· ++ "\n") [
    "# Managed by rgpu; removed transactionally by `rgpu detach`.",
    "if [ -d /usr/local/lib/rgpu/python ]; then",
    "  case \":$\x7bLD_LIBRARY_PATH-\x7d:\" in",
    "    *:/usr/local/lib/rgpu:*) ;;",
    "    *) LD_LIBRARY_PATH=\"/usr/local/lib/rgpu$\x7bLD_LIBRARY_PATH:+:$LD_LIBRARY_PATH\x7d\" ;;",
    "  esac",
    "  export LD_LIBRARY_PATH",
    "  case \":$\x7bPYTHONPATH-\x7d:\" in",
    "    *:/usr/local/lib/rgpu/python:*) ;;",
    "    *) PYTHONPATH=\"/usr/local/lib/rgpu/python$\x7bPYTHONPATH:+:$PYTHONPATH\x7d\" ;;",
    "  esac",
    "  export PYTHONPATH",
    "  RGPU_HOSTWIDE_PYTHON=$\x7bRGPU_HOSTWIDE_PYTHON:-1\x7d",
    "  RGPU_MIXED_PYTORCH_PRIME=$\x7bRGPU_MIXED_PYTORCH_PRIME:-1\x7d",
    "  RGPU_CUFFT_RPC=$\x7bRGPU_CUFFT_RPC:-1\x7d",
    "  DISABLE_ADDMM_CUDA_LT=$\x7bDISABLE_ADDMM_CUDA_LT:-1\x7d",
    "  TORCH_LINALG_PREFER_CUSOLVER=$\x7bTORCH_LINALG_PREFER_CUSOLVER:-1\x7d",
    "  export RGPU_HOSTWIDE_PYTHON RGPU_MIXED_PYTORCH_PRIME RGPU_CUFFT_RPC",
    "  export DISABLE_ADDMM_CUDA_LT TORCH_LINALG_PREFER_CUSOLVER",
    "fi"]

def encodeText (text : String) : List UInt8 := text.toUTF8.data.toList

namespace HostRoot

variable (root : HostRoot)

def shimEntry (bundle : ShimBundle) (endpointText : String) : ManagedPath → Entry
  | .libcudaLink => .symlink "libcuda.so.1"
  | .libnvidiaMlLink => .symlink "libnvidia-ml.so.1"
  | .endpoint => .file (encodeText (endpointText ++ "\n")) 0o644
  | .loader => .file (encodeText "/usr/local/lib/rgpu\n") 0o644
  | .profile => .file (encodeText profileText) 0o644
  | .sitecustomize => .file ((bundle .sitecustomize).elim [] (·.content)) 0o644
  | path => .file ((bundle path).elim [] (·.content)) 0o755

/-- `desired`. A file of the bundle that is a link has the fingerprint of the link. -/
def desired (bundle : ShimBundle) (endpointText : String) (path : ManagedPath) : Fingerprint :=
  match path with
  | .libcudaLink => .symlink "libcuda.so.1"
  | .libnvidiaMlLink => .symlink "libnvidia-ml.so.1"
  | .endpoint => .sha256 (root.sha256 (encodeText (endpointText ++ "\n")))
  | .loader => .sha256 (root.sha256 (encodeText "/usr/local/lib/rgpu\n"))
  | .profile => .sha256 (root.sha256 (encodeText profileText))
  | path =>
    match (bundle path).bind (·.link) with
    | some target => .symlink target
    | none => .sha256 (root.sha256 ((bundle path).elim [] (·.content)))

/-- The recovery record, with what the backups returned. -/
def newJournal (bundle : ShimBundle) (endpointText : String)
    (backups : List (ManagedPath × Bool)) : Journal where
  phase := .installing
  managed := root.desired bundle endpointText
  backups path := (backups.lookup path).getD false

/-- The journal is written for the first time. -/
def attach (journal : Journal) (st : HostFiles) : HostFiles :=
  { st with journal := some journal, before := root.lookup st, foreign := false }

end HostRoot

/-- The arguments of `install` and of `uninstall`. `ldconfig` says whether the loader's cache can be
refreshed. -/
structure HostCall where
  allowLive : Bool := false
  refreshLoader : Bool := true
  ldconfig : Bool := true

/-- `_refresh_loader`, where it is asked for. -/
def HostCall.refreshed (call : HostCall) : Prop := call.refreshLoader = true → call.ldconfig = true

instance (call : HostCall) : Decidable call.refreshed := inferInstanceAs (Decidable (_ → _))

namespace HostRoot

variable (root : HostRoot)

/-- `install`. -/
def install (call : HostCall) (bundle : ShimBundle) (endpoints : List String) :
    Attempt HostFiles Journal := do
  Attempt.ensure (root.valid call.allowLive = true)
  let st ← Attempt.get
  Attempt.ensure (st.journal.isNone = true)
  match validateEndpoints endpoints with
  | none => Attempt.fail
  | some endpointText =>
    Attempt.ensure (∀ path ∈ ManagedPath.sources, (bundle path).isSome = true)
    let backups ← Attempt.collect (fun path ↦ return (path, ← root.backup path)) ManagedPath.managed
    let journal := root.newJournal bundle endpointText backups
    Attempt.step (root.attach journal)
    ManagedPath.managed.forM fun path ↦ root.put path (shimEntry bundle endpointText path)
    Attempt.ensure call.refreshed
    let st ← Attempt.get
    Attempt.ensure (∀ path ∈ ManagedPath.managed,
      (root.lookup st path).bind root.fingerprint = some (journal.managed path))
    let journal := { journal with phase := .attached }
    Attempt.step fun st ↦ { st with journal := some journal }
    return journal

/-! ## Uninstalling

The check of the managed paths comes before anything is changed. -/

/-- Why `uninstall` refuses. -/
inductive Changed where
  | missing
  | modified
  | unreadable
  deriving DecidableEq, Repr

/-- What `uninstall` finds wrong with a path. -/
def changed? (journal : Journal) (st : HostFiles) (path : ManagedPath) : Option Changed :=
  match root.lookup st path with
  | none => if journal.phase = .attached then some .missing else none
  | some target =>
    match root.fingerprint target with
    | none => some .unreadable
    | some actual =>
      if actual = journal.managed path then none
      else if journal.phase ≠ .attached ∧
          (journal.backup st path).bind root.fingerprint = some actual then none
      else some .modified

def restore (journal : Journal) (path : ManagedPath) : Attempt HostFiles PUnit :=
  if journal.backups path then do
    let st ← Attempt.get
    match st.backups path with
    | none => Attempt.fail
    | some .directory => Attempt.fail
    | some backup => root.put path backup.kept
  else return ⟨⟩

/-- The part of `uninstall` behind the check of the managed paths. -/
def rollback (call : HostCall) (journal : Journal) : Attempt HostFiles PUnit := do
  ManagedPath.journalOrder.forM root.removeTarget
  ManagedPath.journalOrder.forM (root.restore journal)
  Attempt.ensure call.refreshed
  Attempt.step fun st ↦ { st with journal := none }
  ManagedPath.journalOrder.forM fun path ↦
    Attempt.step fun st ↦ { st with backups := Function.update st.backups path none }

/-- The intent to roll back is written before a managed path is changed. -/
def writeDetaching (journal : Journal) : Attempt HostFiles PUnit :=
  if journal.phase = .detaching then return ⟨⟩
  else Attempt.step fun st ↦ { st with journal := some { journal with phase := .detaching } }

/-- `uninstall`. -/
def uninstall (call : HostCall) : Attempt HostFiles Journal := do
  Attempt.ensure (root.valid call.allowLive = true)
  let st ← Attempt.get
  match st.journal with
  | none => Attempt.fail
  | some journal =>
    Attempt.ensure (∀ path ∈ ManagedPath.journalOrder, root.changed? journal st path = none)
    writeDetaching journal
    root.rollback call { journal with phase := .detaching }
    return { journal with phase := .detaching }

end HostRoot

/-- What happens to the tree: attempts, each with the number of atomic operations after which it is
interrupted unless it ends before, and changes of managed paths by others. -/
inductive HostAction where
  | install (call : HostCall) (bundle : ShimBundle) (endpoints : List String) (steps : ℕ)
  | uninstall (call : HostCall) (steps : ℕ)
  | foreign (path : ManagedPath) (entry : Option Entry)

def hostwideMachine (root : HostRoot) : Machine HostFiles HostAction where
  step st
    | .install call bundle endpoints steps =>
      some ((root.install call bundle endpoints).after steps st)
    | .uninstall call steps => some ((root.uninstall call).after steps st)
    | .foreign path entry =>
      some { st with files := Function.update st.files path entry, foreign := true }

end Lupine
