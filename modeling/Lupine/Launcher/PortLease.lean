import Lupine.Foundation.Machine
import Lupine.Foundation.NameClaims
import Mathlib.Data.Fintype.Basic

/-!
# The lease on a port

The server of a host and port runs in a container whose name is made of the port, so that
`docker run` fails where somebody's server stands. The name is the lease. Any number of launchers
go through their commands at once, each in single steps on the host.

## What is remembered

A command that has started a server removes it at its end, or leaves it to the journal of a root,
from which `detach` removes it. Both know the name only. `gc` frees a name for others to take while
the launcher that took it is still there, and that launcher's removal then meets another's server.
`gc` itself looks at the labels in one step, at the connections in another, and removes what has
the name in a third.

## Who uses a server

A launcher uses the server it has started until it removes it, and with `--reuse-attached` one that
has been attached. The check that the GPU is idle says nothing of a launcher that has made the same
check and not begun.

## What an orderly run keeps

A claim is a container that a launcher will remove, or that it has handed to a journal. In an
orderly run a new server is started only where nobody has a claim on the name, so every claim is on
the container that stands there, if any does. Then a removal meets what it should, and since a reuse
begins only where no other launcher has started a server or reuses it, at most one uses it.
-/

open Foundation

namespace Lupine

/-! ## Containers and commands

A container has its labels and a number of its own, by which it is told apart from another one of
the same name. The phases follow the calls of the commands. -/

/-- The label `io.rgpu.lease-mode`. -/
inductive LeaseMode where
  | ephemeral
  | persistent
  deriving DecidableEq, Repr

/-- A container of the name, with the labels that are read. -/
structure ServerContainer where
  id : ℕ
  managed : Bool := true
  leaseMode : LeaseMode
  endpoint : List Char
  createdUnix : ℕ
  running : Bool := true
  deriving DecidableEq, Repr

/-- A command that starts a server: `run`, or `attach` into a root. -/
structure StartCommand (ρ : Type*) where
  endpoint : List Char
  attachRoot : Option ρ := none

/-- `lease_mode`. -/
def StartCommand.leaseMode {ρ : Type*} (command : StartCommand ρ) : LeaseMode :=
  if command.attachRoot.isSome then .persistent else .ephemeral

inductive PortCommand (ρ : Type*) where
  | start (command : StartCommand ρ)
  | runReusing (endpoint : List Char)
  | detach (root : ρ)
  | gc (minAge : ℕ)

inductive PortPhase (ρ : Type*) where
  | idle
  /-- `start_server`, with so many of its three checks passed. -/
  | starting (command : StartCommand ρ) (passed : ℕ)
  /-- Its container runs, and may answer on the port; it is not in `started`. -/
  | created (command : StartCommand ρ) (id : ℕ) (ready : Bool)
  /-- Its container is in `started`. -/
  | holding (command : StartCommand ρ) (id : ℕ)
  | attached (root : ρ) (id : ℕ)
  | failed (command : StartCommand ρ)
  | removing (id : ℕ)
  | detaching (root : ρ)
  | reuseStarting (endpoint : List Char)
  | reuseChecked (endpoint : List Char)
  | reuseInspected
  | reusing
  | collecting (minAge now : ℕ)
  | gcInspected (minAge : ℕ) (container : ServerContainer)
  | gcChecked (minAge : ℕ) (container : ServerContainer)

namespace PortPhase

variable {ρ : Type*}

/-- The container that is to be removed, or handed to the journal. -/
def claim : PortPhase ρ → Option ℕ
  | created _ id _ | holding _ id | attached _ id | removing id => some id
  | _ => none

/-- A server has been started, or is about to be reused. -/
def busy : PortPhase ρ → Bool
  | created .. | holding .. | attached .. | reuseChecked _ | reuseInspected | reusing => true
  | _ => false

def uses : PortPhase ρ → Bool
  | holding .. | attached .. | reusing => true
  | _ => false

/-- What a `gc` between its inspection and its removal goes by. -/
def inspected : PortPhase ρ → Option (ℕ × ServerContainer)
  | gcInspected minAge container | gcChecked minAge container => some (minAge, container)
  | _ => none

/-- A `gc` has seen that nobody is connected. -/
def sawNoClients : PortPhase ρ → Bool
  | gcChecked .. => true
  | _ => false

def startsReuse : PortPhase ρ → Bool
  | reuseStarting _ => true
  | _ => false

/-- The root that a failing `attach` rolls back. -/
def attachRoot : PortPhase ρ → Option ρ
  | starting command _ | created command .. | holding command _ | failed command =>
    command.attachRoot
  | attached root _ => some root
  | _ => none

/-- What an exception or a signal leads to: the cleanup goes by `started`. -/
def unwound : PortPhase ρ → PortPhase ρ
  | holding _ id | attached _ id => removing id
  | _ => idle

end PortPhase

def PortCommand.begun {ρ : Type*} (now : ℕ) : PortCommand ρ → PortPhase ρ
  | start command => .starting command 0
  | runReusing endpoint => .reuseStarting endpoint
  | detach root => .detaching root
  | gc minAge => if minAge < 60 then .idle else .collecting minAge now

/-! ## The port

The state is that of one host and port. Everything else that a step depends on, such as the answer
of a check of the GPU, is part of the step. -/

/-- A host and port, the journals of the roots, and the launchers. -/
structure PortState (ι ρ : Type*) where
  container : Option ServerContainer
  /-- Established connections. -/
  clients : ℕ
  nextId : ℕ
  clock : ℕ
  /-- The container of the lease that the journal of a root has. -/
  journal : ρ → Option ℕ
  phase : ι → PortPhase ρ

/-- The steps. What depends on more than the port is part of the step. -/
inductive PortStep (ι ρ : Type*) where
  | begin (l : ι) (command : PortCommand ρ)
  | computeProcesses (l : ι) (active : Bool)
  | inspectContainer (l : ι)
  | portListener (l : ι) (listening : Bool)
  | dockerRun (l : ι)
  | waitReady (l : ι) (ready : Bool)
  | inspectRunning (l : ι)
  | hostwideInstall (l : ι)
  | finishAttach (l : ι)
  | unwind (l : ι) (uninstalled : Bool)
  | hostwideUninstall (l : ι) (done : Bool)
  | dockerRm (l : ι) (effective : Bool)
  | inspectLabels (l : ι)
  | activeClients (l : ι)
  | reclaim (l : ι) (effective : Bool)
  | quit (l : ι)
  | connect
  | disconnect
  | serverStops
  | serverRestarts
  | tick (seconds : ℕ)

namespace PortState

variable {ι ρ : Type*} [DecidableEq ι] [DecidableEq ρ] (st : PortState ι ρ)

def goto (l : ι) (phase : PortPhase ρ) : PortState ι ρ :=
  { st with phase := Function.update st.phase l phase }

/-- `docker rm --force` of the name, with its connections. -/
def removeName (effective : Bool) : PortState ι ρ :=
  if effective then { st with container := none, clients := 0 } else st

def setJournal (root : ρ) (lease : Option ℕ) : PortState ι ρ :=
  { st with journal := Function.update st.journal root lease }

/-- The container that `docker run` creates. -/
def newContainer (command : StartCommand ρ) : ServerContainer where
  id := st.nextId
  leaseMode := command.leaseMode
  endpoint := command.endpoint
  createdUnix := st.clock

/-- `docker run`, which fails where the name is taken. -/
def dockerRun (l : ι) (command : StartCommand ρ) : PortState ι ρ :=
  match st.container with
  | some _ => st.goto l (.failed command)
  | none =>
    { st.goto l (.created command st.nextId false) with
      container := some (st.newContainer command)
      clients := 0
      nextId := st.nextId + 1 }

/-- The last check of `start_server`; then the lease is appended to `started`. -/
def inspectRunning (l : ι) (command : StartCommand ρ) (id : ℕ) : PortState ι ρ :=
  if st.container.any ServerContainer.running then st.goto l (.holding command id)
  else st.goto l (.failed command)

/-- The check of `reuse_persistent_server`. -/
def reusable (endpoint : List Char) (container : ServerContainer) : Bool :=
  container.managed && container.leaseMode = .persistent && container.endpoint = endpoint &&
    container.running

/-- The check of `command_gc`. -/
def expired (minAge now : ℕ) (container : ServerContainer) : Bool :=
  container.managed && container.leaseMode = .ephemeral && container.createdUnix ≠ 0 &&
    decide (minAge ≤ now - container.createdUnix)

/-- A command is left through an exception or a signal. A failing `attach` uninstalls what the
journal of its root says, if there is one. -/
def unwind (l : ι) (uninstalled : Bool) : PortState ι ρ :=
  match (st.phase l).attachRoot with
  | some root =>
    (if uninstalled then st.setJournal root none else st).goto l (st.phase l).unwound
  | none => st.goto l (st.phase l).unwound

/-- `command_detach`, up to the removal. -/
def hostwideUninstall (l : ι) (root : ρ) (done : Bool) : PortState ι ρ :=
  match st.journal root with
  | some id => if done then (st.setJournal root none).goto l (.removing id) else st.goto l .idle
  | none => st.goto l .idle

/-- The inspection of `command_gc`. -/
def gcInspect (l : ι) (minAge now : ℕ) : PortState ι ρ :=
  match st.container with
  | some container =>
    if expired minAge now container then st.goto l (.gcInspected minAge container)
    else st.goto l .idle
  | none => st.goto l .idle

def setRunning (running : Bool) : PortState ι ρ :=
  { st with container := st.container.map fun container ↦ { container with running } }

def step : PortStep ι ρ → Option (PortState ι ρ)
  | .begin l command =>
    match st.phase l with
    | .idle => some (st.goto l (command.begun st.clock))
    | _ => none
  | .computeProcesses l active =>
    match st.phase l with
    | .starting command 0 =>
      some (st.goto l (if active then .failed command else .starting command 1))
    | .reuseStarting endpoint => some (st.goto l (if active then .idle else .reuseChecked endpoint))
    | _ => none
  | .inspectContainer l =>
    match st.phase l with
    | .starting command 1 =>
      some (st.goto l (if st.container.isSome then .failed command else .starting command 2))
    | _ => none
  | .portListener l listening =>
    match st.phase l with
    | .starting command 2 =>
      some (st.goto l (if listening then .failed command else .starting command 3))
    | _ => none
  | .dockerRun l =>
    match st.phase l with
    | .starting command 3 => some (st.dockerRun l command)
    | _ => none
  | .waitReady l ready =>
    match st.phase l with
    | .created command id false =>
      some (st.goto l (if ready then .created command id true else .failed command))
    | .reuseInspected => some (st.goto l (if ready then .reusing else .idle))
    | _ => none
  | .inspectRunning l =>
    match st.phase l with
    | .created command id true => some (st.inspectRunning l command id)
    | _ => none
  | .hostwideInstall l =>
    match st.phase l with
    | .holding ⟨_, some root⟩ id =>
      if st.journal root = none then
        some ((st.setJournal root (some id)).goto l (.attached root id))
      else none
    | _ => none
  | .finishAttach l =>
    match st.phase l with
    | .attached _ _ => some (st.goto l .idle)
    | _ => none
  | .unwind l uninstalled => some (st.unwind l uninstalled)
  | .hostwideUninstall l done =>
    match st.phase l with
    | .detaching root => some (st.hostwideUninstall l root done)
    | _ => none
  | .dockerRm l effective =>
    match st.phase l with
    | .removing _ => some ((st.removeName effective).goto l .idle)
    | _ => none
  | .inspectLabels l =>
    match st.phase l with
    | .reuseChecked endpoint =>
      some (st.goto l (if st.container.any (reusable endpoint) then .reuseInspected else .idle))
    | .collecting minAge now => some (st.gcInspect l minAge now)
    | _ => none
  | .activeClients l =>
    match st.phase l with
    | .gcInspected minAge container =>
      some (st.goto l (if st.clients = 0 then .gcChecked minAge container else .idle))
    | _ => none
  | .reclaim l effective =>
    match st.phase l with
    | .gcChecked _ _ => some ((st.removeName effective).goto l .idle)
    | _ => none
  | .quit l => some (st.goto l .idle)
  | .connect =>
    if st.container.any ServerContainer.running then some { st with clients := st.clients + 1 }
    else none
  | .disconnect => some { st with clients := st.clients - 1 }
  | .serverStops => some { st.setRunning false with clients := 0 }
  | .serverRestarts =>
    if st.container.any fun container ↦ container.leaseMode = .persistent then
      some (st.setRunning true)
    else none
  | .tick seconds => some { st with clock := st.clock + seconds }

/-- A port with no launchers yet, and whatever an earlier one has left there. -/
def initial (container : Option ServerContainer) (clients clock : ℕ) : PortState ι ρ where
  container := container
  clients := clients
  nextId := container.elim 0 fun c ↦ c.id + 1
  clock := clock
  journal := fun _ ↦ none
  phase := fun _ ↦ .idle

end PortState

def portMachine (ι ρ : Type*) [DecidableEq ι] [DecidableEq ρ] :
    Machine (PortState ι ρ) (PortStep ι ρ) where
  step := PortState.step

/-! ## What is to hold

What a launcher is about to remove is known from its phase. The condition on a step is on the state
before it, and `gc` has the most of it, since it looks and removes in three steps. -/

/-- What a launcher that is about to remove a container may remove. -/
def PortPhase.Removes {ρ : Type*} (clock clients : ℕ) (container : ServerContainer) :
    PortPhase ρ → Prop
  | removing id => container.id = id
  | gcChecked minAge _ => PortState.expired minAge clock container = true ∧ clients = 0
  | _ => True

instance {ρ : Type*} (clock clients : ℕ) (container : ServerContainer) (phase : PortPhase ρ) :
    Decidable (phase.Removes clock clients container) := by
  unfold PortPhase.Removes
  cases phase <;> infer_instance

namespace PortState

variable {ι ρ : Type*} (st : PortState ι ρ)

/-- At most one launcher uses the server. -/
def OneUser : Prop := ∀ l l', (st.phase l).uses = true → (st.phase l').uses = true → l = l'

/-- What a removal would meet now: a command what it created or recorded, and `gc` a server that is
managed, ephemeral, older than the limit and without connections. -/
def RemovesRight (l : ι) : Prop :=
  ∀ container ∈ st.container, (st.phase l).Removes st.clock st.clients container

/-- Nobody but the launcher has started a server or reuses one. -/
def NobodyElse (l : ι) : Prop := ∀ l', l' ≠ l → (st.phase l').busy = false

/-- `docker run` succeeds only when the name is not claimed, by another command or by a journal, and
no `gc` is between its inspection and its removal; the checks of a reuse begin when no other
launcher has started a server or reuses it; and nobody connects between the last check of a `gc` and
its removal. -/
def Orderly : PortStep ι ρ → Prop
  | .dockerRun l =>
    st.container = none →
      st.NobodyElse l ∧ (∀ l', l' ≠ l → (st.phase l').claim = none) ∧
        (∀ root, st.journal root = none) ∧ ∀ l', (st.phase l').inspected = none
  | .computeProcesses l _ => (st.phase l).startsReuse = true → st.NobodyElse l
  | .connect => ∀ l, (st.phase l).sawNoClients = false
  | _ => True

section Decidable

variable [Fintype ι] [DecidableEq ι] [Fintype ρ]

instance : Decidable st.OneUser := inferInstanceAs (Decidable (∀ _, _))

instance (l : ι) : Decidable (st.RemovesRight l) := inferInstanceAs (Decidable (∀ _ ∈ _, _))

instance (l : ι) : Decidable (st.NobodyElse l) := inferInstanceAs (Decidable (∀ _, _))

instance Orderly.decidable : ∀ step, Decidable (st.Orderly step)
  | .dockerRun _ => inferInstanceAs (Decidable (_ → _))
  | .computeProcesses _ _ => inferInstanceAs (Decidable (_ → _))
  | .connect => inferInstanceAs (Decidable (∀ _, _))
  | .begin .. | .inspectContainer _ | .portListener .. | .waitReady .. | .inspectRunning _
  | .hostwideInstall _ | .finishAttach _ | .unwind .. | .hostwideUninstall .. | .dockerRm ..
  | .inspectLabels _ | .activeClients _ | .reclaim .. | .quit _ | .disconnect | .serverStops
  | .serverRestarts | .tick _ => isTrue trivial

end Decidable

/-! ## The invariant

What a `gc` has found out stays so while the container is no other one, nobody has connected, and
time has gone on. Launchers are changed one at a time: a claim of the one that goes on is one that
there was, and it begins to use a server only where nobody else does. -/

def claims : ι ⊕ ρ → Option ℕ := Sum.elim (fun l ↦ (st.phase l).claim) st.journal

/-- The same container, but for whether its process runs. -/
def Same (container found : ServerContainer) : Prop :=
  { container with running := found.running } = found

/-- What a phase of `gc` has found out still holds. -/
def PhaseOk : PortPhase ρ → Prop
  | .collecting _ now => now ≤ st.clock
  | .gcInspected minAge found =>
    expired minAge st.clock found = true ∧ ∀ c, st.container = some c → Same c found
  | .gcChecked minAge found =>
    expired minAge st.clock found = true ∧ (∀ c, st.container = some c → Same c found) ∧
      st.clients = 0
  | _ => True

/-- At most one launcher has started a server or reuses one. -/
def OneBusy : Prop := ∀ l l', (st.phase l).busy = true → (st.phase l').busy = true → l = l'

structure Sound : Prop where
  agree : ClaimsAgree (st.container.map ServerContainer.id) st.claims
  one : st.OneBusy
  phases : ∀ l, st.PhaseOk (st.phase l)

variable {st} {l : ι}

theorem expired_of_same {minAge now : ℕ} {container found : ServerContainer}
    (h : Same container found) : expired minAge now container = expired minAge now found := by
  rw [← h]
  rfl

theorem Same.trans {c c₀ found : ServerContainer} (h : Same c c₀) (hfound : Same c₀ found) :
    Same c found := by
  rw [Same, ← h] at hfound
  exact hfound

theorem Same.id_eq {c found : ServerContainer} (h : Same c found) : c.id = found.id := by
  rw [← h]

theorem expired_mono {minAge now later : ℕ} {container : ServerContainer} (hle : now ≤ later)
    (h : expired minAge now container = true) : expired minAge later container = true := by
  rw [expired, Bool.and_eq_true, decide_eq_true_eq] at h ⊢
  exact ⟨h.1, h.2.trans (Nat.sub_le_sub_right hle _)⟩

/-- What is found out stays so when the container is no other one, nobody has connected, and time
has gone on. -/
theorem PhaseOk.mono {st' : PortState ι ρ} {phase : PortPhase ρ} (h : st.PhaseOk phase)
    (hcontainer : ∀ c, st'.container = some c → ∃ c₀, st.container = some c₀ ∧ Same c c₀)
    (hclients : phase.sawNoClients = true → st.clients = 0 → st'.clients = 0)
    (hclock : st.clock ≤ st'.clock) : st'.PhaseOk phase := by
  have hsame : ∀ {found}, (∀ c, st.container = some c → Same c found) →
      ∀ c, st'.container = some c → Same c found := by
    intro found hfound c hc
    obtain ⟨c₀, hc₀, hkeep⟩ := hcontainer c hc
    exact hkeep.trans (hfound c₀ hc₀)
  cases phase with
  | collecting minAge now => exact le_trans h hclock
  | gcInspected minAge found => exact ⟨expired_mono hclock h.1, hsame h.2⟩
  | gcChecked minAge found => exact ⟨expired_mono hclock h.1, hsame h.2.1, hclients rfl h.2.2⟩
  | _ => trivial

theorem PhaseOk.of_not_inspected {st' : PortState ι ρ} {phase : PortPhase ρ} (h : st.PhaseOk phase)
    (hinspected : phase.inspected = none) (hclock : st.clock ≤ st'.clock) : st'.PhaseOk phase := by
  cases phase with
  | collecting minAge now => exact le_trans h hclock
  | gcInspected minAge found => exact nomatch hinspected
  | gcChecked minAge found => exact nomatch hinspected
  | _ => trivial

theorem OneBusy.goto [DecidableEq ι] (h : st.OneBusy) {phase : PortPhase ρ}
    (hbusy : phase.busy = true → (st.phase l).busy = true ∨ st.NobodyElse l) :
    (st.goto l phase).OneBusy := by
  have hother : ∀ other, other ≠ l → (st.phase other).busy = true → phase.busy = true →
      other = l := by
    intro other hne hothers hself
    rcases hbusy hself with hbefore | hnobody
    · exact h other l hothers hbefore
    · rw [hnobody other hne] at hothers
      exact nomatch hothers
  intro a b ha hb
  rcases eq_or_ne a l with rfl | hal
  · rcases eq_or_ne b a with rfl | hbl
    · rfl
    · simp only [PortState.goto, Function.update_self, Function.update_of_ne hbl] at ha hb
      exact (hother b hbl hb ha).symm
  · rcases eq_or_ne b l with rfl | hbl
    · simp only [PortState.goto, Function.update_self, Function.update_of_ne hal] at ha hb
      exact hother a hal ha hb
    · simp only [PortState.goto, Function.update_of_ne hal, Function.update_of_ne hbl] at ha hb
      exact h a b ha hb

namespace Sound

theorem oneUser (h : st.Sound) : st.OneUser := by
  have hbusy : ∀ phase : PortPhase ρ, phase.uses = true → phase.busy = true := by
    intro phase huses
    cases phase <;> first | rfl | exact nomatch huses
  exact fun l l' hl hl' ↦ h.one l l' (hbusy _ hl) (hbusy _ hl')

theorem removesRight (h : st.Sound) (l : ι) : st.RemovesRight l := by
  intro container hcontainer
  unfold PortPhase.Removes
  split
  · next id hphase =>
    exact h.agree (Sum.inl l) id (by rw [claims, Sum.elim_inl, hphase]; rfl) container.id
      (by rw [hcontainer]; rfl)
  · next minAge found hphase =>
    have hok := h.phases l
    rw [hphase] at hok
    obtain ⟨hexpired, hsame, hclients⟩ := hok
    exact ⟨(expired_of_same (hsame container hcontainer)).trans hexpired, hclients⟩
  · trivial

theorem port (h : st.Sound) {st' : PortState ι ρ} (hphase : st'.phase = st.phase)
    (hjournal : st'.journal = st.journal)
    (hcontainer : ∀ c, st'.container = some c → ∃ c₀, st.container = some c₀ ∧ Same c c₀)
    (hclients : ∀ l, (st.phase l).sawNoClients = true → st.clients = 0 → st'.clients = 0)
    (hclock : st.clock ≤ st'.clock) : st'.Sound where
  agree := by
    intro k x hk y hy
    obtain ⟨c, hc, rfl⟩ := Option.map_eq_some_iff.mp hy
    obtain ⟨c₀, hc₀, hsame⟩ := hcontainer c hc
    rw [claims, hphase, hjournal] at hk
    rw [hsame.id_eq]
    exact h.agree k x hk c₀.id (by rw [hc₀]; rfl)
  one := by
    rw [OneBusy, hphase]
    exact h.one
  phases := by
    rw [hphase]
    exact fun l ↦ (h.phases l).mono hcontainer (hclients l) hclock

theorem removeName (h : st.Sound) (effective : Bool) : (st.removeName effective).Sound := by
  rw [PortState.removeName]
  split_ifs
  · exact h.port rfl rfl nofun (fun _ _ _ ↦ rfl) le_rfl
  · exact h

theorem setRunning (h : st.Sound) (running : Bool) : (st.setRunning running).Sound := by
  refine h.port rfl rfl (fun c hc ↦ ?_) (fun _ _ ↦ id) le_rfl
  obtain ⟨c₀, hc₀, rfl⟩ := Option.map_eq_some_iff.mp hc
  exact ⟨c₀, hc₀, rfl⟩

theorem setJournal_none [DecidableEq ρ] (h : st.Sound) (root : ρ) :
    (st.setJournal root none).Sound where
  agree := by
    refine h.agree.mono fun k x hk ↦ ⟨k, ?_⟩
    rcases k with other | other
    · exact hk
    · obtain ⟨-, hnone⟩ | ⟨-, hold⟩ := eq_or_of_update hk
      · exact nomatch hnone
      · exact hold
  one := h.one
  phases := h.phases

variable [DecidableEq ι]

/-- A launcher goes on. A claim of its is one that there was, and it begins to use a server only
where nobody else does. -/
theorem gotoClaiming (h : st.Sound) {phase : PortPhase ρ}
    (hclaim : ∀ x, phase.claim = some x → ∃ k, st.claims k = some x)
    (hbusy : phase.busy = true → (st.phase l).busy = true ∨ st.NobodyElse l)
    (hok : st.PhaseOk phase) : (st.goto l phase).Sound where
  agree := by
    refine h.agree.mono fun k x hk ↦ ?_
    cases k with
    | inr root => exact ⟨Sum.inr root, hk⟩
    | inl other =>
      rcases eq_or_ne other l with rfl | hne
      · simp only [claims, Sum.elim_inl, PortState.goto, Function.update_self] at hk
        exact hclaim x hk
      · simp only [claims, Sum.elim_inl, PortState.goto, Function.update_of_ne hne] at hk
        exact ⟨Sum.inl other, hk⟩
  one := h.one.goto hbusy
  phases := by
    intro other
    rcases eq_or_ne other l with rfl | hne
    · simp only [PortState.goto, Function.update_self]
      exact hok
    · simp only [PortState.goto, Function.update_of_ne hne]
      exact h.phases other

theorem goto (h : st.Sound) {phase : PortPhase ρ}
    (hclaim : phase.claim = none ∨ phase.claim = (st.phase l).claim)
    (hbusy : phase.busy = true → (st.phase l).busy = true ∨ st.NobodyElse l)
    (hok : st.PhaseOk phase) : (st.goto l phase).Sound := by
  refine h.gotoClaiming (fun x hx ↦ ?_) hbusy hok
  rcases hclaim with hnone | hsame
  · rw [hnone] at hx
    exact nomatch hx
  · exact ⟨Sum.inl l, hsame.symm.trans hx⟩

theorem toIdle (h : st.Sound) : (st.goto l .idle).Sound := h.goto (Or.inl rfl) nofun trivial

theorem toFailed (h : st.Sound) (command : StartCommand ρ) : (st.goto l (.failed command)).Sound :=
  h.goto (Or.inl rfl) nofun trivial

/-- **A new server.** Nobody else has a claim on the name, and no `gc` has looked at it. -/
theorem dockerRun (h : st.Sound) (horder : st.Orderly (.dockerRun l)) (command : StartCommand ρ) :
    (st.dockerRun l command).Sound := by
  rw [PortState.dockerRun]
  split
  · exact h.toFailed command
  · next hfree =>
    obtain ⟨hnobody, hclaims, hjournals, hinspected⟩ := horder hfree
    refine ⟨ClaimsAgree.take (k := Sum.inl l) ?_ ?_, ?_, ?_⟩
    · simp [claims, PortState.goto, PortPhase.claim, newContainer]
    · rintro (other | root) hne
      · have hother : other ≠ l := fun heq ↦ hne (congrArg Sum.inl heq)
        simp only [claims, Sum.elim_inl, PortState.goto, Function.update_of_ne hother]
        exact hclaims other hother
      · exact hjournals root
    · have hone : (st.goto l (.created command st.nextId false)).OneBusy :=
        h.one.goto fun _ ↦ Or.inr hnobody
      exact hone
    · intro other
      rcases eq_or_ne other l with rfl | hne
      · simp only [PortState.goto, Function.update_self]
        trivial
      · simp only [PortState.goto, Function.update_of_ne hne]
        exact (h.phases other).of_not_inspected (hinspected other) le_rfl

theorem gotoUnwound (h : st.Sound) : (st.goto l (st.phase l).unwound).Sound := by
  cases hphase : st.phase l with
  | holding command id | attached root id =>
    exact h.goto (Or.inr (by rw [hphase]; rfl)) nofun trivial
  | _ => exact h.toIdle

theorem gcInspect (h : st.Sound) {minAge now : ℕ} (hphase : st.phase l = .collecting minAge now) :
    (st.gcInspect l minAge now).Sound := by
  rw [PortState.gcInspect]
  split
  · next container hcontainer =>
    split_ifs with hexpired
    · have hnow : now ≤ st.clock := by
        have hok := h.phases l
        rwa [hphase] at hok
      refine h.goto (Or.inl rfl) nofun ⟨expired_mono hnow hexpired, fun c hc ↦ ?_⟩
      rw [Option.some.inj (hcontainer.symm.trans hc), Same]
    · exact h.toIdle
  · exact h.toIdle

variable [DecidableEq ρ]

theorem hostwideInstall (h : st.Sound) {root : ρ} {id : ℕ} (hclaim : (st.phase l).claim = some id)
    (hbusy : (st.phase l).busy = true) :
    ((st.setJournal root (some id)).goto l (.attached root id)).Sound := by
  have hjournal : (st.setJournal root (some id)).Sound := by
    refine ⟨h.agree.mono fun k x hk ↦ ?_, h.one, h.phases⟩
    rcases k with other | other
    · exact ⟨Sum.inl other, hk⟩
    · obtain ⟨-, hsome⟩ | ⟨-, hold⟩ := eq_or_of_update hk
      · exact ⟨Sum.inl l, hclaim.trans hsome⟩
      · exact ⟨Sum.inr other, hold⟩
  exact hjournal.goto (Or.inr hclaim.symm) (fun _ ↦ Or.inl hbusy) trivial

theorem hostwideUninstall (h : st.Sound) (root : ρ) (done : Bool) :
    (st.hostwideUninstall l root done).Sound := by
  rw [PortState.hostwideUninstall]
  split
  · next id hjournal =>
    split_ifs
    · have hgoto : (st.goto l (.removing id)).Sound :=
        h.gotoClaiming (fun x hx ↦ ⟨Sum.inr root, hjournal.trans hx⟩) nofun trivial
      exact hgoto.setJournal_none root
    · exact h.toIdle
  · exact h.toIdle

theorem unwind (h : st.Sound) (uninstalled : Bool) : (st.unwind l uninstalled).Sound := by
  rw [PortState.unwind]
  split
  · next root _ =>
    split_ifs
    · exact (h.setJournal_none root).gotoUnwound
    · exact h.gotoUnwound
  · exact h.gotoUnwound

/-! ### Steps

The commands share most of their steps, so there is one lemma for each call. -/

variable {st' : PortState ι ρ}

-- makes the equations of the steps once, before the proofs that use them
attribute [local simp] PortState.step

theorem begin (h : st.Sound) {command : PortCommand ρ}
    (hstep : st.step (.begin l command) = some st') : st'.Sound := by
  simp only [PortState.step] at hstep
  split at hstep
  · obtain rfl := Option.some.inj hstep
    cases command with
    | gc minAge =>
      rw [PortCommand.begun]
      split_ifs
      · exact h.toIdle
      · exact h.goto (Or.inl rfl) nofun le_rfl
    | _ => exact h.goto (Or.inl rfl) nofun trivial
  · exact nomatch hstep

theorem computeProcesses (h : st.Sound) {active : Bool}
    (horder : st.Orderly (.computeProcesses l active))
    (hstep : st.step (.computeProcesses l active) = some st') : st'.Sound := by
  simp only [PortState.step] at hstep
  split at hstep
  · obtain rfl := Option.some.inj hstep
    split_ifs
    · exact h.toFailed _
    · exact h.goto (Or.inl rfl) nofun trivial
  · next hphase =>
    obtain rfl := Option.some.inj hstep
    split_ifs
    · exact h.toIdle
    · have hnobody : st.NobodyElse l := horder (by rw [hphase]; rfl)
      exact h.goto (Or.inl rfl) (fun _ ↦ Or.inr hnobody) trivial
  · exact nomatch hstep

theorem waitReady (h : st.Sound) {ready : Bool}
    (hstep : st.step (.waitReady l ready) = some st') : st'.Sound := by
  simp only [PortState.step] at hstep
  split at hstep
  · next hphase =>
    obtain rfl := Option.some.inj hstep
    split_ifs
    · exact h.goto (Or.inr (by rw [hphase]; rfl)) (fun _ ↦ Or.inl (by rw [hphase]; rfl)) trivial
    · exact h.toFailed _
  · next hphase =>
    obtain rfl := Option.some.inj hstep
    split_ifs
    · exact h.goto (Or.inl rfl) (fun _ ↦ Or.inl (by rw [hphase]; rfl)) trivial
    · exact h.toIdle
  · exact nomatch hstep

theorem inspectRunning (h : st.Sound) (hstep : st.step (.inspectRunning l) = some st') :
    st'.Sound := by
  simp only [PortState.step] at hstep
  split at hstep
  · next hphase =>
    obtain rfl := Option.some.inj hstep
    rw [PortState.inspectRunning]
    split_ifs
    · exact h.goto (Or.inr (by rw [hphase]; rfl)) (fun _ ↦ Or.inl (by rw [hphase]; rfl)) trivial
    · exact h.toFailed _
  · exact nomatch hstep

theorem inspectLabels (h : st.Sound) (hstep : st.step (.inspectLabels l) = some st') :
    st'.Sound := by
  simp only [PortState.step] at hstep
  split at hstep
  · next hphase =>
    obtain rfl := Option.some.inj hstep
    split_ifs
    · exact h.goto (Or.inl rfl) (fun _ ↦ Or.inl (by rw [hphase]; rfl)) trivial
    · exact h.toIdle
  · next hphase =>
    obtain rfl := Option.some.inj hstep
    exact h.gcInspect hphase
  · exact nomatch hstep

theorem activeClients (h : st.Sound) (hstep : st.step (.activeClients l) = some st') :
    st'.Sound := by
  simp only [PortState.step] at hstep
  split at hstep
  · next hphase =>
    obtain rfl := Option.some.inj hstep
    split_ifs with hclients
    · have hok := h.phases l
      rw [hphase] at hok
      exact h.goto (Or.inl rfl) nofun ⟨hok.1, hok.2, hclients⟩
    · exact h.toIdle
  · exact nomatch hstep

/-- Connections come where no `gc` has seen that there are none. -/
theorem connect (h : st.Sound) (horder : st.Orderly .connect)
    (hstep : st.step .connect = some st') : st'.Sound := by
  simp only [PortState.step] at hstep
  split_ifs at hstep
  obtain rfl := Option.some.inj hstep
  refine h.port rfl rfl (fun c hc ↦ ⟨c, hc, rfl⟩) (fun l hsaw ↦ ?_) le_rfl
  rw [horder l] at hsaw
  exact nomatch hsaw

theorem step (h : st.Sound) {step : PortStep ι ρ} (horder : st.Orderly step)
    (hstep : st.step step = some st') : st'.Sound := by
  cases step with
  | begin l command => exact h.begin hstep
  | computeProcesses l active => exact h.computeProcesses horder hstep
  | waitReady l ready => exact h.waitReady hstep
  | inspectRunning l => exact h.inspectRunning hstep
  | inspectLabels l => exact h.inspectLabels hstep
  | activeClients l => exact h.activeClients hstep
  | connect => exact h.connect horder hstep
  -- a listener or a container that is there already ends the command
  | inspectContainer l | portListener l listening =>
    simp only [PortState.step] at hstep
    split at hstep
    · obtain rfl := Option.some.inj hstep
      split_ifs
      · exact h.toFailed _
      · exact h.goto (Or.inl rfl) nofun trivial
    · exact nomatch hstep
  | dockerRun l =>
    simp only [PortState.step] at hstep
    split at hstep
    · obtain rfl := Option.some.inj hstep
      exact h.dockerRun horder _
    · exact nomatch hstep
  | hostwideInstall l =>
    simp only [PortState.step] at hstep
    split at hstep
    · next hphase =>
      split_ifs at hstep
      obtain rfl := Option.some.inj hstep
      exact h.hostwideInstall (by rw [hphase]; rfl) (by rw [hphase]; rfl)
    · exact nomatch hstep
  | finishAttach l =>
    simp only [PortState.step] at hstep
    split at hstep
    · obtain rfl := Option.some.inj hstep
      exact h.toIdle
    · exact nomatch hstep
  | hostwideUninstall l done =>
    simp only [PortState.step] at hstep
    split at hstep
    · obtain rfl := Option.some.inj hstep
      exact h.hostwideUninstall _ done
    · exact nomatch hstep
  | dockerRm l effective | reclaim l effective =>
    simp only [PortState.step] at hstep
    split at hstep
    · obtain rfl := Option.some.inj hstep
      exact (h.removeName effective).toIdle
    · exact nomatch hstep
  | unwind l uninstalled =>
    obtain rfl := Option.some.inj hstep
    exact h.unwind uninstalled
  | quit l =>
    obtain rfl := Option.some.inj hstep
    exact h.toIdle
  | disconnect =>
    obtain rfl := Option.some.inj hstep
    refine h.port rfl rfl (fun c hc ↦ ⟨c, hc, rfl⟩) (fun _ _ hnone ↦ ?_) le_rfl
    rw [hnone]
  | serverStops =>
    obtain rfl := Option.some.inj hstep
    exact (h.setRunning false).port rfl rfl (fun c hc ↦ ⟨c, hc, rfl⟩) (fun _ _ _ ↦ rfl) le_rfl
  | serverRestarts =>
    simp only [PortState.step] at hstep
    split_ifs at hstep
    obtain rfl := Option.some.inj hstep
    exact h.setRunning true
  | tick seconds =>
    obtain rfl := Option.some.inj hstep
    exact h.port rfl rfl (fun c hc ↦ ⟨c, hc, rfl⟩) (fun _ _ ↦ id) (Nat.le_add_right _ _)

end Sound

theorem sound_initial (container : Option ServerContainer) (clients clock : ℕ) :
    (initial container clients clock : PortState ι ρ).Sound where
  agree := by
    refine ClaimsAgree.unclaimed fun k ↦ ?_
    rcases k with l | root <;> rfl
  one := fun _ _ hbusy ↦ nomatch hbusy
  phases := fun _ ↦ trivial

end PortState

/-- **The lease on a port.** -/
theorem portLease_kept {ι ρ : Type*} [Fintype ι] [DecidableEq ι] [Fintype ρ] [DecidableEq ρ]
    (container : Option ServerContainer) (clients clock : ℕ) {steps : List (PortStep ι ρ)}
    {st : PortState ι ρ}
    (hrun : ((portMachine ι ρ).restrict PortState.Orderly).run
      (.initial container clients clock) steps = some st) :
    st.OneUser ∧ ∀ l, st.RemovesRight l := by
  have hsound : st.Sound := by
    refine Machine.run_invariant _ (fun st step st' h hstep ↦ ?_)
      (PortState.sound_initial container clients clock) hrun
    obtain ⟨horder, hstep⟩ := Machine.step_restrict.mp hstep
    exact h.step horder hstep
  exact ⟨hsound.oneUser, hsound.removesRight⟩

/-- `run` up to where the server is in `started`. -/
def startedBy {ι ρ : Type*} (l : ι) : List (PortStep ι ρ) :=
  [.begin l (.start { endpoint := [] }), .computeProcesses l false, .inspectContainer l,
    .portListener l false, .dockerRun l, .waitReady l true, .inspectRunning l]

/-- `gc` up to its removal. -/
def aboutToReclaim {ι ρ : Type*} (l : ι) : List (PortStep ι ρ) :=
  [.begin l (.gc 600), .inspectLabels l, .activeClients l]

/-- A server that was left on the port is reclaimed, and a launcher starts one of its own, uses it
and is about to remove it. -/
theorem portLease_kept_leftServer :
    ∃ st : PortState (Fin 2) (Fin 1),
      ((portMachine (Fin 2) (Fin 1)).restrict PortState.Orderly).run
        (.initial (some { id := 0, leaseMode := .ephemeral, endpoint := [], createdUnix := 300 }) 0
          1000)
        (aboutToReclaim 1 ++ .reclaim 1 true :: startedBy 0 ++ [.connect, .unwind 0 false]) =
          some st ∧
      st.OneUser ∧ ∀ l, st.RemovesRight l := by
  refine (Option.isSome_iff_exists.mp ?_).imp fun st hrun ↦ ⟨hrun, portLease_kept _ _ _ hrun⟩
  decide

/-- **The lease is not kept.** A server is reclaimed while its launcher is there, and another
launcher starts one; both use it, and the first one is about to remove it. And between the last
check of a `gc` and its removal a launcher has removed its server, and another has started one,
which has a connection. -/
theorem portLease_not_kept :
    (∃ st : PortState (Fin 3) (Fin 1), (portMachine (Fin 3) (Fin 1)).run (.initial none 0 1000)
      (startedBy 0 ++ .tick 600 :: aboutToReclaim 1 ++ .reclaim 1 true :: startedBy 2) = some st ∧
      ¬st.OneUser) ∧
    (∃ st : PortState (Fin 3) (Fin 1), (portMachine (Fin 3) (Fin 1)).run (.initial none 0 1000)
      (startedBy 0 ++ .tick 600 :: aboutToReclaim 1 ++ .reclaim 1 true :: startedBy 2 ++
        [.connect, .unwind 0 false]) = some st ∧ ¬st.RemovesRight 0) ∧
    ∃ st : PortState (Fin 3) (Fin 1), (portMachine (Fin 3) (Fin 1)).run (.initial none 0 1000)
      (startedBy 0 ++ .tick 600 :: aboutToReclaim 1 ++ .unwind 0 false :: .dockerRm 0 true ::
        startedBy 2 ++ [.connect]) = some st ∧ ¬st.RemovesRight 1 := by
  refine ⟨⟨_, rfl, ?_⟩, ⟨_, rfl, ?_⟩, ⟨_, rfl, ?_⟩⟩ <;> decide

end Lupine
