import Lupine.Checkpoint.ConnectionChild

/-!
# The end of the server

The server has a process for each connection and one of its own, which accepts connections, forks,
and collects the children that have ended. SIGTERM makes it leave its loop: it sends SIGTERM to
every child that is left, waits for all of them, and reports whether each of them has ended well.

Signals of the server set two flags, which its loop looks at. SIGTERM is blocked around a fork, and
SIGCHLD while children are collected, up to the reset of its flag: a child that ends after the last
`waitpid` is noticed afterwards.

The children are processes of `connectionChild`, each with the actions it has taken.

## Three invariants

* `Owned`: the set of the server and its children agree, except for a child that has just been
  forked, so that nobody else is sent SIGTERM.
* `Noticed`: a child that has ended while the server polls or accepts has set the flag, or its
  SIGCHLD will.
* `Settled`: behind the loop of `kill` every child that is left has been told to stop, and the
  result that is kept is that of the children collected so far.

Each of them is about certain places of the main thread only. A step of a child changes the children
and not the place, and a step of the main thread mostly changes the place and not the children, so
the cases of each invariant are few.
-/

open Foundation

namespace Lupine

/-- The process of a connection: an entry of the kernel's table, up to the `waitpid` for it. -/
structure ChildProcess (capacity : ℕ) where
  session : Option String
  actions : List ChildAction
  child : ConnectionChild
  ran : (connectionChild capacity).run { session } actions = some child

namespace ChildProcess

variable {capacity : ℕ} (p : ChildProcess capacity)

def fork (session : Option String) : ChildProcess capacity := ⟨session, [], { session }, rfl⟩

def act (a : ChildAction) : Option (ChildProcess capacity) :=
  match h : p.child.step capacity a with
  | some child =>
    some ⟨p.session, p.actions ++ [a], child, (Machine.run_concat _).mpr ⟨p.child, p.ran, h⟩⟩
  | none => none

/-- The process has ended, and waits to be collected. -/
def Ended : Prop := ¬p.child.phase.Alive

instance : Decidable p.Ended := inferInstanceAs (Decidable ¬_)

end ChildProcess

inductive ReapSite where
  | loop
  /-- `accept` has failed. -/
  | accept
  /-- Behind the loop. -/
  | shutdown
  deriving DecidableEq, Repr

inductive ServerPhase where
  /-- At the test of `lupine_parent_child_exited`. -/
  | testing (site : ReapSite)
  /-- In the loop of `lupine_reap_connection_children`. -/
  | reaping (site : ReapSite)
  /-- Behind the loop of `lupine_reap_connection_children`. -/
  | clearing (site : ReapSite)
  /-- At the test of `lupine_parent_termination_requested`. -/
  | deciding (site : ReapSite)
  | polling
  | accepting
  | accepted
  /-- SIGTERM is blocked. -/
  | forking
  /-- The child is not in `connection_children` yet. -/
  | forked (pid : ℕ)
  /-- Behind the last collection without waiting. -/
  | closing
  /-- In the loop of `kill`, with the children that are left. -/
  | killing (rest : List ℕ)
  /-- In the loop of `waitpid`, with `shutdown_result`. -/
  | waiting (success : Bool)
  | returned (success : Bool)
  deriving DecidableEq, Repr

namespace ServerPhase

def BlocksSigterm : ServerPhase → Prop
  | forking | forked _ => True
  | _ => False

def BlocksSigchld : ServerPhase → Prop
  | reaping _ | clearing _ => True
  | _ => False

instance : DecidablePred BlocksSigterm := fun p ↦ by
  cases p <;> unfold BlocksSigterm <;> infer_instance

instance : DecidablePred BlocksSigchld := fun p ↦ by
  cases p <;> unfold BlocksSigchld <;> infer_instance

end ServerPhase

structure ServerProcess (capacity : ℕ) where
  phase : ServerPhase := .testing .loop
  terminationRequested : Bool := false
  childExited : Bool := false
  sigtermPending : Bool := false
  sigchldPending : Bool := false
  /-- The children that have not been collected, by their process ids. -/
  children : List (ℕ × ChildProcess capacity) := []
  connectionChildren : List ℕ := []
  /-- A process that is no child of the server was sent SIGTERM. -/
  strayKill : Bool := false
  /-- The children that were collected in the loop of `waitpid`. -/
  collected : List (ChildProcess capacity) := []

inductive ServerAction where
  /-- SIGTERM is sent to the server. -/
  | terminate
  /-- `lupine_parent_sigterm_handler`. -/
  | sigterm
  /-- `lupine_parent_sigchld_handler`. -/
  | sigchld
  /-- A child takes a step, or is sent a signal by somebody else. -/
  | child (pid : ℕ) (a : ChildAction)
  | test
  /-- `waitpid` gives this child. -/
  | reap (pid : ℕ)
  /-- `waitpid` gives none. -/
  | reaped
  | clear
  | decide
  | poll (ready : Bool)
  | accept (ok : Bool)
  | testAccepted
  | fork (pid : ℕ) (session : Option String)
  | forkFails
  | insert
  /-- The loop of `kill` begins, over the set in some order. -/
  | close (order : List ℕ)
  | kill
  | wait (pid : ℕ)
  /-- `waitpid` fails with `ECHILD`. -/
  | noChildren
  /-- There is none left in `connection_children`. -/
  | done

namespace ServerProcess

variable {capacity : ℕ} (s : ServerProcess capacity)

def acted (pid : ℕ) (a : ChildAction) : List (ℕ × ChildProcess capacity) :=
  s.children.map fun e ↦ if e.1 = pid then (e.1, (e.2.act a).getD e.2) else e

def endedAt (pid : ℕ) (children : List (ℕ × ChildProcess capacity)) : Bool :=
  children.any fun e ↦ e.1 = pid ∧ e.2.Ended

/-- `connection_children.erase`, for a child that `waitpid` has given. -/
def collect (pid : ℕ) : ServerProcess capacity :=
  { s with
    children := s.children.filter fun e ↦ e.1 ≠ pid
    connectionChildren := s.connectionChildren.filter fun child ↦ child ≠ pid }

/-- The status of a child that has ended: `WIFEXITED` and `EXIT_SUCCESS`. -/
def succeeded (pid : ℕ) : Bool :=
  s.children.all fun e ↦ e.1 ≠ pid ∨ e.2.child.phase = .exited true

/-- `main`, from the first test of its loop to the end. -/
def step : ServerAction → Option (ServerProcess capacity)
  | .terminate => some { s with sigtermPending := true }
  | .sigterm =>
    if s.sigtermPending = true ∧ ¬s.phase.BlocksSigterm then
      some { s with sigtermPending := false, terminationRequested := true }
    else none
  | .sigchld =>
    if s.sigchldPending = true ∧ ¬s.phase.BlocksSigchld then
      some { s with sigchldPending := false, childExited := true }
    else none
  | .child pid a =>
    if (s.children.lookup pid).any fun p ↦ (p.act a).isSome then
      some { s with
        children := s.acted pid a
        sigchldPending := s.sigchldPending || endedAt pid (s.acted pid a) }
    else none
  | .test =>
    match s.phase with
    | .testing site =>
      some { s with phase := if s.childExited then .reaping site else .deciding site }
    | _ => none
  | .reap pid =>
    match s.phase with
    | .reaping _ => if endedAt pid s.children then some (s.collect pid) else none
    | _ => none
  | .reaped =>
    match s.phase with
    | .reaping site =>
      if s.children.all fun e ↦ ¬e.2.Ended then some { s with phase := .clearing site } else none
    | _ => none
  | .clear =>
    match s.phase with
    | .clearing .shutdown => some { s with phase := .closing, childExited := false }
    | .clearing site => some { s with phase := .deciding site, childExited := false }
    | _ => none
  | .decide =>
    match s.phase with
    | .deciding site =>
      some { s with
        phase :=
          if s.terminationRequested then .reaping .shutdown
          else if site = .loop then .polling else .testing .loop }
    | _ => none
  | .poll ready =>
    if s.phase = .polling then
      some { s with phase := if ready then .accepting else .testing .loop }
    else none
  | .accept ok =>
    if s.phase = .accepting then
      some { s with phase := if ok then .accepted else .testing .accept }
    else none
  | .testAccepted =>
    if s.phase = .accepted then
      some { s with phase := if s.terminationRequested then .reaping .shutdown else .forking }
    else none
  | .fork pid session =>
    if s.phase = .forking ∧ pid ∉ s.children.map Prod.fst then
      some { s with phase := .forked pid, children := s.children ++ [(pid, .fork session)] }
    else none
  | .forkFails => if s.phase = .forking then some { s with phase := .testing .loop } else none
  | .insert =>
    match s.phase with
    | .forked pid =>
      some { s with phase := .testing .loop, connectionChildren := s.connectionChildren ++ [pid] }
    | _ => none
  | .close order =>
    if s.phase = .closing ∧ order.Perm s.connectionChildren then
      some { s with phase := .killing order }
    else none
  | .kill =>
    match s.phase with
    | .killing (pid :: rest) =>
      -- `kill` reaches whoever has the process id
      some { s with
        phase := .killing rest
        children := s.acted pid .kill
        strayKill := s.strayKill || !(s.children.map Prod.fst).contains pid }
    | .killing [] => some { s with phase := .waiting true }
    | _ => none
  | .wait pid =>
    match s.phase with
    | .waiting success =>
      if s.connectionChildren ≠ [] ∧ endedAt pid s.children then
        some { s.collect pid with
          phase := .waiting (success && s.succeeded pid)
          collected :=
            s.collected ++ (s.children.filter fun e ↦ e.1 = pid).map Prod.snd }
      else none
    | _ => none
  | .noChildren =>
    match s.phase with
    | .waiting success =>
      if s.connectionChildren ≠ [] ∧ s.children = [] then
        some { s with phase := .returned success, connectionChildren := [] }
      else none
    | _ => none
  | .done =>
    match s.phase with
    | .waiting success =>
      if s.connectionChildren = [] then some { s with phase := .returned success } else none
    | _ => none

end ServerProcess

/-- The server, whose children have pipes that hold so many bytes. -/
def serverProcess (capacity : ℕ) : Machine (ServerProcess capacity) ServerAction where
  step := ServerProcess.step

namespace ChildProcess

variable {capacity : ℕ} {p p' : ChildProcess capacity} {a : ChildAction}

theorem act_eq_some (h : p.act a = some p') :
    p.child.step capacity a = some p'.child ∧ p'.actions = p.actions ++ [a] := by
  unfold act at h
  split at h
  next child hstep =>
    obtain rfl := Option.some.inj h
    exact ⟨hstep, rfl⟩
  next => exact absurd h.symm (Option.some_ne_none p')

/-- The process has ended, or was sent SIGTERM. -/
def Told (p : ChildProcess capacity) : Prop := p.Ended ∨ .kill ∈ p.actions

theorem act_of_ended (h : p.Ended) (a : ChildAction) : p.act a = none := by
  by_contra hnone
  obtain ⟨p', hact⟩ := Option.ne_none_iff_exists'.mp hnone
  exact h (ConnectionChild.alive_of_step (act_eq_some hact).1)

theorem Told.act (h : p.Told) (a : ChildAction) : ((p.act a).getD p).Told := by
  cases hact : p.act a with
  | none => exact h
  | some p' =>
    have hkill : .kill ∈ p.actions := h.resolve_left fun hended ↦
      absurd (hact.symm.trans (act_of_ended hended a)) (Option.some_ne_none p')
    refine Or.inr ?_
    rw [Option.getD_some, (act_eq_some hact).2]
    exact List.mem_append_left _ hkill

/-- SIGTERM reaches every process that is there. -/
theorem told_kill (p : ChildProcess capacity) : ((p.act .kill).getD p).Told := by
  cases hact : p.act .kill with
  | none =>
    refine Or.inl fun halive ↦ ?_
    have hstep : p.child.step capacity .kill = some { p.child with pending := true } :=
      if_pos halive
    unfold ChildProcess.act at hact
    split at hact
    next => exact absurd hact (Option.some_ne_none _)
    next hnone => exact absurd (hstep.symm.trans hnone) (Option.some_ne_none _)
  | some p' =>
    refine Or.inr ?_
    rw [Option.getD_some, (act_eq_some hact).2]
    exact List.mem_append_right _ (List.mem_singleton_self _)

end ChildProcess

namespace ServerProcess

variable {capacity : ℕ} {s s' : ServerProcess capacity} {a : ServerAction}

/-! ## Steps that depend on the place

Most steps of the main thread are taken at one place only. These lemmas say at which, and what is
different afterwards; the invariants need no more of `step`. -/

theorem step_test (hs : s.step .test = some s') :
    ∃ site, s.phase = .testing site ∧
      s' = { s with phase := if s.childExited then .reaping site else .deciding site } := by
  simp only [step] at hs
  split at hs
  next site hphase => exact ⟨site, hphase, (Option.some.inj hs).symm⟩
  next => exact absurd hs.symm (Option.some_ne_none s')

theorem step_reap {pid : ℕ} (hs : s.step (.reap pid) = some s') :
    ∃ site, s.phase = .reaping site ∧ s' = s.collect pid := by
  simp only [step] at hs
  split at hs
  next site hphase =>
    obtain ⟨-, heq⟩ := Option.ite_none_right_eq_some.mp hs
    exact ⟨site, hphase, (Option.some.inj heq).symm⟩
  next => exact absurd hs.symm (Option.some_ne_none s')

theorem step_reaped (hs : s.step .reaped = some s') :
    ∃ site, s.phase = .reaping site ∧ (∀ e ∈ s.children, ¬e.2.Ended) ∧
      s' = { s with phase := .clearing site } := by
  simp only [step] at hs
  split at hs
  next site hphase =>
    obtain ⟨hall, heq⟩ := Option.ite_none_right_eq_some.mp hs
    exact ⟨site, hphase, fun e he ↦ of_decide_eq_true (List.all_eq_true.mp hall e he),
      (Option.some.inj heq).symm⟩
  next => exact absurd hs.symm (Option.some_ne_none s')

theorem step_clear (hs : s.step .clear = some s') :
    ∃ site, s.phase = .clearing site ∧
      ∃ phase ∈ [.closing, .deciding site], s' = { s with phase, childExited := false } := by
  simp only [step] at hs
  split at hs
  next hphase => exact ⟨.shutdown, hphase, .closing, by simp, (Option.some.inj hs).symm⟩
  next site _ hphase => exact ⟨site, hphase, .deciding site, by simp, (Option.some.inj hs).symm⟩
  next => exact absurd hs.symm (Option.some_ne_none s')

theorem step_decide (hs : s.step .decide = some s') :
    ∃ site, s.phase = .deciding site ∧
      ∃ phase ∈ [.reaping .shutdown, .polling, .testing .loop], s' = { s with phase } := by
  simp only [step] at hs
  split at hs
  next site hphase =>
    refine ⟨site, hphase, _, ?_, (Option.some.inj hs).symm⟩
    split_ifs <;> simp
  next => exact absurd hs.symm (Option.some_ne_none s')

theorem step_insert (hs : s.step .insert = some s') :
    ∃ pid, s.phase = .forked pid ∧ s' = { s with
      phase := .testing .loop
      connectionChildren := s.connectionChildren ++ [pid] } := by
  simp only [step] at hs
  split at hs
  next pid hphase => exact ⟨pid, hphase, (Option.some.inj hs).symm⟩
  next => exact absurd hs.symm (Option.some_ne_none s')

theorem step_kill (hs : s.step .kill = some s') :
    (∃ pid rest, s.phase = .killing (pid :: rest) ∧ s' = { s with
      phase := .killing rest
      children := s.acted pid .kill
      strayKill := s.strayKill || !(s.children.map Prod.fst).contains pid }) ∨
    s.phase = .killing [] ∧ s' = { s with phase := .waiting true } := by
  simp only [step] at hs
  split at hs
  next pid rest hphase => exact Or.inl ⟨pid, rest, hphase, (Option.some.inj hs).symm⟩
  next hphase => exact Or.inr ⟨hphase, (Option.some.inj hs).symm⟩
  next => exact absurd hs.symm (Option.some_ne_none s')

theorem step_wait {pid : ℕ} (hs : s.step (.wait pid) = some s') :
    ∃ success, s.phase = .waiting success ∧ endedAt pid s.children = true ∧
      s' = { s.collect pid with
        phase := .waiting (success && s.succeeded pid)
        collected := s.collected ++ (s.children.filter fun e ↦ e.1 = pid).map Prod.snd } := by
  simp only [step] at hs
  split at hs
  next success hphase =>
    obtain ⟨⟨-, hended⟩, heq⟩ := Option.ite_none_right_eq_some.mp hs
    exact ⟨success, hphase, hended, (Option.some.inj heq).symm⟩
  next => exact absurd hs.symm (Option.some_ne_none s')

theorem step_noChildren (hs : s.step .noChildren = some s') :
    ∃ success, s.phase = .waiting success ∧ s.children = [] ∧
      s' = { s with phase := .returned success, connectionChildren := [] } := by
  simp only [step] at hs
  split at hs
  next success hphase =>
    obtain ⟨⟨-, hnone⟩, heq⟩ := Option.ite_none_right_eq_some.mp hs
    exact ⟨success, hphase, hnone, (Option.some.inj heq).symm⟩
  next => exact absurd hs.symm (Option.some_ne_none s')

theorem step_done (hs : s.step .done = some s') :
    ∃ success, s.phase = .waiting success ∧ s.connectionChildren = [] ∧
      s' = { s with phase := .returned success } := by
  simp only [step] at hs
  split at hs
  next success hphase =>
    obtain ⟨hempty, heq⟩ := Option.ite_none_right_eq_some.mp hs
    exact ⟨success, hphase, hempty, (Option.some.inj heq).symm⟩
  next => exact absurd hs.symm (Option.some_ne_none s')

/-! ## Children and processes

The keys of the children are their process numbers, which a step of a process leaves as they are.
Whoever is next in the loop of `kill` has not been collected, since nothing is collected there. -/

theorem keys_acted (pid : ℕ) (a : ChildAction) :
    (s.acted pid a).map Prod.fst = s.children.map Prod.fst := by
  rw [acted, List.map_map]
  refine List.map_congr_left fun e _ ↦ ?_
  show (if e.1 = pid then (e.1, (e.2.act a).getD e.2) else e).1 = e.1
  split_ifs <;> rfl

theorem mem_acted {pid : ℕ} {a : ChildAction} {e : ℕ × ChildProcess capacity}
    (h : e ∈ s.acted pid a) :
    ∃ e₀ ∈ s.children, e₀.1 = e.1 ∧
      (e.1 = pid ∧ e.2 = (e₀.2.act a).getD e₀.2 ∨ e.1 ≠ pid ∧ e = e₀) := by
  obtain ⟨e₀, he₀, rfl⟩ := List.mem_map.mp h
  refine ⟨e₀, he₀, ?_⟩
  by_cases hpid : e₀.1 = pid
  · rw [if_pos hpid]
    exact ⟨rfl, Or.inl ⟨hpid, rfl⟩⟩
  · rw [if_neg hpid]
    exact ⟨rfl, Or.inr ⟨hpid, rfl⟩⟩

theorem keys_collect (pid : ℕ) :
    (s.collect pid).children.map Prod.fst =
      (s.children.map Prod.fst).filter fun child ↦ child ≠ pid := by
  rw [List.filter_map]
  rfl

/-- The children that the server knows of: those in its set, and one that has just been forked. -/
def expected (s : ServerProcess capacity) : List ℕ :=
  match s.phase with
  | .forked pid => s.connectionChildren ++ [pid]
  | _ => s.connectionChildren

/-- Whom the server takes for its children are its children. -/
structure Owned (s : ServerProcess capacity) : Prop where
  keys : s.children.map Prod.fst = s.expected
  nodup : (s.children.map Prod.fst).Nodup
  stray : s.strayKill = false
  killing : ∀ rest, s.phase = .killing rest → ∀ pid ∈ rest, pid ∈ s.children.map Prod.fst

theorem expected_of_not_forked (h : ∀ pid, s.phase ≠ .forked pid) :
    s.expected = s.connectionChildren := by
  unfold expected
  split
  next child hphase => exact absurd hphase (h child)
  next => rfl

theorem owned_collect (h : s.Owned) (hforked : ∀ pid, s.phase ≠ .forked pid)
    (hkilling : ∀ rest, s.phase ≠ .killing rest) (pid : ℕ) : (s.collect pid).Owned := by
  have hthen : (s.collect pid).expected = (s.collect pid).connectionChildren :=
    expected_of_not_forked hforked
  refine ⟨?_, ?_, h.stray, fun rest hrest ↦ absurd hrest (hkilling rest)⟩
  · rw [keys_collect, h.keys, expected_of_not_forked hforked, hthen]
    rfl
  · rw [keys_collect]
    exact h.nodup.filter _

theorem Owned.goto (h : s.Owned) {phase : ServerPhase} (hhere : ∀ pid, s.phase ≠ .forked pid)
    (hforked : ∀ pid, phase ≠ .forked pid) (hkilling : ∀ rest, phase ≠ .killing rest) :
    Owned { s with phase } where
  keys := by
    rw [expected_of_not_forked hforked]
    exact h.keys.trans (expected_of_not_forked hhere)
  nodup := h.nodup
  stray := h.stray
  killing rest hrest := absurd hrest (hkilling rest)

theorem owned_child (h : s.Owned) (pid : ℕ) (a : ChildAction) (pending : Bool) :
    Owned { s with children := s.acted pid a, sigchldPending := pending } where
  keys := (keys_acted pid a).trans h.keys
  nodup := (keys_acted pid a).symm ▸ h.nodup
  stray := h.stray
  killing := (keys_acted pid a).symm ▸ h.killing

theorem owned_fork (h : s.Owned) (hphase : s.phase = .forking) {pid : ℕ}
    (hfresh : pid ∉ s.children.map Prod.fst) (session : Option String) :
    Owned { s with phase := .forked pid, children := s.children ++ [(pid, .fork session)] } := by
  have hkeys := h.keys
  rw [expected, hphase] at hkeys
  refine ⟨?_, ?_, h.stray, fun rest hrest ↦ ServerPhase.noConfusion hrest⟩
  · show (s.children ++ [(pid, ChildProcess.fork session)]).map Prod.fst = _
    rw [List.map_append, hkeys]
    rfl
  · show ((s.children ++ [(pid, ChildProcess.fork session)]).map Prod.fst).Nodup
    rw [List.map_append, List.map_singleton]
    exact List.nodup_append.mpr ⟨h.nodup, List.nodup_singleton pid, by grind⟩

/-- Whoever is next in the loop of `kill` has not been collected. -/
theorem owned_kill (h : s.Owned) {pid : ℕ} {rest : List ℕ}
    (hphase : s.phase = .killing (pid :: rest)) :
    Owned { s with
      phase := .killing rest
      children := s.acted pid .kill
      strayKill := s.strayKill || !(s.children.map Prod.fst).contains pid } := by
  have hkeys := h.keys
  rw [expected, hphase] at hkeys
  have hpid : (s.children.map Prod.fst).contains pid = true :=
    List.contains_iff_mem.mpr (h.killing _ hphase pid List.mem_cons_self)
  refine ⟨(keys_acted pid .kill).trans hkeys, (keys_acted pid .kill).symm ▸ h.nodup, ?_, ?_⟩
  · show (s.strayKill || !(s.children.map Prod.fst).contains pid) = false
    rw [h.stray, hpid]
    rfl
  · rintro rest' ⟨⟩ child hchild
    rw [keys_acted]
    exact h.killing _ hphase child (List.mem_cons_of_mem _ hchild)

theorem owned_wait (h : s.Owned) {success : Bool} (hphase : s.phase = .waiting success) (pid : ℕ)
    (result : Bool) (collected : List (ChildProcess capacity)) :
    Owned { s.collect pid with phase := .waiting result, collected } := by
  have hcollect : (s.collect pid).Owned :=
    owned_collect h (fun _ hp ↦ ServerPhase.noConfusion (hphase.symm.trans hp))
      (fun _ hp ↦ ServerPhase.noConfusion (hphase.symm.trans hp)) pid
  have hkeys := hcollect.keys
  rw [expected, show (s.collect pid).phase = .waiting success from hphase] at hkeys
  exact ⟨hkeys, hcollect.nodup, h.stray, fun rest hrest ↦ ServerPhase.noConfusion hrest⟩

theorem owned_step (h : s.Owned) (hs : s.step a = some s') : s'.Owned := by
  cases a with
  | terminate =>
    obtain ⟨⟩ := hs
    exact ⟨h.keys, h.nodup, h.stray, h.killing⟩
  | sigterm | sigchld =>
    obtain ⟨-, ⟨⟩⟩ := Option.ite_none_right_eq_some.mp hs
    exact ⟨h.keys, h.nodup, h.stray, h.killing⟩
  | child pid a =>
    -- only the child itself changes, and its session is kept
    obtain ⟨-, ⟨⟩⟩ := Option.ite_none_right_eq_some.mp hs
    exact owned_child h pid a _
  | fork pid session =>
    obtain ⟨⟨hphase, hfresh⟩, ⟨⟩⟩ := Option.ite_none_right_eq_some.mp hs
    exact owned_fork h hphase hfresh session
  | forkFails | poll ready | accept ok | testAccepted =>
    obtain ⟨hphase, ⟨⟩⟩ := Option.ite_none_right_eq_some.mp hs
    refine h.goto (by simp [hphase]) ?_ ?_ <;> grind
  | test =>
    obtain ⟨site, hphase, rfl⟩ := step_test hs
    refine h.goto (by simp [hphase]) ?_ ?_ <;> grind
  | reap pid =>
    obtain ⟨site, hphase, rfl⟩ := step_reap hs
    exact owned_collect h (by simp [hphase]) (by simp [hphase]) pid
  | reaped =>
    obtain ⟨site, hphase, -, rfl⟩ := step_reaped hs
    exact h.goto (by simp [hphase]) (by simp) (by simp)
  | clear =>
    obtain ⟨site, hphase, phase, hmem, rfl⟩ := step_clear hs
    have hgoto : Owned { s with phase } := by
      refine h.goto (by simp [hphase]) ?_ ?_ <;> grind
    exact ⟨hgoto.keys, hgoto.nodup, hgoto.stray, hgoto.killing⟩
  | decide =>
    obtain ⟨site, hphase, phase, hmem, rfl⟩ := step_decide hs
    refine h.goto (by simp [hphase]) ?_ ?_ <;> grind
  | insert =>
    obtain ⟨pid, hphase, rfl⟩ := step_insert hs
    -- the table catches up with the fork, which the invariant has expected
    have hkeys := h.keys
    rw [expected, hphase] at hkeys
    exact ⟨hkeys, h.nodup, h.stray, fun rest hrest ↦ ServerPhase.noConfusion hrest⟩
  | close order =>
    obtain ⟨⟨hphase, hperm⟩, ⟨⟩⟩ := Option.ite_none_right_eq_some.mp hs
    have hkeys := h.keys
    rw [expected, hphase] at hkeys
    -- the order of the loop is any, but it visits exactly the table
    refine ⟨hkeys, h.nodup, h.stray, ?_⟩
    rintro rest ⟨⟩ pid hpid
    exact hkeys ▸ hperm.mem_iff.mp hpid
  | kill =>
    rcases step_kill hs with ⟨pid, rest, hphase, rfl⟩ | ⟨hphase, rfl⟩
    · exact owned_kill h hphase
    · exact h.goto (by simp [hphase]) (by simp) (by simp)
  | wait pid =>
    obtain ⟨success, hphase, -, rfl⟩ := step_wait hs
    exact owned_wait h hphase pid _ _
  | noChildren =>
    obtain ⟨success, hphase, hnone, rfl⟩ := step_noChildren hs
    exact ⟨by rw [hnone]; rfl, h.nodup, h.stray, fun rest hrest ↦ ServerPhase.noConfusion hrest⟩
  | done =>
    obtain ⟨success, hphase, -, rfl⟩ := step_done hs
    exact h.goto (by simp [hphase]) (by simp) (by simp)

/-! ## No child is forgotten

A step to a place where nobody looks must not be the reset of the flag. A step between two places
where the server looks leaves the children as they are. -/

/-- In these places a child that has ended will be noticed. -/
def Looks : ServerPhase → Prop
  | .testing _ | .deciding _ | .polling | .accepting | .accepted | .forking | .forked _ => True
  | _ => False

/-- A child that has ended has left a mark, which the reset of the flag does not wipe out. -/
structure Noticed (s : ServerProcess capacity) : Prop where
  looks : Looks s.phase → ∀ e ∈ s.children, e.2.Ended →
    s.childExited = true ∨ s.sigchldPending = true
  clearing : ∀ site, s.phase = .clearing site → ∀ e ∈ s.children, e.2.Ended →
    s.sigchldPending = true

theorem endedAt_of_mem {pid : ℕ} {children : List (ℕ × ChildProcess capacity)}
    {e : ℕ × ChildProcess capacity} (he : e ∈ children) (hpid : e.1 = pid) (hended : e.2.Ended) :
    endedAt pid children = true :=
  List.any_eq_true.mpr ⟨e, he, decide_eq_true ⟨hpid, hended⟩⟩

theorem noticed_of_not_looks (hlooks : ¬Looks s.phase)
    (hclearing : ∀ site, s.phase ≠ .clearing site) : s.Noticed where
  looks h := absurd h hlooks
  clearing site hphase := absurd hphase (hclearing site)

theorem Noticed.goto (h : s.Noticed) (hlooks : Looks s.phase) {phase : ServerPhase}
    (hclearing : ∀ site, phase ≠ .clearing site) (connectionChildren : List ℕ) :
    Noticed { s with phase, connectionChildren } where
  looks _ := h.looks hlooks
  clearing site hphase := absurd hphase (hclearing site)

theorem noticed_child (h : s.Noticed) (pid : ℕ) (a : ChildAction) :
    Noticed { s with
      children := s.acted pid a
      sigchldPending := s.sigchldPending || endedAt pid (s.acted pid a) } := by
  have hmark : ∀ e ∈ s.acted pid a, e.2.Ended →
      e ∈ s.children ∨ endedAt pid (s.acted pid a) = true := by
    intro e he hended
    obtain ⟨e₀, he₀, -, ⟨hpid, -⟩ | ⟨-, rfl⟩⟩ := mem_acted he
    · exact Or.inr (endedAt_of_mem he hpid hended)
    · exact Or.inl he₀
  constructor
  · intro hlooks e he hended
    rcases hmark e he hended with hold | hnew
    · exact (h.looks hlooks e hold hended).imp_right fun hp ↦ by rw [hp, Bool.true_or]
    · exact Or.inr (by rw [hnew, Bool.or_true])
  · intro site hphase e he hended
    rcases hmark e he hended with hold | hnew
    · show (s.sigchldPending || _) = true
      rw [h.clearing site hphase e hold hended, Bool.true_or]
    · show (s.sigchldPending || endedAt pid (s.acted pid a)) = true
      rw [hnew, Bool.or_true]

theorem noticed_step (h : s.Noticed) (hs : s.step a = some s') : s'.Noticed := by
  cases a with
  | terminate =>
    obtain ⟨⟩ := hs
    exact ⟨h.looks, h.clearing⟩
  | sigterm =>
    obtain ⟨-, ⟨⟩⟩ := Option.ite_none_right_eq_some.mp hs
    exact ⟨h.looks, h.clearing⟩
  | sigchld =>
    obtain ⟨⟨-, hblocks⟩, ⟨⟩⟩ := Option.ite_none_right_eq_some.mp hs
    refine ⟨fun _ _ _ _ ↦ Or.inl rfl, fun site hphase ↦ ?_⟩
    -- the flag is about to be reset, but then SIGCHLD is still blocked
    have hphase : s.phase = .clearing site := hphase
    rw [hphase] at hblocks
    exact absurd trivial hblocks
  | child pid a =>
    obtain ⟨-, ⟨⟩⟩ := Option.ite_none_right_eq_some.mp hs
    exact noticed_child h pid a
  | fork pid session =>
    obtain ⟨⟨hphase, -⟩, ⟨⟩⟩ := Option.ite_none_right_eq_some.mp hs
    refine ⟨fun _ e he hended ↦ ?_, fun site hclearing ↦ ServerPhase.noConfusion hclearing⟩
    rcases List.mem_append.mp he with hold | hnew
    · exact h.looks (hphase ▸ trivial) e hold hended
    · rw [List.mem_singleton.mp hnew] at hended
      exact absurd trivial hended
  | forkFails | poll ready | accept ok | testAccepted =>
    obtain ⟨hphase, ⟨⟩⟩ := Option.ite_none_right_eq_some.mp hs
    refine h.goto (hphase ▸ trivial) ?_ _
    grind
  | test =>
    obtain ⟨site, hphase, rfl⟩ := step_test hs
    refine h.goto (hphase ▸ trivial) ?_ _
    grind
  | reap pid =>
    obtain ⟨site, hphase, rfl⟩ := step_reap hs
    have hphase : (s.collect pid).phase = .reaping site := hphase
    exact noticed_of_not_looks (by simp [hphase, Looks]) (by simp [hphase])
  | reaped =>
    obtain ⟨site, -, hnone, rfl⟩ := step_reaped hs
    exact ⟨fun hlooks ↦ hlooks.elim, fun _ _ e he hended ↦ absurd hended (hnone e he)⟩
  | clear =>
    obtain ⟨site, hphase, phase, hmem, rfl⟩ := step_clear hs
    -- who has ended since the last `waitpid` has left a SIGCHLD, which stays
    refine ⟨fun _ e he hended ↦ Or.inr (h.clearing site hphase e he hended), fun site' hp ↦ ?_⟩
    grind
  | decide =>
    obtain ⟨site, hphase, phase, hmem, rfl⟩ := step_decide hs
    refine h.goto (hphase ▸ trivial) ?_ _
    grind
  | insert =>
    obtain ⟨pid, hphase, rfl⟩ := step_insert hs
    exact h.goto (hphase ▸ trivial) (by simp) _
  | close order =>
    obtain ⟨-, ⟨⟩⟩ := Option.ite_none_right_eq_some.mp hs
    exact noticed_of_not_looks (by simp [Looks]) (by simp)
  | kill =>
    rcases step_kill hs with ⟨pid, rest, -, rfl⟩ | ⟨-, rfl⟩
    · exact noticed_of_not_looks (by simp [Looks]) (by simp)
    · exact noticed_of_not_looks (by simp [Looks]) (by simp)
  | wait pid =>
    obtain ⟨success, -, -, rfl⟩ := step_wait hs
    exact noticed_of_not_looks (by simp [Looks]) (by simp)
  | noChildren =>
    obtain ⟨success, -, -, rfl⟩ := step_noChildren hs
    exact noticed_of_not_looks (by simp [Looks]) (by simp)
  | done =>
    obtain ⟨success, -, -, rfl⟩ := step_done hs
    exact noticed_of_not_looks (by simp [Looks]) (by simp)

/-! ## The end

A child that is sent SIGTERM has been told, and a child that was told goes on to have been told. The
loop of `kill` goes over all that are left, so behind it every child has been told; the loop of
`waitpid` then collects them one by one and adds each status to the result. -/

/-- What the server knows of its children when it ends. -/
structure Settled (s : ServerProcess capacity) : Prop where
  killing : ∀ rest, s.phase = .killing rest → ∀ e ∈ s.children, e.1 ∈ rest ∨ e.2.Told
  waiting : ∀ success, s.phase = .waiting success → ∀ e ∈ s.children, e.2.Told
  fresh : (∀ success, s.phase ≠ .waiting success ∧ s.phase ≠ .returned success) →
    s.collected = []
  result : ∀ success, s.phase = .waiting success ∨ s.phase = .returned success →
    (success = true ↔ ∀ p ∈ s.collected, p.child.phase = .exited true)
  ended : ∀ p ∈ s.collected, p.Ended
  done : ∀ success, s.phase = .returned success → s.children = []

theorem Settled.before (h : s.Settled)
    (hnow : ∀ success, s.phase ≠ .waiting success ∧ s.phase ≠ .returned success)
    (hcollected : s'.collected = s.collected)
    (hthen : (∀ rest, s'.phase ≠ .killing rest) ∧
      ∀ success, s'.phase ≠ .waiting success ∧ s'.phase ≠ .returned success) : s'.Settled where
  killing rest hp := absurd hp (hthen.1 rest)
  waiting success hp := absurd hp (hthen.2 success).1
  fresh _ := hcollected.trans (h.fresh hnow)
  result success hp := (hp.elim (hthen.2 success).1 (hthen.2 success).2).elim
  ended := hcollected ▸ h.ended
  done success hp := absurd hp (hthen.2 success).2

theorem result_collect {success : Bool}
    (h : success = true ↔ ∀ p ∈ s.collected, p.child.phase = .exited true) (pid : ℕ) :
    (success && s.succeeded pid) = true ↔
      ∀ p ∈ s.collected ++ (s.children.filter fun e ↦ e.1 = pid).map Prod.snd,
        p.child.phase = .exited true := by
  have hpid : s.succeeded pid = true ↔
      ∀ p ∈ (s.children.filter fun e ↦ e.1 = pid).map Prod.snd, p.child.phase = .exited true := by
    rw [succeeded, List.all_eq_true]
    constructor
    · intro hall p hp
      obtain ⟨e, he, rfl⟩ := List.mem_map.mp hp
      obtain ⟨hmem, hkey⟩ := List.mem_filter.mp he
      exact (of_decide_eq_true (hall e hmem)).resolve_left fun hne ↦ hne (of_decide_eq_true hkey)
    · intro hall e he
      refine decide_eq_true ?_
      by_cases hkey : e.1 = pid
      · exact Or.inr (hall _ (List.mem_map_of_mem (List.mem_filter.mpr ⟨he, decide_eq_true hkey⟩)))
      · exact Or.inl hkey
  rw [Bool.and_eq_true, h, hpid, List.forall_mem_append]

theorem settled_child (h : s.Settled) (pid : ℕ) (a : ChildAction) (pending : Bool) :
    Settled { s with children := s.acted pid a, sigchldPending := pending } := by
  have htold : ∀ e ∈ s.acted pid a, ∃ e₀ ∈ s.children, e₀.1 = e.1 ∧ (e₀.2.Told → e.2.Told) := by
    intro e he
    obtain ⟨e₀, he₀, hkey, ⟨-, hact⟩ | ⟨-, rfl⟩⟩ := mem_acted he
    · exact ⟨e₀, he₀, hkey, fun h ↦ hact ▸ h.act a⟩
    · exact ⟨e, he₀, rfl, id⟩
  refine ⟨?_, ?_, h.fresh, h.result, h.ended, ?_⟩
  · intro rest hp e he
    obtain ⟨e₀, he₀, hkey, hgo⟩ := htold e he
    exact (h.killing rest hp e₀ he₀).imp (fun hmem ↦ hkey ▸ hmem) hgo
  · intro success hp e he
    obtain ⟨e₀, he₀, -, hgo⟩ := htold e he
    exact hgo (h.waiting success hp e₀ he₀)
  · intro success hp
    show s.acted pid a = []
    rw [acted, h.done success hp]
    rfl

theorem settled_close (h : s.Settled) (howned : s.Owned) (hphase : s.phase = .closing)
    {order : List ℕ} (hperm : order.Perm s.connectionChildren) :
    Settled { s with phase := .killing order } := by
  have hkeys : s.children.map Prod.fst = s.connectionChildren := by
    rw [howned.keys, expected, hphase]
  refine ⟨?_, fun _ hp ↦ ServerPhase.noConfusion hp, fun _ ↦ h.fresh (by simp [hphase]),
    by simp, h.ended, fun _ hp ↦ ServerPhase.noConfusion hp⟩
  rintro rest ⟨⟩ e he
  exact Or.inl (hperm.mem_iff.mpr (hkeys ▸ List.mem_map_of_mem he))

theorem settled_kill (h : s.Settled) {pid : ℕ} {rest : List ℕ}
    (hphase : s.phase = .killing (pid :: rest)) (stray : Bool) :
    Settled { s with
      phase := .killing rest
      children := s.acted pid .kill
      strayKill := stray } := by
  refine ⟨?_, fun _ hp ↦ ServerPhase.noConfusion hp, fun _ ↦ h.fresh (by simp [hphase]),
    by simp, h.ended, fun _ hp ↦ ServerPhase.noConfusion hp⟩
  rintro rest' ⟨⟩ e he
  obtain ⟨e₀, he₀, hkey, ⟨-, hact⟩ | ⟨hne, rfl⟩⟩ := mem_acted he
  · exact Or.inr (hact ▸ e₀.2.told_kill)
  · exact (h.killing _ hphase e he₀).imp_left fun hmem ↦
      (List.mem_cons.mp hmem).resolve_left hne

theorem settled_killed (h : s.Settled) (hphase : s.phase = .killing []) :
    Settled { s with phase := .waiting true } := by
  have hnone : s.collected = [] := h.fresh (by simp [hphase])
  refine ⟨fun _ hp ↦ ServerPhase.noConfusion hp, ?_, fun _ ↦ hnone, ?_, h.ended,
    fun _ hp ↦ ServerPhase.noConfusion hp⟩
  · rintro success ⟨⟩ e he
    exact (h.killing _ hphase e he).resolve_left List.not_mem_nil
  · rintro success (hp | hp)
    · obtain rfl := ServerPhase.waiting.inj hp
      simp [hnone]
    · exact ServerPhase.noConfusion hp

/-- The keys are distinct, so that what is collected is the child that `waitpid` gives. -/
theorem ended_of_mem_collected (howned : s.Owned) {pid : ℕ}
    (hended : endedAt pid s.children = true) {p : ChildProcess capacity}
    (hp : p ∈ (s.children.filter fun e ↦ e.1 = pid).map Prod.snd) : p.Ended := by
  obtain ⟨e, he, rfl⟩ := List.mem_map.mp hp
  obtain ⟨hmem, hkey⟩ := List.mem_filter.mp he
  obtain ⟨e₀, he₀, hgives⟩ := List.any_eq_true.mp hended
  obtain ⟨hkey₀, hended₀⟩ := of_decide_eq_true hgives
  have hsame : e = e₀ := List.inj_on_of_nodup_map howned.nodup hmem he₀
    ((of_decide_eq_true hkey).trans hkey₀.symm)
  exact hsame ▸ hended₀

theorem settled_wait (h : s.Settled) (howned : s.Owned) {success : Bool}
    (hphase : s.phase = .waiting success) {pid : ℕ} (hended : endedAt pid s.children = true) :
    Settled { s.collect pid with
      phase := .waiting (success && s.succeeded pid)
      collected := s.collected ++ (s.children.filter fun e ↦ e.1 = pid).map Prod.snd } := by
  refine ⟨fun _ hp ↦ ServerPhase.noConfusion hp, ?_, fun hnot ↦ absurd rfl (hnot _).1, ?_, ?_,
    fun _ hp ↦ ServerPhase.noConfusion hp⟩
  · intro _ _ e he
    exact h.waiting success hphase e (List.mem_of_mem_filter he)
  · rintro success' (hp | hp)
    · obtain rfl := ServerPhase.waiting.inj hp
      exact result_collect (h.result success (Or.inl hphase)) pid
    · exact ServerPhase.noConfusion hp
  · intro p hp
    rcases List.mem_append.mp hp with hold | hnew
    · exact h.ended p hold
    · exact ended_of_mem_collected howned hended hnew

theorem settled_return (h : s.Settled) {success : Bool} (hphase : s.phase = .waiting success)
    (hnone : s.children = []) (connectionChildren : List ℕ) :
    Settled { s with phase := .returned success, connectionChildren } := by
  refine ⟨fun _ hp ↦ ServerPhase.noConfusion hp, fun _ hp ↦ ServerPhase.noConfusion hp,
    fun hnot ↦ absurd rfl (hnot success).2, ?_, h.ended, fun _ _ ↦ hnone⟩
  rintro success' (hp | hp)
  · exact ServerPhase.noConfusion hp
  · obtain rfl := ServerPhase.returned.inj hp
    exact h.result success (Or.inl hphase)

theorem settled_step (h : s.Settled) (howned : s.Owned) (hs : s.step a = some s') :
    s'.Settled := by
  cases a with
  | terminate =>
    obtain ⟨⟩ := hs
    exact ⟨h.killing, h.waiting, h.fresh, h.result, h.ended, h.done⟩
  | sigterm | sigchld =>
    obtain ⟨-, ⟨⟩⟩ := Option.ite_none_right_eq_some.mp hs
    exact ⟨h.killing, h.waiting, h.fresh, h.result, h.ended, h.done⟩
  | child pid a =>
    obtain ⟨-, ⟨⟩⟩ := Option.ite_none_right_eq_some.mp hs
    exact settled_child h pid a _
  | fork pid session =>
    obtain ⟨⟨hphase, -⟩, ⟨⟩⟩ := Option.ite_none_right_eq_some.mp hs
    -- so far nothing is being shut down, and the phase stays one of those before
    exact h.before (by simp [hphase]) rfl (by simp)
  | forkFails | poll ready | accept ok | testAccepted =>
    obtain ⟨hphase, ⟨⟩⟩ := Option.ite_none_right_eq_some.mp hs
    exact h.before (by simp [hphase]) rfl (by grind)
  | test =>
    obtain ⟨site, hphase, rfl⟩ := step_test hs
    exact h.before (by simp [hphase]) rfl (by grind)
  | reap pid =>
    obtain ⟨site, hphase, rfl⟩ := step_reap hs
    exact h.before (by simp [hphase]) rfl (by simp [collect, hphase])
  | reaped =>
    obtain ⟨site, hphase, -, rfl⟩ := step_reaped hs
    exact h.before (by simp [hphase]) rfl (by simp)
  | clear =>
    obtain ⟨site, hphase, phase, hmem, rfl⟩ := step_clear hs
    exact h.before (by simp [hphase]) rfl (by grind)
  | decide =>
    obtain ⟨site, hphase, phase, hmem, rfl⟩ := step_decide hs
    exact h.before (by simp [hphase]) rfl (by grind)
  | insert =>
    obtain ⟨pid, hphase, rfl⟩ := step_insert hs
    exact h.before (by simp [hphase]) rfl (by simp)
  | close order =>
    obtain ⟨⟨hphase, hperm⟩, ⟨⟩⟩ := Option.ite_none_right_eq_some.mp hs
    exact settled_close h howned hphase hperm
  | kill =>
    rcases step_kill hs with ⟨pid, rest, hphase, rfl⟩ | ⟨hphase, rfl⟩
    · exact settled_kill h hphase _
    · exact settled_killed h hphase
  | wait pid =>
    obtain ⟨success, hphase, hended, rfl⟩ := step_wait hs
    exact settled_wait h howned hphase hended
  | noChildren =>
    obtain ⟨success, hphase, hnone, rfl⟩ := step_noChildren hs
    exact settled_return h hphase hnone []
  | done =>
    obtain ⟨success, hphase, hempty, rfl⟩ := step_done hs
    have hkeys : s.children.map Prod.fst = [] := by
      rw [howned.keys, expected, hphase]
      exact hempty
    exact settled_return h hphase (List.map_eq_nil_iff.mp hkeys) _

/-! ## Runs

The three invariants are proved together, since the last two look at whom the server takes for its
children. -/

structure Invariant (s : ServerProcess capacity) : Prop where
  owned : s.Owned
  noticed : s.Noticed
  settled : s.Settled

theorem invariant_of_run {as : List ServerAction}
    (hrun : (serverProcess capacity).run {} as = some s) : s.Invariant := by
  refine (serverProcess capacity).run_invariant (I := fun s ↦ s.Invariant) ?_ ?_ hrun
  · intro s a s' h hs
    exact ⟨owned_step h.owned hs, noticed_step h.noticed hs, settled_step h.settled h.owned hs⟩
  · refine ⟨⟨rfl, List.nodup_nil, rfl, fun _ hp ↦ ServerPhase.noConfusion hp⟩,
      ⟨fun _ e he ↦ absurd he List.not_mem_nil, fun _ hp ↦ ServerPhase.noConfusion hp⟩, ?_⟩
    exact ⟨fun _ hp ↦ ServerPhase.noConfusion hp, fun _ hp ↦ ServerPhase.noConfusion hp,
      fun _ ↦ rfl, fun _ hp ↦ hp.elim (fun h ↦ ServerPhase.noConfusion h)
        fun h ↦ ServerPhase.noConfusion h,
      fun p hp ↦ absurd hp List.not_mem_nil, fun _ hp ↦ ServerPhase.noConfusion hp⟩

/-- **The children of the server.** The set holds the children that have not been collected, except
one that has just been forked, and nobody but children is sent SIGTERM. A child that has ended while
the server polls or accepts has set the flag, or its SIGCHLD will. When the server waits in the end,
every child that is still there was sent SIGTERM. -/
theorem children_of_run {as : List ServerAction}
    (hrun : (serverProcess capacity).run {} as = some s) :
    s.children.map Prod.fst = s.expected ∧ s.strayKill = false ∧
      (Looks s.phase → ∀ e ∈ s.children, e.2.Ended →
        s.childExited = true ∨ s.sigchldPending = true) ∧
      ∀ success, s.phase = .waiting success → ∀ e ∈ s.children, e.2.child.phase.Alive →
        .kill ∈ e.2.actions := by
  obtain ⟨howned, hnoticed, hsettled⟩ := invariant_of_run hrun
  refine ⟨howned.keys, howned.stray, hnoticed.looks, fun success hphase e he halive ↦ ?_⟩
  exact (hsettled.waiting success hphase e he).resolve_left fun hended ↦ hended halive

/-- One connection, and SIGTERM while it is served. -/
def endedRun : List ServerAction :=
  [.test, .decide, .poll true, .accept true, .testAccepted, .fork 7 (some "a"), .insert,
    .child 7 (.start true true), .terminate, .sigterm, .test, .decide, .reaped, .clear, .close [7],
    .kill, .kill, .child 7 .deliver, .child 7 .look, .child 7 .write, .child 7 .watch,
    .child 7 .leave, .child 7 .quit, .child 7 .join, .child 7 .restoreHandler, .child 7 .decide,
    .child 7 .drainAlone, .child 7 .drained, .child 7 (.checkpoint true), .child 7 .exit, .wait 7,
    .done]

theorem children_of_run_waiting :
    ∃ s, (serverProcess 1).run {} (endedRun.take 17) = some s ∧ s.children ≠ [] ∧
      ∀ e ∈ s.children, e.2.child.phase.Alive → .kill ∈ e.2.actions := by
  have hrun : ((serverProcess 1).run {} (endedRun.take 17)).map
      (fun s ↦ (s.phase, s.children.length)) = some (.waiting true, 1) := by decide +kernel
  obtain ⟨s, hs, hfields⟩ := Option.map_eq_some_iff.mp hrun
  obtain ⟨hphase, hlength⟩ : s.phase = .waiting true ∧ s.children.length = 1 :=
    Prod.mk.inj hfields
  obtain ⟨-, -, -, htold⟩ := children_of_run hs
  exact ⟨s, hs, List.ne_nil_of_length_pos (hlength.symm ▸ Nat.one_pos), htold true hphase⟩

/-- **The end of the server.** When the server returns, all of its children have ended and been
collected. It returns success just if every child it waited for in the end exited with success, and
then each of these that had a provider, and took SIGTERM while its handler was installed, has left
a checkpoint that worked. -/
theorem returned_of_run {as : List ServerAction} {success : Bool} (hcap : 0 < capacity)
    (hrun : (serverProcess capacity).run {} as = some s) (hreturned : s.phase = .returned success) :
    s.children = [] ∧ (∀ p ∈ s.collected, p.Ended) ∧
      (success = true ↔ ∀ p ∈ s.collected, p.child.phase = .exited true) ∧
      (success = true → ∀ p ∈ s.collected, p.child.provider = true →
        ConnectionChild.TookSigterm capacity { session := p.session } p.actions →
        ∃ before, p.child.effects = before ++ [.checkpoint p.child.connectionId true]) := by
  obtain ⟨-, -, hsettled⟩ := invariant_of_run hrun
  have hresult := hsettled.result success (Or.inr hreturned)
  refine ⟨hsettled.done success hreturned, hsettled.ended, hresult, ?_⟩
  intro hsuccess p hp hprovider htook
  have hexit : p.child.phase = .exited true := hresult.mp hsuccess p hp
  obtain ⟨-, -, hunderway, hlogged⟩ := ConnectionChild.invariant_of_run hcap p.ran
  obtain ⟨ok, calls, hlogged⟩ := hlogged fun hp ↦ ChildPhase.noConfusion (hexit.symm.trans hp)
  have hstarted : p.child.started = true := by
    by_contra hnot
    obtain ⟨hno, -⟩ := hunderway.fresh (Bool.eq_false_of_not_eq_true hnot)
    exact absurd (hprovider.symm.trans hno) (by decide)
  have hreceived : p.child.sigtermReceived = true :=
    (ConnectionChild.sigtermReceived_of_run p.ran).mpr htook
  have htaken : p.child.checkpoints = [.checkpoint p.child.connectionId true] := by
    rw [ConnectionChild.checkpoints, hexit]
    exact if_pos ⟨hstarted, hreceived, hprovider⟩
  exact ⟨_, htaken ▸ hlogged.log⟩

theorem returned_of_run_terminated :
    ∃ s, (serverProcess 1).run {} endedRun = some s ∧ s.children = [] ∧
      ∀ p ∈ s.collected, p.child.phase = .exited true := by
  have hrun : ((serverProcess 1).run {} endedRun).map (fun s ↦ s.phase) =
      some (.returned true) := by decide +kernel
  obtain ⟨s, hs, hphase⟩ := Option.map_eq_some_iff.mp hrun
  obtain ⟨hnone, -, hresult, -⟩ := returned_of_run (by decide) hs hphase
  exact ⟨s, hs, hnone, hresult.mp rfl⟩

end ServerProcess

end Lupine
