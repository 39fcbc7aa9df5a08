import Lupine.Foundation.Machine
import Lupine.Foundation.Totals

/-!
# The init counts of NVML

NVML counts its inits and is up as long as there were more inits than shutdowns. The client keeps a
count of its own and forwards every init and every shutdown to the local library and to all servers,
each of which counts too. The connections are opened by the first init and closed by the last
shutdown.

The count, the connections and the counts of the parties change in separate steps, and only the
table of the connections is under a lock. An init counts itself first and, once the connections are
open, stays counted whatever the parties answer. A shutdown gives up its count first, and when that
was the last one it closes the connections, whoever else is using them by then.

## Threads

Every thread is somewhere in one of the two functions. A server is the process behind one
connection, so it starts with no inits and is gone with the connection.

The counts are unbounded here. `init_refcount` is an `std::atomic<int>`, which comes back to the
least `int` behind the greatest: that takes 2 ^ 31 inits without a shutdown and is left out.

## What is counted

A thread that is in a call has contributed something to each count by then, and nothing or one init
once it has returned. `Consistent` says that every count is the sum of the inits that are held and
of these contributions. A step of a thread changes a count and its own contribution alike, so at
rest all counts are the number of inits held.
-/

open Foundation

namespace Lupine

structure NvmlServer where
  count : ℕ := 0
  closed : Bool := false
  deriving DecidableEq, Repr

/-- Where a thread is in `nvmlInit_v2`, `nvmlInitWithFlags` or `nvmlShutdown`. A shutdown knows
whether it took the last count, and the number of connections that it found. -/
inductive NvmlPhase where
  | idle
  | opening
  | initLocal
  | initServers (next : ℕ) (failed : Bool)
  | shutdownCheck (last : Bool)
  | shutdownLocal (last : Bool) (count : ℕ)
  | shutdownServers (last : Bool) (count next : ℕ) (failed : Bool)
  | closing (failed : Bool)
  | closed (failed : Bool)
  deriving DecidableEq, Repr

structure NvmlState (threads : ℕ) where
  /-- `init_refcount`. -/
  refcount : ℤ := 0
  connected : Bool := false
  conns : List NvmlServer := []
  /-- The inits that the local library counts. -/
  localCount : ℕ := 0
  phase : Fin threads → NvmlPhase := fun _ ↦ .idle
  /-- The inits and the shutdowns that returned success. -/
  inits : ℕ := 0
  shutdowns : ℕ := 0

/-- What a thread does next, with the answer of the party that it calls. -/
inductive NvmlAction (threads : ℕ) where
  | nvmlInit (t : Fin threads)
  | openConnection (t : Fin threads) (servers : ℕ)
  | callLocal (t : Fin threads) (ok : Bool)
  | callServer (t : Fin threads) (ok : Bool)
  | endCalls (t : Fin threads)
  | nvmlShutdown (t : Fin threads)
  | checkConnected (t : Fin threads)
  | closeSockets (t : Fin threads)
  | clearConnections (t : Fin threads)
  deriving DecidableEq, Repr

namespace NvmlState

variable {threads : ℕ} (hasLocal : Bool) (st : NvmlState threads) (t : Fin threads)

def goto (x : NvmlPhase) : NvmlState threads :=
  { st with phase := Function.update st.phase t x }

def returnInit (failed : Bool) : NvmlState threads :=
  { st.goto t .idle with inits := if failed then st.inits else st.inits + 1 }

def returnShutdown (failed : Bool) : NvmlState threads :=
  { st.goto t .idle with shutdowns := if failed then st.shutdowns else st.shutdowns + 1 }

/-- `init_refcount.fetch_add`. -/
def nvmlInit : Option (NvmlState threads) :=
  match st.phase t with
  | .idle => some { st.goto t .opening with refcount := st.refcount + 1 }
  | _ => none

/-- `open_connection`, and what an init does when it fails. -/
def openConnection (servers : ℕ) : Option (NvmlState threads) :=
  match st.phase t with
  | .opening =>
    if st.connected then some (st.goto t .initLocal)
    else if servers = 0 then some { st.goto t .idle with refcount := st.refcount - 1 }
    else
      some { st.goto t .initLocal with
        conns := List.replicate servers {}, connected := true }
  | _ => none

/-- The init or the shutdown of the local library, if there is one. -/
def callLocal (ok : Bool) : Option (NvmlState threads) :=
  match st.phase t with
  | .initLocal =>
    if hasLocal then
      if ok then some { st.goto t (.initServers 0 false) with localCount := st.localCount + 1 }
      else some (st.goto t (.initServers 0 true))
    else some (st.goto t (.initServers 0 false))
  | .shutdownLocal last count =>
    if hasLocal then
      if ok && decide (0 < st.localCount) then
        some { st.goto t (.shutdownServers last count 0 false) with
          localCount := st.localCount - 1 }
      else some (st.goto t (.shutdownServers last count 0 true))
    else some (st.goto t (.shutdownServers last count 0 false))
  | _ => none

def callServer (ok : Bool) : Option (NvmlState threads) :=
  match st.phase t with
  | .initServers next failed =>
    (st.conns[next]?).map fun server ↦
      if ok && !server.closed then
        { st.goto t (.initServers (next + 1) failed) with
          conns := st.conns.set next { server with count := server.count + 1 } }
      else st.goto t (.initServers (next + 1) true)
  | .shutdownServers last count next failed =>
    if next < count then
      match st.conns[next]? with
      | some server =>
        if ok && !server.closed && decide (0 < server.count) then
          some { st.goto t (.shutdownServers last count (next + 1) failed) with
            conns := st.conns.set next { server with count := server.count - 1 } }
        else some (st.goto t (.shutdownServers last count (next + 1) true))
      | none => some (st.goto t (.shutdownServers last count (next + 1) true))
    else none
  | _ => none

def endCalls : Option (NvmlState threads) :=
  match st.phase t with
  | .initServers next failed =>
    if st.conns.length ≤ next then some (st.returnInit t failed) else none
  | .shutdownServers last count next failed =>
    if count ≤ next then
      if last then some (st.goto t (.closing failed)) else some (st.returnShutdown t failed)
    else none
  | _ => none

/-- The count that `nvmlShutdown` takes. Without one it returns an error. -/
def nvmlShutdown : Option (NvmlState threads) :=
  match st.phase t with
  | .idle =>
    if st.refcount ≤ 0 then some st
    else
      some { st.goto t (.shutdownCheck (decide (st.refcount = 1))) with
        refcount := st.refcount - 1 }
  | _ => none

/-- What `nvmlShutdown` reads under the lock. -/
def checkConnected : Option (NvmlState threads) :=
  match st.phase t with
  | .shutdownCheck last =>
    if st.connected then some (st.goto t (.shutdownLocal last st.conns.length))
    else some (st.returnShutdown t false)
  | _ => none

/-- The first half of `close_connections`. -/
def closeSockets : Option (NvmlState threads) :=
  match st.phase t with
  | .closing failed =>
    some { st.goto t (.closed failed) with
      conns := st.conns.map fun server ↦ { server with closed := true } }
  | _ => none

/-- The second half of `close_connections`, and the return. -/
def clearConnections : Option (NvmlState threads) :=
  match st.phase t with
  | .closed failed => some { st.returnShutdown t failed with conns := [], connected := false }
  | _ => none

end NvmlState

def nvmlStep {threads : ℕ} (hasLocal : Bool) (st : NvmlState threads) :
    NvmlAction threads → Option (NvmlState threads)
  | .nvmlInit t => st.nvmlInit t
  | .openConnection t servers => st.openConnection t servers
  | .callLocal t ok => st.callLocal hasLocal t ok
  | .callServer t ok => st.callServer t ok
  | .endCalls t => st.endCalls t
  | .nvmlShutdown t => st.nvmlShutdown t
  | .checkConnected t => st.checkConnected t
  | .closeSockets t => st.closeSockets t
  | .clearConnections t => st.clearConnections t

/-- The client of so many threads, with a local library or without. -/
def nvmlClient (threads : ℕ) (hasLocal : Bool) :
    Machine (NvmlState threads) (NvmlAction threads) where
  step := nvmlStep hasLocal

/-! ## What is to hold at rest

At rest means that every thread is outside of the two functions. -/

/-- The counts agree and the connections are open while they are positive. -/
structure NvmlState.Balanced {threads : ℕ} (hasLocal : Bool) (st : NvmlState threads) : Prop where
  refcount : st.refcount = (st.inits : ℤ) - st.shutdowns
  localCount : hasLocal → (st.localCount : ℤ) = st.refcount
  servers : ∀ server ∈ st.conns, (server.count : ℤ) = st.refcount ∧ server.closed = false
  connected : st.connected = true ↔ 0 < st.refcount

/-! ## When it goes well

The condition keeps the last shutdown apart from every other call. Shutdowns that are not the last,
and inits, may overlap as they like. -/

def NvmlPhase.last : NvmlPhase → Bool
  | .shutdownCheck last | .shutdownLocal last _ | .shutdownServers last .. => last
  | .closing _ | .closed _ => true
  | .idle | .opening | .initLocal | .initServers .. => false

/-- The party that a shutdown calls has an init to give up. -/
def NvmlState.partyCounts {threads : ℕ} (st : NvmlState threads) (t : Fin threads) : Bool :=
  match st.phase t with
  | .shutdownLocal .. => decide (0 < st.localCount)
  | .shutdownServers _ _ next _ => (st.conns[next]?).all fun server ↦ decide (0 < server.count)
  | _ => true

/-- No party fails. A shutdown starts while the connections are open, the last one while no other
call is under way, and no init starts before it is over. -/
def NvmlAction.Orderly {threads : ℕ} (hasLocal : Bool) (st : NvmlState threads) :
    NvmlAction threads → Prop
  | nvmlInit _ => ∀ u, (st.phase u).last = false
  | callLocal t ok => hasLocal → ok = true ∧ st.partyCounts t = true
  | callServer t ok => ok = true ∧ st.partyCounts t = true
  | nvmlShutdown _ => 0 < st.refcount →
    st.connected = true ∧ (st.refcount = 1 → ∀ u, st.phase u = .idle)
  | openConnection .. | endCalls _ | checkConnected _ | closeSockets _ | clearConnections _ => True

instance {threads : ℕ} (hasLocal : Bool) (st : NvmlState threads) :
    ∀ action : NvmlAction threads, Decidable (action.Orderly hasLocal st)
  | .nvmlInit _ => inferInstanceAs (Decidable (∀ _, _))
  | .callLocal .. => inferInstanceAs (Decidable (_ → _ ∧ _))
  | .callServer .. => inferInstanceAs (Decidable (_ ∧ _))
  | .nvmlShutdown _ => inferInstanceAs (Decidable (_ → _ ∧ (_ → ∀ _, _)))
  | .openConnection .. | .endCalls _ | .checkConnected _ | .closeSockets _
  | .clearConnections _ => inferInstanceAs (Decidable True)

/-! ## What a thread has contributed

A contribution is read off the phase: an init that has called the local library and two of the
servers has contributed one to each of these, a shutdown minus one. -/

namespace NvmlPhase

def refs : NvmlPhase → ℤ
  | idle => 0
  | opening | initLocal | initServers .. => 1
  | shutdownCheck _ | shutdownLocal .. | shutdownServers .. | closing _ | closed _ => -1

def localCalls : NvmlPhase → ℤ
  | initServers .. => 1
  | shutdownServers .. | closing _ | closed _ => -1
  | idle | opening | initLocal | shutdownCheck _ | shutdownLocal .. => 0

def serverCalls (i : ℕ) : NvmlPhase → ℤ
  | initServers next _ => if i < next then 1 else 0
  | shutdownServers _ _ next _ => if i < next then -1 else 0
  | closing _ | closed _ => -1
  | idle | opening | initLocal | shutdownCheck _ | shutdownLocal .. => 0

def failed : NvmlPhase → Bool
  | initServers _ failed | shutdownServers _ _ _ failed | closing failed | closed failed => failed
  | idle | opening | initLocal | shutdownCheck _ | shutdownLocal .. => false

/-- A shutdown that calls the parties has the number of connections. -/
def Counts (n : ℕ) : NvmlPhase → Prop
  | shutdownLocal _ count | shutdownServers _ count _ _ => count = n
  | idle | opening | initLocal | initServers .. | shutdownCheck _ | closing _ | closed _ => True

/-- A thread that needs no connections. -/
def Waits : NvmlPhase → Prop
  | idle | opening => True
  | initLocal | initServers .. | shutdownCheck _ | shutdownLocal .. | shutdownServers ..
  | closing _ | closed _ => False

/-- A thread that has closed the connections. -/
def IsClosed : NvmlPhase → Prop
  | closed _ => True
  | idle | opening | initLocal | initServers .. | shutdownCheck _ | shutdownLocal ..
  | shutdownServers .. | closing _ => False

end NvmlPhase

namespace NvmlState

variable {threads : ℕ} {hasLocal : Bool} {st : NvmlState threads} {t : Fin threads} {x : NvmlPhase}

/-- The inits that returned and were not shut down. -/
def held (st : NvmlState threads) : ℤ := (st.inits : ℤ) - st.shutdowns

/-- Every count is what the calls that returned make it, and what the threads have contributed. -/
structure Consistent (hasLocal : Bool) (st : NvmlState threads) : Prop where
  refcount : st.refcount = st.held + total NvmlPhase.refs st.phase
  localCount : hasLocal → (st.localCount : ℤ) = st.held + total NvmlPhase.localCalls st.phase
  servers : ∀ i server, st.conns[i]? = some server →
    (server.count : ℤ) = st.held + total (NvmlPhase.serverCalls i) st.phase
  noneFailed : ∀ t, (st.phase t).failed = false
  counts : ∀ t, (st.phase t).Counts st.conns.length
  last : ∀ t, (st.phase t).last = true → st.refcount = 0 ∧ ∀ u, u ≠ t → st.phase u = .idle
  connected : st.connected = true → (∀ t, (st.phase t).last = false) → 0 < st.refcount
  disconnected : st.connected = false → st.conns = [] ∧ st.held = 0 ∧ ∀ t, (st.phase t).Waits
  closed : ∀ server ∈ st.conns, server.closed = true → ∃ t, (st.phase t).IsClosed

/-- **At rest the counts agree.** -/
theorem Consistent.balanced (h : st.Consistent hasLocal) (hidle : ∀ t, st.phase t = .idle) :
    st.Balanced hasLocal := by
  have hzero : ∀ weight : NvmlPhase → ℤ, weight .idle = 0 → total weight st.phase = 0 :=
    fun weight hweight ↦ total_eq_zero fun t ↦ by rw [hidle t, hweight]
  have hrefs : st.refcount = st.held := by
    rw [h.refcount, hzero _ rfl, add_zero]
  constructor
  · exact hrefs
  · intro hlocal
    rw [h.localCount hlocal, hzero _ rfl, add_zero, hrefs]
  · intro server hmem
    obtain ⟨i, hi⟩ := List.getElem?_of_mem hmem
    constructor
    · rw [h.servers i server hi, hzero _ rfl, add_zero, hrefs]
    · by_contra hclosed
      obtain ⟨t, ht⟩ := h.closed server hmem (Bool.eq_true_of_not_eq_false hclosed)
      rw [hidle t] at ht
      exact ht
  · constructor
    · intro hconnected
      exact h.connected hconnected fun t ↦ by rw [hidle t]; rfl
    · intro hpos
      by_contra hconnected
      have hheld := (h.disconnected (Bool.eq_false_of_not_eq_true hconnected)).2.1
      omega

theorem forall_update {p : NvmlPhase → Prop} (h : ∀ u, p (st.phase u)) (hx : p x) :
    ∀ u, p (Function.update st.phase t x u) := by
  intro u
  rcases eq_or_ne u t with rfl | hne
  · rwa [Function.update_self]
  · rw [Function.update_of_ne hne]
    exact h u

/-! ### Facts about the phases

While a thread is in a call that is not the last shutdown, no thread is in the last one. So a thread
that uses the connections finds them open. -/

theorem NvmlPhase.Waits.last {x : NvmlPhase} (h : x.Waits) : x.last = false := by
  cases x <;> first | rfl | exact h.elim

theorem NvmlPhase.Waits.refs_nonneg {x : NvmlPhase} (h : x.Waits) : 0 ≤ x.refs := by
  cases x <;> first | decide | exact h.elim

theorem NvmlPhase.Waits.serverCalls {x : NvmlPhase} (h : x.Waits) (i : ℕ) :
    x.serverCalls i = 0 := by
  cases x <;> first | rfl | exact h.elim

theorem NvmlPhase.IsClosed.last {x : NvmlPhase} (h : x.IsClosed) : x.last = true := by
  cases x <;> first | rfl | exact h.elim

/-- A thread that uses the connections finds them open. -/
theorem Consistent.connected_of (h : st.Consistent hasLocal) (ht : ¬(st.phase t).Waits) :
    st.connected = true := by
  by_contra hconnected
  exact ht ((h.disconnected (Bool.eq_false_of_not_eq_true hconnected)).2.2 t)

/-- While a thread is in a call that is not the last shutdown, no thread is in that. -/
theorem Consistent.none_last (h : st.Consistent hasLocal) (hbusy : st.phase t ≠ .idle)
    (ht : (st.phase t).last = false) : ∀ u, (st.phase u).last = false := by
  intro u
  by_contra hu
  have hlast := Bool.eq_true_of_not_eq_false hu
  rcases eq_or_ne t u with rfl | hne
  · exact hu ht
  · exact hbusy ((h.last u hlast).2 t hne)

/-! ### Steps that keep what is counted

A step either leaves the thread in its call or returns from it, and what it has contributed is then
held or given up. -/

theorem Consistent.move (h : st.Consistent hasLocal) {y : NvmlPhase} {conns : List NvmlServer}
    {localCount : ℕ} (hx : st.phase t = x) (hbusy : x ≠ .idle) (hconnected : st.connected = true)
    (hrefs : y.refs = x.refs) (hlast : y.last = x.last) (hfailed : y.failed = false)
    (hcounts : y.Counts st.conns.length) (hlength : conns.length = st.conns.length)
    (hclosed : x.IsClosed → y.IsClosed)
    (hlocal : hasLocal → (localCount : ℤ) = st.localCount + (y.localCalls - x.localCalls))
    (hservers : ∀ i server, conns[i]? = some server → ∃ old, st.conns[i]? = some old ∧
      (server.count : ℤ) = old.count + (y.serverCalls i - x.serverCalls i) ∧
      (server.closed = true → old.closed = true ∨ y.IsClosed)) :
    Consistent hasLocal { st.goto t y with conns := conns, localCount := localCount } := by
  subst hx
  have hself : Function.update st.phase t y t = y := Function.update_self ..
  refine ⟨?_, ?_, ?_, forall_update (p := fun x ↦ x.failed = false) h.noneFailed hfailed,
    ?_, ?_, ?_, ?_, ?_⟩
  -- one thread changes its phase, and the sums change by the difference
  · have htotal : total NvmlPhase.refs (Function.update st.phase t y)
        = total NvmlPhase.refs st.phase := by
      rw [total_update, hrefs, sub_self, add_zero]
    exact h.refcount.trans (congrArg (st.held + ·) htotal.symm)
  · intro hhas
    refine (hlocal hhas).trans ?_
    rw [h.localCount hhas, add_assoc, ← total_update]
    rfl
  · intro i server hserver
    obtain ⟨old, hold, hcount, -⟩ := hservers i server hserver
    refine hcount.trans ?_
    rw [h.servers i old hold, add_assoc, ← total_update]
    rfl
  · intro u
    show NvmlPhase.Counts conns.length _
    rw [hlength]
    exact forall_update (p := NvmlPhase.Counts st.conns.length) h.counts hcounts u
  -- the thread that took the last count is the only one that is not idle
  · intro u hu
    rcases eq_or_ne u t with rfl | hne
    · have hlast' : (st.phase u).last = true := hlast.symm.trans (hself ▸ hu)
      obtain ⟨hzero, hothers⟩ := h.last u hlast'
      refine ⟨hzero, fun v hv ↦ ?_⟩
      show Function.update st.phase u y v = .idle
      rw [Function.update_of_ne hv]
      exact hothers v hv
    · have hu' : (st.phase u).last = true := by
        rwa [← Function.update_of_ne hne y st.phase]
      exact absurd ((h.last u hu').2 t hne.symm) hbusy
  · intro _ hnone
    refine h.connected hconnected fun u ↦ ?_
    rcases eq_or_ne u t with rfl | hne
    · exact hlast.symm.trans (hself ▸ hnone u)
    · rw [← Function.update_of_ne hne y st.phase]
      exact hnone u
  · intro hfalse
    exact absurd (hconnected.symm.trans hfalse) (by decide)
  -- a closed server was closed before, or this thread has closed it
  · intro server hmem hserver
    obtain ⟨i, hi⟩ := List.getElem?_of_mem hmem
    obtain ⟨old, hold, -, hclose⟩ := hservers i server hi
    rcases hclose hserver with hclose | hclose
    · obtain ⟨u, hu⟩ := h.closed old (List.mem_of_getElem? hold) hclose
      refine ⟨u, ?_⟩
      show (Function.update st.phase t y u).IsClosed
      rcases eq_or_ne u t with rfl | hne
      · rw [Function.update_self]
        exact hclosed hu
      · rwa [Function.update_of_ne hne]
    · refine ⟨t, ?_⟩
      show (Function.update st.phase t y t).IsClosed
      rwa [hself]

/-- A thread returns, and what it has contributed is counted as held or given up. -/
theorem Consistent.returns (h : st.Consistent hasLocal) {inits shutdowns : ℕ} {d : ℤ}
    (hx : st.phase t = x) (hbusy : ¬x.Waits) (hlast : x.last = false)
    (hheld : (inits : ℤ) - shutdowns = st.held + d) (hrefs : x.refs = d) (hlocal : x.localCalls = d)
    (hservers : ∀ i < st.conns.length, x.serverCalls i = d) :
    Consistent hasLocal { st.goto t .idle with inits := inits, shutdowns := shutdowns } := by
  subst hx
  have hconnected := h.connected_of hbusy
  have hnotIdle : st.phase t ≠ .idle := fun hidle ↦ hbusy (hidle ▸ trivial)
  have hnone := h.none_last hnotIdle hlast
  have hnone' : ∀ u, (Function.update st.phase t .idle u).last = false :=
    forall_update (p := fun x ↦ x.last = false) hnone rfl
  have hcount : ∀ weight : NvmlPhase → ℤ, weight .idle = 0 → weight (st.phase t) = d →
      st.held + total weight st.phase
        = ((inits : ℤ) - shutdowns) + total weight (Function.update st.phase t .idle) := by
    intro weight hzero hd
    rw [total_update, hheld, hzero, hd]
    omega
  refine ⟨h.refcount.trans (hcount _ rfl hrefs), fun hhas ↦ ?_, fun i server hserver ↦ ?_,
    forall_update (p := fun x ↦ x.failed = false) h.noneFailed rfl,
    forall_update (p := NvmlPhase.Counts st.conns.length) h.counts trivial,
    fun u hu ↦ ?_, fun _ _ ↦ ?_,
    fun hfalse ↦ ?_, fun server hmem hclosed ↦ ?_⟩
  · exact (h.localCount hhas).trans (hcount _ rfl hlocal)
  · have hi : i < st.conns.length := (List.getElem?_eq_some_iff.mp hserver).1
    exact (h.servers i server hserver).trans (hcount _ rfl (hservers i hi))
  · exact absurd (hu.symm.trans (hnone' u)) (by decide)
  · exact h.connected hconnected hnone
  · exact absurd (hconnected.symm.trans hfalse) (by decide)
  · obtain ⟨u, hu⟩ := h.closed server hmem hclosed
    have hulast := NvmlPhase.IsClosed.last (x := st.phase u) hu
    exact absurd (hulast.symm.trans (hnone u)) (by decide)

/-! ### The calls of the parties

A call of a server counts at that server only, and needs the connections. -/

theorem Consistent.callLocal (h : st.Consistent hasLocal) {ok : Bool} {st' : NvmlState threads}
    (hok : hasLocal → ok = true ∧ st.partyCounts t = true)
    (hstep : st.callLocal hasLocal t ok = some st') : st'.Consistent hasLocal := by
  rw [NvmlState.callLocal] at hstep
  split at hstep
  · next hx =>
    have hconnected := h.connected_of (t := t) (by rw [hx]; exact id)
    have hmove : ∀ {localCount : ℕ}, (hasLocal → (localCount : ℤ) = st.localCount + 1) →
        Consistent hasLocal { st.goto t (.initServers 0 false) with localCount := localCount } :=
      fun hlocal ↦ h.move hx (nomatch ·) hconnected rfl rfl rfl trivial rfl id hlocal
        fun i server hserver ↦ ⟨server, hserver, by simp [NvmlPhase.serverCalls], Or.inl⟩
    cases hasLocal with
    | false => exact Option.some.inj hstep ▸ hmove fun hhas ↦ (nomatch hhas)
    | true =>
      rw [if_pos rfl, if_pos (hok rfl).1] at hstep
      exact Option.some.inj hstep ▸ hmove fun _ ↦ rfl
  · next last count hx =>
    have hconnected := h.connected_of (t := t) (by rw [hx]; exact id)
    have hcount : count = st.conns.length := by
      have hcounts := h.counts t
      rwa [hx] at hcounts
    have hmove : ∀ {localCount : ℕ}, (hasLocal → (localCount : ℤ) = st.localCount + (-1 - 0)) →
        Consistent hasLocal
          { st.goto t (.shutdownServers last count 0 false) with localCount := localCount } :=
      fun hlocal ↦ h.move hx (nomatch ·) hconnected rfl rfl rfl hcount rfl id hlocal
        fun i server hserver ↦ ⟨server, hserver, by simp [NvmlPhase.serverCalls], Or.inl⟩
    cases hasLocal with
    | false => exact Option.some.inj hstep ▸ hmove fun hhas ↦ (nomatch hhas)
    | true =>
      obtain ⟨hanswer, hparty⟩ := hok rfl
      simp only [NvmlState.partyCounts, hx] at hparty
      have hpos : 0 < st.localCount := of_decide_eq_true hparty
      rw [if_pos rfl, if_pos (by rw [hanswer, hparty]; rfl)] at hstep
      refine Option.some.inj hstep ▸ hmove fun _ ↦ ?_
      omega
  · exact (nomatch hstep)

theorem server_of_set {i next : ℕ} {server new old : NvmlServer}
    (hnext : st.conns[next]? = some old) (hserver : (st.conns.set next new)[i]? = some server) :
    i = next ∧ server = new ∨ i ≠ next ∧ st.conns[i]? = some server := by
  have hlt : next < st.conns.length := (List.getElem?_eq_some_iff.mp hnext).1
  rw [List.getElem?_set] at hserver
  split_ifs at hserver with heq
  · exact Or.inl ⟨heq.symm, (Option.some.inj hserver).symm⟩
  · exact Or.inr ⟨fun hi ↦ heq hi.symm, hserver⟩

theorem Consistent.callsServer (h : st.Consistent hasLocal) {y : NvmlPhase} {next : ℕ}
    {old new : NvmlServer} {d : ℤ} (hx : st.phase t = x) (hbusy : x ≠ .idle)
    (hconnected : st.connected = true) (hrefs : y.refs = x.refs) (hlast : y.last = x.last)
    (hlocal : y.localCalls = x.localCalls) (hfailed : y.failed = false)
    (hcounts : y.Counts st.conns.length) (hclosed : x.IsClosed → y.IsClosed)
    (hnext : st.conns[next]? = some old) (hnew : (new.count : ℤ) = old.count + d)
    (hkeep : new.closed = old.closed)
    (hservers : ∀ i, y.serverCalls i - x.serverCalls i = if i = next then d else 0) :
    Consistent hasLocal { st.goto t y with conns := st.conns.set next new } := by
  refine h.move hx hbusy hconnected hrefs hlast hfailed hcounts List.length_set hclosed ?_ ?_
  · intro _
    rw [hlocal, sub_self, add_zero]
    rfl
  · intro i server hserver
    rw [hservers]
    rcases server_of_set hnext hserver with ⟨rfl, rfl⟩ | ⟨hne, hold⟩
    · exact ⟨old, hnext, by rw [if_pos rfl, hnew], fun hc ↦ Or.inl (hkeep ▸ hc)⟩
    · exact ⟨server, hold, by rw [if_neg hne, add_zero], Or.inl⟩

theorem Consistent.not_closed (h : st.Consistent hasLocal) (hbusy : st.phase t ≠ .idle)
    (hopen : ¬(st.phase t).IsClosed) {server : NvmlServer} (hmem : server ∈ st.conns) :
    server.closed = false := by
  by_contra hclosed
  obtain ⟨u, hu⟩ := h.closed server hmem (Bool.eq_true_of_not_eq_false hclosed)
  rcases eq_or_ne t u with rfl | hne
  · exact hopen hu
  · exact hbusy ((h.last u (NvmlPhase.IsClosed.last hu)).2 t hne)

theorem Consistent.callServer (h : st.Consistent hasLocal) {ok : Bool} {st' : NvmlState threads}
    (hok : ok = true ∧ st.partyCounts t = true) (hstep : st.callServer t ok = some st') :
    st'.Consistent hasLocal := by
  obtain ⟨hanswer, hparty⟩ := hok
  rw [NvmlState.callServer] at hstep
  split at hstep
  · next next failed hx =>
    -- the thread is on its way through the servers, so they are there and open
    have hconnected := h.connected_of (t := t) (by rw [hx]; exact id)
    have hfailed : failed = false := by
      have hnone := h.noneFailed t
      rwa [hx] at hnone
    obtain ⟨server, hserver, rfl⟩ := Option.map_eq_some_iff.mp hstep
    have hopen := h.not_closed (t := t) (by rw [hx]; exact (nomatch ·)) (by rw [hx]; exact id)
      (List.mem_of_getElem? hserver)
    rw [if_pos (by rw [hanswer, hopen]; rfl)]
    refine h.callsServer (d := 1) hx (nomatch ·) hconnected rfl rfl rfl hfailed trivial id hserver
      rfl rfl fun i ↦ ?_
    simp only [NvmlPhase.serverCalls]
    split_ifs <;> omega
  · next last count next failed hx =>
    have hconnected := h.connected_of (t := t) (by rw [hx]; exact id)
    have hfailed : failed = false := by
      have hnone := h.noneFailed t
      rwa [hx] at hnone
    have hcount : count = st.conns.length := by
      have hcounts := h.counts t
      rwa [hx] at hcounts
    split_ifs at hstep with hlt
    -- no server has gone since they were counted, so this one is there
    have hserver := List.getElem?_eq_getElem (hcount ▸ hlt)
    have hopen := h.not_closed (t := t) (by rw [hx]; exact (nomatch ·)) (by rw [hx]; exact id)
      (List.mem_of_getElem? hserver)
    simp only [NvmlState.partyCounts, hx, hserver, Option.all_some] at hparty
    have hpos := of_decide_eq_true hparty
    rw [hserver] at hstep
    simp only at hstep
    rw [if_pos (by rw [hanswer, hopen, hparty]; rfl)] at hstep
    refine Option.some.inj hstep ▸ h.callsServer (d := -1) hx (nomatch ·) hconnected rfl rfl rfl
      hfailed hcount id hserver ?_ rfl fun i ↦ ?_
    · show ((_ - 1 : ℕ) : ℤ) = _
      omega
    · simp only [NvmlPhase.serverCalls]
      split_ifs <;> omega
  · exact (nomatch hstep)

/-! ### The other steps

These change the client's own count, the connections, or nothing but the phase. -/

theorem Consistent.endCalls (h : st.Consistent hasLocal) {st' : NvmlState threads}
    (hstep : st.endCalls t = some st') : st'.Consistent hasLocal := by
  have hfailed := h.noneFailed t
  rw [NvmlState.endCalls] at hstep
  split at hstep
  · next next failed hx =>
    rw [hx] at hfailed
    obtain rfl : failed = false := hfailed
    split_ifs at hstep with hend
    refine Option.some.inj hstep ▸ h.returns (d := 1) hx id rfl ?_ rfl rfl fun i hi ↦ ?_
    · show ((st.inits + 1 : ℕ) : ℤ) - st.shutdowns = st.inits - st.shutdowns + 1
      omega
    · exact if_pos (Nat.lt_of_lt_of_le hi hend)
  · next last count next failed hx =>
    rw [hx] at hfailed
    obtain rfl : failed = false := hfailed
    have hcount : count = st.conns.length := by
      have hcounts := h.counts t
      rwa [hx] at hcounts
    split_ifs at hstep with hend hlast
    · subst hlast
      have hconnected := h.connected_of (t := t) (by rw [hx]; exact id)
      refine Option.some.inj hstep ▸ h.move hx (nomatch ·) hconnected rfl rfl rfl trivial rfl
        (fun hclosed ↦ hclosed.elim) (fun _ ↦ ?_)
        fun i server hserver ↦ ⟨server, hserver, ?_, Or.inl⟩
      · show (st.localCount : ℤ) = st.localCount + (-1 - -1)
        omega
      · have hi : i < next := by
          have hlt := (List.getElem?_eq_some_iff.mp hserver).1
          omega
        simp [NvmlPhase.serverCalls, hi]
    · have hlast' := Bool.eq_false_of_not_eq_true hlast
      refine Option.some.inj hstep ▸ h.returns (d := -1) hx id hlast' ?_ rfl rfl fun i hi ↦ ?_
      · show (st.inits : ℤ) - (st.shutdowns + 1 : ℕ) = st.inits - st.shutdowns + -1
        omega
      · exact if_pos (by omega)
  · exact (nomatch hstep)

theorem Consistent.closeSockets (h : st.Consistent hasLocal) {st' : NvmlState threads}
    (hstep : st.closeSockets t = some st') : st'.Consistent hasLocal := by
  have hfailed := h.noneFailed t
  rw [NvmlState.closeSockets] at hstep
  split at hstep
  · next failed hx =>
    rw [hx] at hfailed
    have hconnected := h.connected_of (t := t) (by rw [hx]; exact id)
    refine Option.some.inj hstep ▸ h.move hx (nomatch ·) hconnected rfl rfl hfailed trivial
      (List.length_map _) (fun hclosed ↦ hclosed.elim) (fun _ ↦ ?_) fun i server hserver ↦ ?_
    · show (st.localCount : ℤ) = st.localCount + (-1 - -1)
      omega
    · rw [List.getElem?_map] at hserver
      obtain ⟨old, hold, rfl⟩ := Option.map_eq_some_iff.mp hserver
      refine ⟨old, hold, ?_, fun _ ↦ Or.inr trivial⟩
      show (old.count : ℤ) = old.count + (-1 - -1)
      omega
  · exact (nomatch hstep)

theorem Consistent.checkConnected (h : st.Consistent hasLocal) {st' : NvmlState threads}
    (hstep : st.checkConnected t = some st') : st'.Consistent hasLocal := by
  rw [NvmlState.checkConnected] at hstep
  split at hstep
  · next last hx =>
    have hconnected := h.connected_of (t := t) (by rw [hx]; exact id)
    rw [if_pos hconnected] at hstep
    refine Option.some.inj hstep ▸ h.move hx (nomatch ·) hconnected rfl rfl rfl rfl rfl id
      (fun _ ↦ ?_) fun i server hserver ↦ ⟨server, hserver, ?_, Or.inl⟩
    · show (st.localCount : ℤ) = st.localCount + (0 - 0)
      omega
    · show (server.count : ℤ) = server.count + (0 - 0)
      omega
  · exact (nomatch hstep)

theorem Consistent.nvmlInit (h : st.Consistent hasLocal) {st' : NvmlState threads}
    (hok : ∀ u, (st.phase u).last = false) (hstep : st.nvmlInit t = some st') :
    st'.Consistent hasLocal := by
  rw [NvmlState.nvmlInit] at hstep
  split at hstep
  · next hx =>
    -- the thread counts itself before it does anything else
    have htotal : ∀ weight : NvmlPhase → ℤ, total weight (Function.update st.phase t .opening)
        = total weight st.phase + (weight .opening - weight .idle) := by
      intro weight
      rw [total_update, hx]
    have hlast : ∀ u, (Function.update st.phase t .opening u).last = false :=
      forall_update (p := fun x ↦ x.last = false) hok rfl
    refine Option.some.inj hstep ▸ ⟨?_, fun hhas ↦ ?_, fun i server hserver ↦ ?_,
      forall_update (p := fun x ↦ x.failed = false) h.noneFailed rfl,
      forall_update (p := NvmlPhase.Counts st.conns.length) h.counts trivial,
      fun u hu ↦ absurd (hu.symm.trans (hlast u)) (by decide), fun hconnected _ ↦ ?_,
      fun hfalse ↦ ?_, fun server hmem hclosed ↦ ?_⟩
    · show st.refcount + 1 = st.held + total NvmlPhase.refs (Function.update st.phase t .opening)
      rw [htotal, h.refcount]
      show _ = _ + (_ + (1 - 0))
      omega
    · show (st.localCount : ℤ)
        = st.held + total NvmlPhase.localCalls (Function.update st.phase t .opening)
      rw [htotal, h.localCount hhas]
      show _ = _ + (_ + (0 - 0))
      omega
    · show (server.count : ℤ)
        = st.held + total (NvmlPhase.serverCalls i) (Function.update st.phase t .opening)
      rw [htotal, h.servers i server hserver]
      show _ = _ + (_ + (0 - 0))
      omega
    · have hpos := h.connected hconnected hok
      show 0 < st.refcount + 1
      omega
    · obtain ⟨hconns, hheld, hwaits⟩ := h.disconnected hfalse
      exact ⟨hconns, hheld, forall_update (p := NvmlPhase.Waits) hwaits trivial⟩
    -- no server is closed, as no shutdown has taken the last count
    · obtain ⟨u, hu⟩ := h.closed server hmem hclosed
      have hulast := NvmlPhase.IsClosed.last (x := st.phase u) hu
      exact absurd (hulast.symm.trans (hok u)) (by decide)
  · exact (nomatch hstep)

theorem Consistent.openConnection (h : st.Consistent hasLocal) {servers : ℕ}
    {st' : NvmlState threads} (hstep : st.openConnection t servers = some st') :
    st'.Consistent hasLocal := by
  rw [NvmlState.openConnection] at hstep
  split at hstep
  · next hx =>
    split_ifs at hstep with hconnected hnone
    -- connected already: the thread goes on, and no count changes
    · refine Option.some.inj hstep ▸ h.move hx (nomatch ·) hconnected rfl rfl rfl trivial rfl
        (fun hclosed ↦ hclosed.elim) (fun _ ↦ ?_)
        fun i server hserver ↦ ⟨server, hserver, ?_, Or.inl⟩
      · show (st.localCount : ℤ) = st.localCount + (0 - 0)
        omega
      · show (server.count : ℤ) = server.count + (0 - 0)
        omega
    -- no server answers: the init is taken back, and no thread is past this point
    · obtain ⟨hconns, hheld, hwaits⟩ := h.disconnected (Bool.eq_false_of_not_eq_true hconnected)
      have hwaits' : ∀ u, (Function.update st.phase t .idle u).Waits :=
        forall_update (p := NvmlPhase.Waits) hwaits trivial
      refine Option.some.inj hstep ▸ ⟨?_, fun hhas ↦ ?_, fun i server hserver ↦ ?_,
        forall_update (p := fun x ↦ x.failed = false) h.noneFailed rfl,
        forall_update (p := NvmlPhase.Counts st.conns.length) h.counts trivial,
        fun u hu ↦ absurd (hu.symm.trans (NvmlPhase.Waits.last (hwaits' u))) (by decide),
        fun htrue ↦ absurd htrue hconnected, fun _ ↦ ⟨hconns, hheld, hwaits'⟩,
        fun server hmem ↦ ?_⟩
      · show st.refcount - 1 = st.held + total NvmlPhase.refs (Function.update st.phase t .idle)
        rw [total_update, hx, h.refcount]
        show _ = _ + (_ + (0 - 1))
        omega
      · show (st.localCount : ℤ)
          = st.held + total NvmlPhase.localCalls (Function.update st.phase t .idle)
        rw [total_update, hx, h.localCount hhas]
        show _ = _ + (_ + (0 - 0))
        omega
      · have hserver' : st.conns[i]? = some server := hserver
        rw [hconns] at hserver'
        exact (nomatch hserver')
      · have hmem' : server ∈ st.conns := hmem
        rw [hconns] at hmem'
        exact (nomatch hmem')
    -- new connections: every count starts at 0, as nobody holds the library
    · obtain ⟨-, hheld, hwaits⟩ := h.disconnected (Bool.eq_false_of_not_eq_true hconnected)
      have hlast : ∀ u, (Function.update st.phase t .initLocal u).last = false :=
        forall_update (p := fun x ↦ x.last = false)
          (fun u ↦ NvmlPhase.Waits.last (x := st.phase u) (hwaits u)) rfl
      have hcalls : ∀ i, total (NvmlPhase.serverCalls i)
          (Function.update st.phase t .initLocal) = 0 := fun i ↦
        total_eq_zero (forall_update (p := fun x ↦ x.serverCalls i = 0)
          (fun u ↦ NvmlPhase.Waits.serverCalls (x := st.phase u) (hwaits u) i) rfl)
      refine Option.some.inj hstep ▸ ⟨?_, fun hhas ↦ ?_, fun i server hserver ↦ ?_,
        forall_update (p := fun x ↦ x.failed = false) h.noneFailed rfl,
        forall_update (p := NvmlPhase.Counts _) (fun u ↦ ?_) trivial,
        fun u hu ↦ absurd (hu.symm.trans (hlast u)) (by decide), fun _ _ ↦ ?_,
        fun hfalse ↦ (nomatch hfalse), fun server hmem hclosed ↦ ?_⟩
      · show st.refcount = st.held + total NvmlPhase.refs (Function.update st.phase t .initLocal)
        rw [total_update, hx, h.refcount]
        show _ = _ + (_ + (1 - 1))
        omega
      · show (st.localCount : ℤ)
          = st.held + total NvmlPhase.localCalls (Function.update st.phase t .initLocal)
        rw [total_update, hx, h.localCount hhas]
        show _ = _ + (_ + (0 - 0))
        omega
      · show (server.count : ℤ) = st.held
          + total (NvmlPhase.serverCalls i) (Function.update st.phase t .initLocal)
        rw [hcalls i, hheld, List.eq_of_mem_replicate (List.mem_of_getElem? hserver)]
        rfl
      · have hwait := hwaits u
        cases hu : st.phase u <;> first | trivial | (rw [hu] at hwait; exact hwait.elim)
      -- the thread that opens has counted itself, so the count is not 0
      · have hone : (st.phase t).refs ≤ total NvmlPhase.refs st.phase :=
          Foundation.le_total
            (fun u ↦ NvmlPhase.Waits.refs_nonneg (x := st.phase u) (hwaits u)) t
        rw [hx] at hone
        have hrefs := h.refcount
        rw [hheld] at hrefs
        have hopening : NvmlPhase.refs .opening = 1 := rfl
        show 0 < st.refcount
        omega
      · rw [List.eq_of_mem_replicate hmem] at hclosed
        exact (nomatch hclosed)
  · exact (nomatch hstep)

theorem Consistent.nvmlShutdown (h : st.Consistent hasLocal) {st' : NvmlState threads}
    (hok : 0 < st.refcount → st.connected = true ∧ (st.refcount = 1 → ∀ u, st.phase u = .idle))
    (hstep : st.nvmlShutdown t = some st') : st'.Consistent hasLocal := by
  rw [NvmlState.nvmlShutdown] at hstep
  split at hstep
  · next hx =>
    split_ifs at hstep with hzero
    · exact Option.some.inj hstep ▸ h
    -- a count above 0 is taken at once, and whether it was the last is remembered
    · obtain ⟨hconnected, hrest⟩ := hok (Int.not_le.mp hzero)
      have hself : Function.update st.phase t (.shutdownCheck (decide (st.refcount = 1))) t
          = .shutdownCheck (decide (st.refcount = 1)) := Function.update_self ..
      refine Option.some.inj hstep ▸ ⟨?_, fun hhas ↦ ?_, fun i server hserver ↦ ?_,
        forall_update (p := fun x ↦ x.failed = false) h.noneFailed rfl,
        forall_update (p := NvmlPhase.Counts st.conns.length) h.counts trivial,
        fun u hu ↦ ?_, fun _ hnone ↦ ?_, fun hfalse ↦ ?_, fun server hmem hclosed ↦ ?_⟩
      · show st.refcount - 1 = st.held + total NvmlPhase.refs (Function.update st.phase t _)
        rw [total_update, hx, h.refcount]
        show _ = _ + (_ + (-1 - 0))
        omega
      · show (st.localCount : ℤ)
          = st.held + total NvmlPhase.localCalls (Function.update st.phase t _)
        rw [total_update, hx, h.localCount hhas]
        show _ = _ + (_ + (0 - 0))
        omega
      · show (server.count : ℤ)
          = st.held + total (NvmlPhase.serverCalls i) (Function.update st.phase t _)
        rw [total_update, hx, h.servers i server hserver]
        show _ = _ + (_ + (0 - 0))
        omega
      -- of two shutdowns only one takes the last count, and then all others are idle
      · rcases eq_or_ne u t with rfl | hne
        · have hu' : (Function.update st.phase u
              (.shutdownCheck (decide (st.refcount = 1))) u).last = true := hu
          rw [hself] at hu'
          have hone : st.refcount = 1 := of_decide_eq_true hu'
          refine ⟨show st.refcount - 1 = 0 by omega, fun v hv ↦ ?_⟩
          exact (Function.update_of_ne hv _ st.phase).trans (hrest hone v)
        · have hu' : (st.phase u).last = true := by
            rwa [← Function.update_of_ne hne (.shutdownCheck (decide (st.refcount = 1))) st.phase]
          exact absurd (h.last u hu').1 (by omega)
      · have ht : (Function.update st.phase t
            (.shutdownCheck (decide (st.refcount = 1))) t).last = false := hnone t
        rw [hself] at ht
        have hnot : ¬st.refcount = 1 := of_decide_eq_false ht
        show 0 < st.refcount - 1
        omega
      · exact absurd (hconnected.symm.trans hfalse) (by decide)
      · obtain ⟨u, hu⟩ := h.closed server hmem hclosed
        have hulast := NvmlPhase.IsClosed.last (x := st.phase u) hu
        exact absurd (h.last u hulast).1 (by omega)
  · exact (nomatch hstep)

theorem Consistent.clearConnections (h : st.Consistent hasLocal) {st' : NvmlState threads}
    (hstep : st.clearConnections t = some st') : st'.Consistent hasLocal := by
  have hfailed := h.noneFailed t
  rw [NvmlState.clearConnections] at hstep
  split at hstep
  · next failed hx =>
    rw [hx] at hfailed
    obtain rfl : failed = false := hfailed
    obtain ⟨hzero, hothers⟩ := h.last t (by rw [hx]; rfl)
    -- Before the step only this thread has contributed, and afterwards none has.
    have hbefore : ∀ weight : NvmlPhase → ℤ, weight .idle = 0 →
        total weight st.phase = weight (.closed false) := by
      intro weight hweight
      rw [total_eq_of_others (t := t) fun u hu ↦ by rw [hothers u hu, hweight], hx]
    have hidle : ∀ u, Function.update st.phase t .idle u = .idle := by
      intro u
      rcases eq_or_ne u t with rfl | hne
      · exact Function.update_self ..
      · exact (Function.update_of_ne hne _ _).trans (hothers u hne)
    have hafter : ∀ weight : NvmlPhase → ℤ, weight .idle = 0 →
        total weight (Function.update st.phase t .idle) = 0 := fun weight hweight ↦
      total_eq_zero fun u ↦ by rw [hidle u, hweight]
    have hrefs := h.refcount
    rw [hzero, hbefore _ rfl] at hrefs
    have hheld : st.held = 1 := by
      have hone : NvmlPhase.refs (.closed false) = -1 := rfl
      omega
    have hheld' : (st.inits : ℤ) - (st.shutdowns + 1 : ℕ) = 0 := by
      have hdef : st.held = (st.inits : ℤ) - st.shutdowns := rfl
      omega
    refine Option.some.inj hstep ▸ ⟨?_, fun hhas ↦ ?_, fun i server hserver ↦ (nomatch hserver),
      fun u ↦ ?_, fun u ↦ ?_, fun u hu ↦ ?_, fun htrue ↦ (nomatch htrue),
      fun _ ↦ ⟨rfl, hheld', fun u ↦ ?_⟩, fun server hmem ↦ (nomatch hmem)⟩
    · show st.refcount = ((st.inits : ℤ) - (st.shutdowns + 1 : ℕ))
        + total NvmlPhase.refs (Function.update st.phase t .idle)
      rw [hheld', hafter _ rfl, hzero, add_zero]
    · show (st.localCount : ℤ) = ((st.inits : ℤ) - (st.shutdowns + 1 : ℕ))
        + total NvmlPhase.localCalls (Function.update st.phase t .idle)
      rw [hheld', hafter _ rfl, h.localCount hhas, hbefore _ rfl, hheld]
      rfl
    · show (Function.update st.phase t .idle u).failed = false
      rw [hidle u]
      rfl
    · show (Function.update st.phase t .idle u).Counts _
      rw [hidle u]
      trivial
    · have hu' : (Function.update st.phase t .idle u).last = true := hu
      rw [hidle u] at hu'
      exact (nomatch hu')
    · show (Function.update st.phase t .idle u).Waits
      rw [hidle u]
      trivial
  · exact (nomatch hstep)

theorem Consistent.step (h : st.Consistent hasLocal) {action : NvmlAction threads}
    {st' : NvmlState threads} (hok : action.Orderly hasLocal st)
    (hstep : nvmlStep hasLocal st action = some st') : st'.Consistent hasLocal := by
  rcases action with t | ⟨t, servers⟩ | ⟨t, ok⟩ | ⟨t, ok⟩ | t | t | t | t | t
  · exact h.nvmlInit hok hstep
  · exact h.openConnection hstep
  · exact h.callLocal hok hstep
  · exact h.callServer hok hstep
  · exact h.endCalls hstep
  · exact h.nvmlShutdown hok hstep
  · exact h.checkConnected hstep
  · exact h.closeSockets hstep
  · exact h.clearConnections hstep

theorem consistent_init : ({} : NvmlState threads).Consistent hasLocal := by
  have hzero : ∀ weight : NvmlPhase → ℤ, weight .idle = 0 →
      total weight (fun _ : Fin threads ↦ NvmlPhase.idle) = 0 :=
    fun weight hweight ↦ total_eq_zero fun _ ↦ hweight
  refine ⟨?_, fun _ ↦ ?_, fun i server hserver ↦ (nomatch hserver), fun _ ↦ rfl, fun _ ↦ trivial,
    fun _ hlast ↦ (nomatch hlast), fun htrue ↦ (nomatch htrue),
    fun _ ↦ ⟨rfl, rfl, fun _ ↦ trivial⟩, fun server hmem ↦ (nomatch hmem)⟩
  · show (0 : ℤ) = (0 : ℤ) - 0 + total NvmlPhase.refs _
    rw [hzero _ rfl]
    rfl
  · show (0 : ℤ) = (0 : ℤ) - 0 + total NvmlPhase.localCalls _
    rw [hzero _ rfl]
    rfl

end NvmlState

/-! ## The runs -/

/-- **The counts agree whenever all threads are at rest**, when the parties do not fail and the last
shutdown overlaps no other call. -/
theorem nvml_counts_agree {threads : ℕ} {hasLocal : Bool} {actions : List (NvmlAction threads)}
    {st : NvmlState threads}
    (hrun : ((nvmlClient threads hasLocal).restrict fun st action ↦ action.Orderly hasLocal st).run
      {} actions = some st)
    (hidle : ∀ t, st.phase t = .idle) : st.Balanced hasLocal := by
  refine NvmlState.Consistent.balanced ?_ hidle
  refine Machine.run_invariant _ ?_ NvmlState.consistent_init hrun
  intro st action st' hst hstep
  obtain ⟨hok, hstep⟩ := Machine.step_restrict.mp hstep
  exact hst.step hok hstep

/-- Two inits and a shutdown that overlap, on two servers. -/
theorem nvml_counts_agree_twoThreads : ∃ st : NvmlState 2,
    ((nvmlClient 2 true).restrict fun st action ↦ action.Orderly true st).run {}
      [.nvmlInit 0, .openConnection 0 2, .callLocal 0 true, .callServer 0 true,
        .callServer 0 true, .endCalls 0, .nvmlInit 1, .nvmlShutdown 0, .checkConnected 0,
        .callLocal 0 true, .openConnection 1 0, .callServer 0 true, .callLocal 1 true,
        .callServer 1 true, .callServer 1 true, .callServer 0 true, .endCalls 1, .endCalls 0]
      = some st ∧ st.Balanced true := by
  have hrun : ∃ st : NvmlState 2,
      ((nvmlClient 2 true).restrict fun st action ↦ action.Orderly true st).run {}
        [.nvmlInit 0, .openConnection 0 2, .callLocal 0 true, .callServer 0 true,
          .callServer 0 true, .endCalls 0, .nvmlInit 1, .nvmlShutdown 0, .checkConnected 0,
          .callLocal 0 true, .openConnection 1 0, .callServer 0 true, .callLocal 1 true,
          .callServer 1 true, .callServer 1 true, .callServer 0 true, .endCalls 1, .endCalls 0]
        = some st ∧ ∀ t, st.phase t = .idle := ⟨_, rfl, by decide⟩
  obtain ⟨st, hrun, hidle⟩ := hrun
  exact ⟨st, hrun, nvml_counts_agree hrun hidle⟩

/-- An init that a server refuses stays counted. -/
theorem failed_init_counted : ∃ st : NvmlState 1,
    (nvmlClient 1 false).run {}
      [.nvmlInit 0, .openConnection 0 1, .callLocal 0 true, .callServer 0 false, .endCalls 0]
      = some st ∧ (∀ t, st.phase t = .idle) ∧ ¬st.Balanced false := by
  refine ⟨_, rfl, by decide, fun h ↦ ?_⟩
  exact absurd h.refcount (by decide)

theorem init_loses_connections : ∃ st : NvmlState 2,
    (nvmlClient 2 false).run {}
      [.nvmlInit 0, .openConnection 0 1, .callLocal 0 true, .callServer 0 true, .endCalls 0,
        .nvmlShutdown 0, .checkConnected 0, .callLocal 0 true, .callServer 0 true, .endCalls 0,
        .nvmlInit 1, .openConnection 1 1, .callLocal 1 true, .callServer 1 true, .endCalls 1,
        .closeSockets 0, .clearConnections 0]
      = some st ∧ (∀ t, st.phase t = .idle) ∧ ¬st.Balanced false := by
  refine ⟨_, rfl, by decide, fun h ↦ ?_⟩
  exact absurd (h.connected.mpr (by decide)) (by decide)

end Lupine
