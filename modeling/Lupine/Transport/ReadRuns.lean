import Lupine.Foundation.History
import Lupine.Foundation.Machine
import Lupine.Transport.StagedReads

/-!
# The outputs of the reads

A step of a run is one call of `rpc_http2_read`, with what the network brings in the meantime. The
outputs of the calls that succeed should follow one another in the stream.

## A failed read

A network read may fail after its chunks have been delivered, when what nghttp2 has to send cannot
be sent. Writers give up from then on, since `transport_failed` is set; readers do not look at it. A
read that comes after takes what was staged, and what the failed one had taken is missing from the
outputs. The same happens after a read of 2 GiB, whose result is negative as an `int`.

## What is left of the stream

While no read has failed for which there were bytes, what is staged is exactly what the reads have
left of the stream, so a read takes what comes next. Reads of no bytes do nothing and may fail at
any time. The count of staged bytes is right in every run, whatever has failed.
-/

namespace Lupine

open Foundation

/-! ## Runs

A record has the buffer before and after the call, so that a read which fails can be shown to have
stored a front all the same. -/

/-- A call of `rpc_http2_read`: the buffer before and after it, its result, how much it has copied,
and what its network reads have brought. -/
structure ReadRecord where
  size : ℕ
  before : List UInt8
  result : ℤ
  copied : ℕ
  brought : List UInt8
  after : List UInt8
  deriving DecidableEq, Repr

/-- The output of a read that does not return a negative value. -/
def ReadRecord.output (r : ReadRecord) : List UInt8 :=
  if 0 ≤ r.result then r.after.take r.size else []

/-- A connection: its transport, the stream as far as the network has brought it, and the reads. -/
structure ReadRun where
  transport : H2Inbound := {}
  stream : List UInt8 := []
  reads : List ReadRecord := []

/-- A network read of the handshake, or a call of `rpc_http2_read` with its network reads. -/
inductive ReadStep where
  | handshake (net : NetRead)
  | read (data : List UInt8) (size : ℕ) (nets : List NetRead)

/-- The reads of a connection. A handshake that fails gives no connection. -/
def stagedReads : Machine ReadRun ReadStep where
  step
    | s, .handshake net =>
      let read := s.transport.readFromNet none 0 net
      if read.1 < 0 then none
      else some { s with transport := read.2.2, stream := s.stream ++ net.bytes }
    | s, .read data size nets =>
      if size ≤ data.length then
        (rpcHttp2Read s.transport data size nets).bind fun outcome ↦
          if outcome.rest = [] then
            let brought := nets.flatMap NetRead.bytes
            some {
              transport := outcome.transport
              stream := s.stream ++ brought
              reads := s.reads ++ [⟨size, data, outcome.result, outcome.copied, brought,
                outcome.transport.data⟩] }
          else none
      else none

/-! ## What is to be shown

The outputs of the reads that succeed are a prefix of the stream; what failed reads have stored is
not among them. -/

/-- The outputs of the reads that succeeded, one after the other. -/
def outputs (reads : List ReadRecord) : List UInt8 := reads.flatMap ReadRecord.output

/-- The outputs are a prefix of the stream. The count of staged bytes is right. A read that failed
has stored what comes next in the stream, and nothing else. -/
structure ReadsRight (s : ReadRun) : Prop where
  prefix_stream : outputs s.reads <+: s.stream
  stagedBytes_eq : s.transport.stagedBytes = s.transport.unread.length
  failed : ∀ earlier r later, s.reads = earlier ++ r :: later → r.result < 0 →
    ∃ stored, r.after = stored ++ r.before.drop stored.length ∧
      outputs earlier ++ stored <+: s.stream

/-- No read has failed for which there were bytes. -/
def ReadRun.Whole (s : ReadRun) : Prop :=
  ∀ r ∈ s.reads, r.result < 0 → r.copied = 0 ∧ r.brought = []

instance (s : ReadRun) : Decidable s.Whole := List.decidableBAll _ _

/-- Once such a read has failed, no bytes are read. -/
def WhileWhole (s : ReadRun) : ReadStep → Prop
  | .handshake _ => True
  | .read _ size _ => size = 0 ∨ s.Whole

instance (s : ReadRun) : ∀ step, Decidable (WhileWhole s step)
  | .handshake _ => instDecidableTrue
  | .read _ _ _ => instDecidableOr

/-! ## Runs whose reads are in order

The stream may go on without a read, as the handshake stages what it brings. -/

section Runs

variable {s s' : ReadRun}

/-- What holds while no read has failed for which there were bytes: what is staged is what the reads
have left of the stream. -/
structure ReadInv (s : ReadRun) : Prop where
  right : ReadsRight s
  idle : s.transport.readDestination = none
  whole : s.Whole → outputs s.reads ++ s.transport.unread = s.stream

theorem outputs_concat (reads : List ReadRecord) (r : ReadRecord) :
    outputs (reads ++ [r]) = outputs reads ++ r.output := by
  rw [outputs, List.flatMap_append, List.flatMap_singleton]
  rfl

theorem readInv_init : ReadInv {} where
  right := ⟨List.prefix_refl _, rfl, fun earlier r later h ↦ by
    exact absurd h.symm (List.append_ne_nil_of_right_ne_nil _ (List.cons_ne_nil _ _))⟩
  idle := rfl
  whole _ := rfl

theorem ReadsRight.extend (h : ReadsRight s) (t : H2Inbound) (more : List UInt8)
    (hcount : t.stagedBytes = t.unread.length) :
    ReadsRight { s with transport := t, stream := s.stream ++ more } where
  prefix_stream := h.prefix_stream.trans (List.prefix_append _ _)
  stagedBytes_eq := hcount
  failed earlier r later hreads hneg := by
    obtain ⟨stored, hafter, hprefix⟩ := h.failed earlier r later hreads hneg
    exact ⟨stored, hafter, hprefix.trans (List.prefix_append _ _)⟩

theorem ReadsRight.concat (h : ReadsRight s) {r : ReadRecord}
    (houtputs : outputs (s.reads ++ [r]) <+: s.stream)
    (hfailed : r.result < 0 → ∃ stored, r.after = stored ++ r.before.drop stored.length ∧
      outputs s.reads ++ stored <+: s.stream) :
    ReadsRight { s with reads := s.reads ++ [r] } where
  prefix_stream := houtputs
  stagedBytes_eq := h.stagedBytes_eq
  failed earlier r' later hreads hneg := by
    rcases concat_eq_append_cons hreads with ⟨rfl, rfl⟩ | ⟨later', hold⟩
    · exact hfailed hneg
    · exact h.failed earlier r' later' hold hneg

theorem whole_concat {reads : List ReadRecord} {r : ReadRecord} {t : H2Inbound}
    {stream : List UInt8} (h : ReadRun.Whole ⟨t, stream, reads ++ [r]⟩) :
    ReadRun.Whole ⟨t, stream, reads⟩ ∧ (r.result < 0 → r.copied = 0 ∧ r.brought = []) := by
  obtain ⟨hold, hnew⟩ := List.forall_mem_append.mp h
  exact ⟨hold, hnew r (List.mem_singleton_self r)⟩

theorem ReadInv.handshake (h : ReadInv s) {net : NetRead}
    (hstep : stagedReads.step s (.handshake net) = some s') : ReadInv s' := by
  have hstart : Reading s.transport.data [] s.transport :=
    ⟨filled_nil _, h.right.stagedBytes_eq, h.idle⟩
  have hwaiting : 0 ≠ 0 → none = some ([] : List UInt8).length ∧ s.transport.localOut = [] :=
    fun hne ↦ absurd rfl hne
  obtain ⟨got, direct, hpass, hend, -, hnone, -, ⟨hzero, rfl⟩ | hneg⟩ :=
    hstart.readFromNet hwaiting net
  · obtain rfl := List.length_eq_zero_iff.mp (Nat.le_zero.mp hnone)
    dsimp only [stagedReads] at hstep
    rw [if_neg (by rw [hzero]; decide)] at hstep
    obtain rfl := Option.some.inj hstep
    refine ⟨h.right.extend _ _ hend.stagedBytes_eq, hend.idle, fun hwhole ↦ ?_⟩
    have hstaged : s.transport.unread ++ net.bytes =
        (s.transport.readFromNet none 0 net).2.2.unread := hpass
    rw [← hstaged, ← List.append_assoc, h.whole hwhole]
  · dsimp only [stagedReads] at hstep
    rw [if_pos (by rw [hneg]; decide)] at hstep
    exact absurd hstep.symm (Option.some_ne_none s')

theorem step_read {data : List UInt8} {size : ℕ} {nets : List NetRead}
    (hstep : stagedReads.step s (.read data size nets) = some s') :
    ∃ outcome, rpcHttp2Read s.transport data size nets = some outcome ∧ outcome.rest = [] ∧
      s' = ⟨outcome.transport, s.stream ++ nets.flatMap NetRead.bytes,
        s.reads ++ [⟨size, data, outcome.result, outcome.copied, nets.flatMap NetRead.bytes,
          outcome.transport.data⟩]⟩ := by
  dsimp only [stagedReads] at hstep
  split_ifs at hstep
  obtain ⟨outcome, hrun, hstep⟩ := Option.bind_eq_some_iff.mp hstep
  split_ifs at hstep with hrest
  exact ⟨outcome, hrun, hrest, (Option.some.inj hstep).symm⟩

/-- A read of no bytes does nothing. -/
theorem ReadInv.read_zero (h : ReadInv s) {data : List UInt8} {nets : List NetRead}
    (hstep : stagedReads.step s (.read data 0 nets) = some s') : ReadInv s' := by
  obtain ⟨outcome, hrun, hrest, rfl⟩ := step_read hstep
  rw [rpcHttp2Read, rpcHttp2ReadLoop.eq_def, if_neg (Nat.lt_irrefl 0), staticCastInt_zero] at hrun
  obtain rfl := Option.some.inj hrun
  obtain rfl : nets = [] := hrest
  have houtput : outputs (s.reads ++ [⟨0, data, 0, 0, [], data⟩]) = outputs s.reads := by
    rw [outputs_concat]
    exact List.append_nil _
  have hright := h.right.extend { s.transport with data := data } [] h.right.stagedBytes_eq
  refine ⟨hright.concat ?_ fun hneg ↦ absurd hneg (lt_irrefl (0 : ℤ)), h.idle,
    fun hwhole ↦ ?_⟩
  · exact houtput.symm ▸ hright.prefix_stream
  · exact (congrArg (· ++ s.transport.unread) houtput).trans
      ((h.whole (whole_concat hwhole).1).trans (List.append_nil _).symm)

theorem ReadInv.read (h : ReadInv s) (hwhole : s.Whole) {data : List UInt8} {size : ℕ}
    {nets : List NetRead} (hstep : stagedReads.step s (.read data size nets) = some s') :
    ReadInv s' := by
  obtain ⟨outcome, hrun, hrest, rfl⟩ := step_read hstep
  obtain ⟨made, got, out, hnets, hpass, hreading, hcopied, hgot, hall⟩ :=
    rpcHttp2Read_spec h.idle h.right.stagedBytes_eq data hrun
  obtain rfl : nets = made := by rw [hnets, hrest, List.append_nil]
  have hstream : outputs s.reads ++ out ++ outcome.transport.unread = s.stream ++ got := by
    rw [List.append_assoc, ← hpass, ← List.append_assoc, h.whole hwhole]
  have hstored : outputs s.reads ++ out <+: s.stream ++ nets.flatMap NetRead.bytes := by
    have hfront : outputs s.reads ++ out <+: s.stream ++ got := ⟨_, hstream⟩
    exact hfront.trans ((List.prefix_append_right_inj s.stream).mpr hgot)
  have hright := h.right.extend outcome.transport (nets.flatMap NetRead.bytes)
    hreading.stagedBytes_eq
  by_cases hnonneg : 0 ≤ outcome.result
  · -- a read that succeeds outputs what it has taken
    obtain ⟨rfl, hsize, -⟩ := hall hnonneg
    obtain rfl : out.length = size := hcopied.symm.trans hsize
    have houtput : outputs (s.reads ++ [⟨out.length, data, outcome.result, outcome.copied,
        nets.flatMap NetRead.bytes, outcome.transport.data⟩]) = outputs s.reads ++ out := by
      rw [outputs_concat, ReadRecord.output, if_pos hnonneg]
      exact congrArg _ hreading.filled.take_eq
    refine ⟨hright.concat ?_ fun hneg ↦ absurd hneg (not_lt.mpr hnonneg), hreading.idle,
      fun _ ↦ ?_⟩
    · rw [houtput]
      exact hstored
    · rw [houtput]
      exact hstream
  · -- a read that fails outputs nothing, and nothing is read after it if it has taken something
    have houtput : outputs (s.reads ++ [⟨size, data, outcome.result, outcome.copied,
        nets.flatMap NetRead.bytes, outcome.transport.data⟩]) = outputs s.reads := by
      rw [outputs_concat, ReadRecord.output, if_neg hnonneg, List.append_nil]
    refine ⟨hright.concat ?_ fun _ ↦ ⟨out, hreading.filled, hstored⟩, hreading.idle,
      fun hwhole' ↦ ?_⟩
    · rw [houtput]
      exact hright.prefix_stream
    · obtain ⟨hnone, hnothing⟩ := (whole_concat hwhole').2 (not_le.mp hnonneg)
      dsimp only at hnone hnothing
      rw [hnothing, List.prefix_nil] at hgot
      obtain rfl := List.length_eq_zero_iff.mp (hcopied.symm.trans hnone)
      rw [houtput, hnothing, ← hgot, ← hstream, List.append_nil]

/-- **Reads.** While no bytes are read after a read that failed and for which there were bytes, the
outputs are a prefix of the stream, the count of staged bytes is right, and a read that fails has
stored what comes next in the stream and nothing else. -/
theorem readsRight_of_run {steps : List ReadStep}
    (hrun : (stagedReads.restrict WhileWhole).run {} steps = some s) : ReadsRight s := by
  have hinv : ReadInv s := by
    refine Machine.run_invariant _ ?_ readInv_init hrun
    intro s step s' h hstep
    obtain ⟨hok, hstep⟩ := Machine.step_restrict.mp hstep
    cases step with
    | handshake net => exact h.handshake hstep
    | read data size nets =>
      rcases hok with rfl | hwhole
      · exact h.read_zero hstep
      · exact h.read hwhole hstep
  exact hinv.right

/-- The count of staged bytes is right in every run, whatever has failed. -/
theorem stagedBytes_of_run {steps : List ReadStep} (hrun : stagedReads.run {} steps = some s) :
    s.transport.stagedBytes = s.transport.unread.length := by
  have hinv : s.transport.stagedBytes = s.transport.unread.length ∧
      s.transport.readDestination = none := by
    refine Machine.run_invariant (I := fun s ↦ s.transport.stagedBytes = s.transport.unread.length ∧
      s.transport.readDestination = none) _ ?_ ⟨rfl, rfl⟩ hrun
    rintro s step s' ⟨hcount, hidle⟩ hstep
    cases step with
    | handshake net =>
      have hstart : Reading s.transport.data [] s.transport := ⟨filled_nil _, hcount, hidle⟩
      have hwaiting : 0 ≠ 0 → none = some ([] : List UInt8).length ∧ s.transport.localOut = [] :=
        fun hne ↦ absurd rfl hne
      obtain ⟨_, _, -, hend, -⟩ := hstart.readFromNet hwaiting net
      dsimp only [stagedReads] at hstep
      split_ifs at hstep
      obtain rfl := Option.some.inj hstep
      exact ⟨hend.stagedBytes_eq, hend.idle⟩
    | read data size nets =>
      obtain ⟨outcome, hread, -, rfl⟩ := step_read hstep
      obtain ⟨_, _, _, -, -, hreading, -⟩ := rpcHttp2Read_spec hidle hcount data hread
      exact ⟨hreading.stagedBytes_eq, hreading.idle⟩
  exact hinv.1

end Runs

/-! ## A chunk longer than the read that fails -/

def eightBytes : List UInt8 := [1, 2, 3, 4, 5, 6, 7, 8]

/-- All eight arrive while four are read, but the session cannot be flushed. The next read takes the
other four. -/
def readsAcrossFailure : List ReadStep :=
  [.read [0, 0, 0, 0] 4 [.arrived [.chunk eightBytes] false], .read [0, 0, 0, 0] 4 []]

/-- The first four bytes are missing from the outputs. -/
theorem output_after_failure_not_prefix :
    ¬∀ s, stagedReads.run {} readsAcrossFailure = some s → ReadsRight s := by
  intro h
  have hpair : (stagedReads.run {} readsAcrossFailure).map (fun s ↦ (outputs s.reads, s.stream)) =
      some ([5, 6, 7, 8], eightBytes) := by decide +kernel
  obtain ⟨s, hrun, hpair⟩ := Option.map_eq_some_iff.mp hpair
  obtain ⟨houtputs, hstream⟩ := Prod.mk.inj hpair
  have hprefix := (h s hrun).prefix_stream
  rw [houtputs, hstream] at hprefix
  exact absurd hprefix (by decide)

/-- The handshake stages two bytes of the stream; a read of five takes them, and three of the other
six; no bytes, then the last three. -/
def readsAcrossChunks : List ReadStep :=
  [.handshake (.arrived [.status 200, .chunk [1, 2]] true),
    .read [0, 0, 0, 0, 0] 5 [.arrived [.chunk [3]] true, .arrived [.chunk [4, 5, 6, 7, 8]] true],
    .read [] 0 [], .read [0, 0, 0] 3 []]

/-- They output the stream. -/
theorem readsRight_across_chunks :
    ∃ s, (stagedReads.restrict WhileWhole).run {} readsAcrossChunks = some s ∧
      outputs s.reads = eightBytes ∧ ReadsRight s := by
  have houtputs : ((stagedReads.restrict WhileWhole).run {} readsAcrossChunks).map
      (fun s ↦ outputs s.reads) = some eightBytes := by decide +kernel
  obtain ⟨s, hrun, houtputs⟩ := Option.map_eq_some_iff.mp houtputs
  exact ⟨s, hrun, houtputs, readsRight_of_run hrun⟩

end Lupine
