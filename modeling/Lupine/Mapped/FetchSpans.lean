import Lupine.Mapped.DemandFetch
import Mathlib.Algebra.Group.Nat.Even

/-!
# Spans of demand fetches

A fault in a stale chunk of a mapped allocation fetches the chunk, and more: a fault where the last
fetch ended doubles the window, up to 4 MiB. The fetch stops at the first fresh chunk, where the
host may have written since, and at the end of the storage.

## The window and the cap

The cap is one of the window, not of a fetch. Once the window has reached the cap, the next fault in
sequence fetches to the end of the storage. The windows are whole chunks, so a fetch of a window
does not go beyond it.

Protections, and what may happen while a fetch is in flight, are in `Lupine.Mapped.DemandFetch`.

## Runs and spans

A run begins at a chunk and ends at its limit or before a fresh chunk. Cut at the end of the storage
it is a span, and a fetch of a span is right: the chunks of the span are fresh afterwards, they
alone, and only if it succeeds. A fault and a range that is made fresh differ in the limit only.
-/

namespace Lupine

open Foundation

/-! ## A mapped allocation

The size of the window is a whole number of chunks, and at most the cap unless it starts above. -/

/-- `LUPINE_DEMAND_FETCH_CHUNK_BYTES`. -/
def demandFetchChunkBytes : ℕ := 64 * 1024

/-- `LUPINE_DEMAND_FETCH_READAHEAD_CAP`. -/
def demandFetchReadaheadCap : ℕ := 4 * 1024 * 1024

/-- What a fetch looks at, and changes, of an allocation that is tracked. -/
structure MappedMirror where
  size : ℕ
  storageSize : ℕ
  freshChunks : ℕ → Bool
  fetchSeqNext : ℕ
  fetchReadahead : ℕ
  size_le : size ≤ storageSize
  readahead_dvd : demandFetchChunkBytes ∣ fetchReadahead
  readahead_le : fetchReadahead ≤ demandFetchReadaheadCap

/-- The loop that looks for the end of a stale run. -/
def staleEnd (freshChunks : ℕ → Bool) (limit stop : ℕ) : ℕ :=
  if stop < limit ∧ freshChunks (stop / demandFetchChunkBytes) = false then
    staleEnd freshChunks limit (stop + demandFetchChunkBytes)
  else stop
termination_by limit - stop
decreasing_by
  rw [demandFetchChunkBytes]
  omega

/-- A chunk begins in the span. -/
def InSpan (start stop index : ℕ) : Prop :=
  start ≤ index * demandFetchChunkBytes ∧ index * demandFetchChunkBytes < stop

instance (start stop index : ℕ) : Decidable (InSpan start stop index) :=
  inferInstanceAs (Decidable (_ ∧ _))

namespace MappedMirror

variable (m : MappedMirror)

/-- `fresh_chunk_count`. -/
def freshChunkCount : ℕ :=
  (m.storageSize + demandFetchChunkBytes - 1) / demandFetchChunkBytes

def markFresh (freshChunks : ℕ → Bool) (start stop : ℕ) : ℕ → Bool := fun index ↦
  if start / demandFetchChunkBytes ≤ index ∧
      index < (stop + demandFetchChunkBytes - 1) / demandFetchChunkBytes ∧
      index < m.freshChunkCount then true
  else freshChunks index

def dataBytes (start stop : ℕ) : ℕ := if start < m.size then min stop m.size - start else 0

/-- The fault is where the last fetch ended. -/
def Sequential (start : ℕ) : Prop :=
  start ≠ 0 ∧ start = m.fetchSeqNext ∧ demandFetchChunkBytes ≤ m.fetchReadahead

instance (start : ℕ) : Decidable (m.Sequential start) := inferInstanceAs (Decidable (_ ∧ _))

/-- The new `fetch_readahead`. -/
def nextReadahead (start : ℕ) : ℕ :=
  if m.Sequential start then
    if demandFetchReadaheadCap ≤ m.fetchReadahead then m.fetchReadahead
    else min (m.fetchReadahead * 2) demandFetchReadaheadCap
  else demandFetchChunkBytes

/-- `limit`, before it is cut at the end of the storage. -/
def fetchLimit (start : ℕ) : ℕ :=
  if m.Sequential start ∧ demandFetchReadaheadCap ≤ m.fetchReadahead then m.storageSize
  else start + m.nextReadahead start

theorem nextReadahead_dvd (start : ℕ) : demandFetchChunkBytes ∣ m.nextReadahead start := by
  have hcap : demandFetchChunkBytes ∣ demandFetchReadaheadCap := ⟨64, rfl⟩
  rw [nextReadahead]
  split_ifs
  · exact m.readahead_dvd
  · rcases Nat.le_total (m.fetchReadahead * 2) demandFetchReadaheadCap with hle | hle
    · rw [Nat.min_eq_left hle]
      exact Nat.dvd_mul_right_of_dvd m.readahead_dvd 2
    · rwa [Nat.min_eq_right hle]
  · exact Nat.dvd_refl _

theorem nextReadahead_le (start : ℕ) : m.nextReadahead start ≤ demandFetchReadaheadCap := by
  rw [nextReadahead]
  split_ifs
  · exact m.readahead_le
  · exact Nat.min_le_right _ _
  · decide

def setReadahead (start : ℕ) : MappedMirror :=
  { m with
    fetchReadahead := m.nextReadahead start
    readahead_dvd := m.nextReadahead_dvd start
    readahead_le := m.nextReadahead_le start }

/-- `fetch_seq_next` is set. -/
def setFetchSeqNext (next : ℕ) : MappedMirror := { m with fetchSeqNext := next }

theorem setReadahead_freshChunks (start : ℕ) :
    (m.setReadahead start).freshChunks = m.freshChunks := rfl

theorem setFetchSeqNext_freshChunks (next : ℕ) :
    (m.setFetchSeqNext next).freshChunks = m.freshChunks := rfl

end MappedMirror

/-- What a fetch returns, its span, and what it leaves. -/
structure FetchOutcome where
  ok : Bool
  start : ℕ
  stop : ℕ
  mirror : MappedMirror

/-- `lupine_demand_fetch_run` with its span; `fetch` is `lupine_fetch_stale_range`. -/
def fetchSpan (fetch : ℕ → ℕ → Bool) (m : MappedMirror) (start stop : ℕ) : FetchOutcome :=
  let widened := m.setReadahead start
  if stop ≤ start then
    ⟨true, start, stop, widened.setFetchSeqNext (start + demandFetchChunkBytes)⟩
  else if m.dataBytes start stop ≠ 0 ∧ fetch start (m.dataBytes start stop) = false then
    ⟨false, start, stop, widened⟩
  else
    ⟨true, start, stop,
      { widened.setFetchSeqNext stop with freshChunks := m.markFresh m.freshChunks start stop }⟩

/-- Where a fetch that begins at a chunk ends. -/
def MappedMirror.fetchStop (m : MappedMirror) (start : ℕ) : ℕ :=
  min (staleEnd m.freshChunks (min (m.fetchLimit start) m.storageSize) start) m.storageSize

/-- `lupine_demand_fetch_run`. -/
def demandFetchRun (fetch : ℕ → ℕ → Bool) (m : MappedMirror) (faultOffset : ℕ) : FetchOutcome :=
  let start := faultOffset / demandFetchChunkBytes * demandFetchChunkBytes
  fetchSpan fetch m start (m.fetchStop start)

/-! ## The runs of a range

The loop goes from one stale run to the next, and each of its fetches is on the chunks that the one
before has left. -/

theorem le_staleEnd (freshChunks : ℕ → Bool) (limit stop : ℕ) :
    stop ≤ staleEnd freshChunks limit stop := by
  induction stop using staleEnd.induct freshChunks limit with
  | case1 stop hmore ih =>
    rw [staleEnd, if_pos hmore]
    exact Nat.le_trans (Nat.le_add_right _ _) ih
  | case2 stop hdone => rw [staleEnd, if_neg hdone]

theorem lt_staleEnd {freshChunks : ℕ → Bool} {limit stop : ℕ} (h : stop < limit)
    (hstale : freshChunks (stop / demandFetchChunkBytes) = false) :
    stop < staleEnd freshChunks limit stop := by
  rw [staleEnd, if_pos ⟨h, hstale⟩]
  exact Nat.lt_of_lt_of_le (Nat.lt_add_of_pos_right (by decide)) (le_staleEnd _ _ _)

/-- A run of a range, with the chunks before its fetch and after. -/
structure FreshRun where
  ok : Bool
  start : ℕ
  stop : ℕ
  before : ℕ → Bool
  after : ℕ → Bool

/-- The loop of `lupine_make_mapped_range_fresh`: the runs that it fetches. -/
def freshRuns (fetch : ℕ → ℕ → Bool) (m : MappedMirror) {bound : ℕ} (hbound : bound ≤ m.storageSize)
    (freshChunks : ℕ → Bool) (position : ℕ) : List FreshRun :=
  if position < bound then
    if freshChunks (position / demandFetchChunkBytes) = false then
      let stop := min (staleEnd freshChunks bound position) m.storageSize
      if m.dataBytes position stop = 0 ∨ fetch position (m.dataBytes position stop) = true then
        let after := m.markFresh freshChunks position stop
        ⟨true, position, stop, freshChunks, after⟩ :: freshRuns fetch m hbound after stop
      else [⟨false, position, stop, freshChunks, freshChunks⟩]
    else freshRuns fetch m hbound freshChunks (position + demandFetchChunkBytes)
  else []
termination_by bound - position
decreasing_by
  · have hlt := lt_staleEnd ‹position < bound› ‹_›
    omega
  · rw [demandFetchChunkBytes]
    omega

/-- `lupine_make_mapped_range_fresh`, once it has set `device_stale`. -/
def makeMappedRangeFresh (fetch : ℕ → ℕ → Bool) (m : MappedMirror) (startOffset endOffset : ℕ) :
    List FreshRun :=
  freshRuns fetch m (Nat.min_le_right ((endOffset + demandFetchChunkBytes - 1) /
    demandFetchChunkBytes * demandFetchChunkBytes) m.storageSize) m.freshChunks
    (startOffset / demandFetchChunkBytes * demandFetchChunkBytes)

def freshAfter (freshChunks : ℕ → Bool) (runs : List FreshRun) : ℕ → Bool :=
  runs.foldl (fun _ run ↦ run.after) freshChunks

/-! ## What a fetch does right

What may be read ahead depends on the window before the fault and on whether the fault is in
sequence. -/

/-- How much may be read ahead: a chunk; twice the window up to the cap, when the fault is in
sequence; and all there is, when the window had reached the cap. -/
def MappedMirror.readaheadBound (m : MappedMirror) (start : ℕ) : ℕ :=
  if ¬m.Sequential start then demandFetchChunkBytes
  else if m.fetchReadahead < demandFetchReadaheadCap then
    min (m.fetchReadahead * 2) demandFetchReadaheadCap
  else m.storageSize - start

/-- A fetch of a span that is in the storage and within a bound, and has no fresh chunk: its chunks
are fresh afterwards, they alone, and only if it succeeds. -/
structure FetchRight (storageSize bound : ℕ) (before after : ℕ → Bool) (ok : Bool)
    (start stop : ℕ) : Prop where
  inside : stop ≤ storageSize
  bounded : stop ≤ start + bound
  stale : ∀ index, InSpan start stop index → before index = false
  fetched : ok = true → ∀ index, after index = true ↔ before index = true ∨ InSpan start stop index
  failed : ok = false → after = before

/-! ## The end of a run

The loop is over chunks, and stops at the first that is fresh. -/

section Run

variable {freshChunks : ℕ → Bool} {limit first last : ℕ}

/-- A run ends where a chunk begins: at the limit, or before a fresh chunk. -/
theorem staleEnd_spec (freshChunks : ℕ → Bool) (limit first : ℕ) :
    ∃ last, staleEnd freshChunks limit (first * demandFetchChunkBytes) =
        last * demandFetchChunkBytes ∧ first ≤ last ∧
      (∀ index, first ≤ index → index < last →
        freshChunks index = false ∧ index * demandFetchChunkBytes < limit) ∧
      (limit ≤ last * demandFetchChunkBytes ∨ freshChunks last = true) := by
  have hdiv : ∀ index, index * demandFetchChunkBytes / demandFetchChunkBytes = index :=
    fun index ↦ Nat.mul_div_cancel index (by decide)
  generalize hstop : first * demandFetchChunkBytes = stop
  induction stop using staleEnd.induct freshChunks limit generalizing first with
  | case1 stop hmore ih =>
    obtain ⟨hlimit, hstale⟩ := hmore
    rw [← hstop, hdiv] at hstale
    have hnext : (first + 1) * demandFetchChunkBytes = stop + demandFetchChunkBytes := by
      rw [Nat.succ_mul, hstop]
    obtain ⟨last, hend, hle, hrun, hedge⟩ := ih _ hnext
    refine ⟨last, ?_, Nat.le_of_succ_le hle, fun index hlow hhigh ↦ ?_, hedge⟩
    · rw [staleEnd, if_pos ⟨hlimit, by rwa [← hstop, hdiv]⟩, hend]
    · rcases Nat.eq_or_lt_of_le hlow with rfl | hlow
      · exact ⟨hstale, hstop ▸ hlimit⟩
      · exact hrun index hlow hhigh
  | case2 stop hdone =>
    refine ⟨first, ?_, le_rfl, fun index hlow hhigh ↦ absurd hhigh hlow.not_gt, ?_⟩
    · rw [staleEnd, if_neg hdone, hstop]
    · rw [not_and_or, Nat.not_lt, ← hstop, hdiv] at hdone
      exact hdone.imp_right eq_true_of_ne_false

/-- A run that is cut at the end of the storage: from a chunk on, up to a limit within the storage,
with no fresh chunk in it, and with the first chunk if that is stale. -/
structure SpanRight (freshChunks : ℕ → Bool) (storageSize limit first stop : ℕ) : Prop where
  inside : stop ≤ storageSize
  bounded : ∀ windows, limit ≤ windows * demandFetchChunkBytes → first ≤ windows →
    stop ≤ windows * demandFetchChunkBytes
  stale : ∀ index, InSpan (first * demandFetchChunkBytes) stop index → freshChunks index = false
  below : ∀ index, InSpan (first * demandFetchChunkBytes) stop index →
    index * demandFetchChunkBytes < limit
  covers : freshChunks first = false → first * demandFetchChunkBytes < limit →
    min ((first + 1) * demandFetchChunkBytes) storageSize ≤ stop

/-- **The span** of a run. -/
theorem spanRight_staleEnd (freshChunks : ℕ → Bool) {storageSize : ℕ} (limit first : ℕ) :
    SpanRight freshChunks storageSize limit first
      (min (staleEnd freshChunks limit (first * demandFetchChunkBytes)) storageSize) := by
  obtain ⟨last, hend, hle, hrun, hedge⟩ := staleEnd_spec freshChunks limit first
  rw [hend]
  have hspan : ∀ index, InSpan (first * demandFetchChunkBytes)
      (min (last * demandFetchChunkBytes) storageSize) index →
        freshChunks index = false ∧ index * demandFetchChunkBytes < limit := by
    rintro index ⟨hstart, hstop⟩
    have hlow := Nat.le_of_mul_le_mul_right hstart (by decide)
    have hhigh := Nat.lt_of_mul_lt_mul_right (Nat.lt_of_lt_of_le hstop (Nat.min_le_left _ _))
    exact hrun index hlow hhigh
  refine ⟨Nat.min_le_right _ _, fun windows hlimit hfirst ↦ ?_, fun index h ↦ (hspan index h).1,
    fun index h ↦ (hspan index h).2, fun hstale hlt ↦ ?_⟩
  · have hlast : last ≤ windows := by
      by_contra hlast
      -- the last chunk of the run begins before the limit
      obtain ⟨-, hbelow⟩ := hrun windows hfirst (Nat.not_le.mp hlast)
      exact absurd hlimit (Nat.not_le.mpr hbelow)
    exact Nat.le_trans (Nat.min_le_left _ _) (Nat.mul_le_mul_right _ hlast)
  · have hlast : first < last := by
      refine lt_of_le_of_ne hle ?_
      rintro rfl
      rcases hedge with hlimit | hfresh
      · exact absurd hlimit (Nat.not_le.mpr hlt)
      · exact absurd (hstale.symm.trans hfresh) Bool.false_ne_true
    exact Nat.le_min.mpr ⟨Nat.le_trans (Nat.min_le_left _ _) (Nat.mul_le_mul_right _ hlast),
      Nat.min_le_right _ _⟩

end Run

/-! ## What a fetch leaves

The chunks that are marked are exactly those that begin in the span. A fetch that fails, or whose
span is empty, leaves the chunks as they are. -/

section Fetch

variable {m : MappedMirror} {first stop : ℕ}

theorem markFresh_iff (freshChunks : ℕ → Bool) (hstop : stop ≤ m.storageSize) (index : ℕ) :
    m.markFresh freshChunks (first * demandFetchChunkBytes) stop index = true ↔
      freshChunks index = true ∨ InSpan (first * demandFetchChunkBytes) stop index := by
  have hspan : (first * demandFetchChunkBytes / demandFetchChunkBytes ≤ index ∧
      index < (stop + demandFetchChunkBytes - 1) / demandFetchChunkBytes ∧
      index < m.freshChunkCount) ↔ InSpan (first * demandFetchChunkBytes) stop index := by
    rw [InSpan, MappedMirror.freshChunkCount, demandFetchChunkBytes]
    omega
  rw [MappedMirror.markFresh, if_congr hspan rfl rfl]
  split_ifs with h
  · exact iff_of_true rfl (Or.inr h)
  · exact (or_iff_left h).symm

theorem fetchRight_of_fetched {freshChunks : ℕ → Bool} {limit bound : ℕ}
    (h : SpanRight freshChunks m.storageSize limit first stop)
    (hbound : stop ≤ first * demandFetchChunkBytes + bound) :
    FetchRight m.storageSize bound freshChunks
      (m.markFresh freshChunks (first * demandFetchChunkBytes) stop) true
      (first * demandFetchChunkBytes) stop where
  inside := h.inside
  bounded := hbound
  stale := h.stale
  fetched _ := markFresh_iff freshChunks h.inside
  failed hfalse := absurd hfalse.symm Bool.false_ne_true

theorem fetchRight_of_failed {freshChunks : ℕ → Bool} {limit bound : ℕ}
    (h : SpanRight freshChunks m.storageSize limit first stop)
    (hbound : stop ≤ first * demandFetchChunkBytes + bound) :
    FetchRight m.storageSize bound freshChunks freshChunks false (first * demandFetchChunkBytes)
      stop where
  inside := h.inside
  bounded := hbound
  stale := h.stale
  fetched htrue := absurd htrue Bool.false_ne_true
  failed _ := rfl

/-- A fetch goes no further than may be read ahead. -/
theorem le_readaheadBound (m : MappedMirror)
    (h : SpanRight m.freshChunks m.storageSize
      (min (m.fetchLimit (first * demandFetchChunkBytes)) m.storageSize) first stop) :
    stop ≤ first * demandFetchChunkBytes + m.readaheadBound (first * demandFetchChunkBytes) := by
  obtain ⟨window, hwindow⟩ := m.nextReadahead_dvd (first * demandFetchChunkBytes)
  by_cases hcap : m.Sequential (first * demandFetchChunkBytes) ∧
      demandFetchReadaheadCap ≤ m.fetchReadahead
  · rw [MappedMirror.readaheadBound, if_neg (not_not.mpr hcap.1), if_neg hcap.2.not_gt]
    have hinside := h.inside
    omega
  · -- the window is whole chunks, and the run ends with it at the latest
    have hlimit : m.fetchLimit (first * demandFetchChunkBytes) =
        (first + window) * demandFetchChunkBytes := by
      rw [MappedMirror.fetchLimit, if_neg hcap, hwindow, Nat.add_mul, Nat.mul_comm window]
    have hend := h.bounded (first + window) (by rw [← hlimit]; exact Nat.min_le_left _ _)
      (Nat.le_add_right _ _)
    have hnext : m.nextReadahead (first * demandFetchChunkBytes) =
        m.readaheadBound (first * demandFetchChunkBytes) := by
      rw [MappedMirror.nextReadahead, MappedMirror.readaheadBound]
      by_cases hseq : m.Sequential (first * demandFetchChunkBytes)
      · have hbelow := Nat.not_le.mp fun hle ↦ hcap ⟨hseq, hle⟩
        rw [if_pos hseq, if_neg hbelow.not_ge, if_neg (not_not.mpr hseq), if_pos hbelow]
      · rw [if_neg hseq, if_pos hseq]
    rw [← hnext, hwindow, Nat.mul_comm demandFetchChunkBytes, ← Nat.add_mul]
    exact hend

theorem lt_fetchLimit (m : MappedMirror) {start : ℕ} (h : start < m.storageSize) :
    start < min (m.fetchLimit start) m.storageSize := by
  have hwindow : 0 < m.nextReadahead start := by
    rw [MappedMirror.nextReadahead]
    split_ifs with hseq hcap
    · exact Nat.lt_of_lt_of_le (by decide) hcap
    · have hpos : 0 < m.fetchReadahead := Nat.lt_of_lt_of_le (by decide) hseq.2.2
      exact Nat.lt_min.mpr ⟨Nat.mul_pos hpos Nat.two_pos, by decide⟩
    · decide
  rw [MappedMirror.fetchLimit]
  split_ifs
  · exact Nat.lt_min.mpr ⟨h, h⟩
  · exact Nat.lt_min.mpr ⟨Nat.lt_add_of_pos_right hwindow, h⟩

theorem fetchRight_of_empty {freshChunks : ℕ → Bool} {limit bound : ℕ}
    (h : SpanRight freshChunks m.storageSize limit first stop)
    (hempty : stop ≤ first * demandFetchChunkBytes) :
    FetchRight m.storageSize bound freshChunks freshChunks true (first * demandFetchChunkBytes)
      stop where
  inside := h.inside
  bounded := Nat.le_trans hempty (Nat.le_add_right _ _)
  stale := h.stale
  fetched := by
    intro _ index
    have hnone : ¬InSpan (first * demandFetchChunkBytes) stop index := fun hspan ↦
      absurd (Nat.lt_of_le_of_lt hspan.1 hspan.2) (Nat.not_lt.mpr hempty)
    exact (or_iff_left hnone).symm
  failed _ := rfl

theorem spanRight_fetchStop (m : MappedMirror) (first : ℕ) :
    SpanRight m.freshChunks m.storageSize
      (min (m.fetchLimit (first * demandFetchChunkBytes)) m.storageSize) first
      (m.fetchStop (first * demandFetchChunkBytes)) :=
  spanRight_staleEnd m.freshChunks _ first

theorem le_fetchStop (m : MappedMirror) (hstale : m.freshChunks first = false) :
    min ((first + 1) * demandFetchChunkBytes) m.storageSize ≤
      m.fetchStop (first * demandFetchChunkBytes) := by
  rcases Nat.lt_or_ge (first * demandFetchChunkBytes) m.storageSize with hlt | hge
  · exact (spanRight_fetchStop m first).covers hstale (lt_fetchLimit m hlt)
  · -- past the storage there is nothing to cover
    have hnone : ¬first * demandFetchChunkBytes <
        min (m.fetchLimit (first * demandFetchChunkBytes)) m.storageSize :=
      Nat.not_lt.mpr (Nat.le_trans (Nat.min_le_right _ _) hge)
    rw [MappedMirror.fetchStop, staleEnd, if_neg fun h ↦ hnone h.1, Nat.min_eq_right hge]
    exact Nat.min_le_right _ _

theorem fetchSpan_span (fetch : ℕ → ℕ → Bool) (m : MappedMirror) (start stop : ℕ) :
    (fetchSpan fetch m start stop).start = start ∧ (fetchSpan fetch m start stop).stop = stop := by
  rw [fetchSpan]
  split_ifs
  · exact ⟨rfl, rfl⟩
  · exact ⟨rfl, rfl⟩
  · exact ⟨rfl, rfl⟩

theorem fetchSpan_right (fetch : ℕ → ℕ → Bool) {limit bound : ℕ}
    (h : SpanRight m.freshChunks m.storageSize limit first stop)
    (hbound : stop ≤ first * demandFetchChunkBytes + bound) :
    FetchRight m.storageSize bound m.freshChunks
      (fetchSpan fetch m (first * demandFetchChunkBytes) stop).mirror.freshChunks
      (fetchSpan fetch m (first * demandFetchChunkBytes) stop).ok
      (first * demandFetchChunkBytes) stop := by
  rw [fetchSpan]
  split_ifs with hempty hfailed
  · rw [MappedMirror.setFetchSeqNext_freshChunks, MappedMirror.setReadahead_freshChunks]
    exact fetchRight_of_empty h hempty
  · rw [MappedMirror.setReadahead_freshChunks]
    exact fetchRight_of_failed h hbound
  · exact fetchRight_of_fetched h hbound

/-- A demand fetch covers the chunk of the fault if that is stale, and is right. -/
theorem demandFetchRun_right (fetch : ℕ → ℕ → Bool) (m : MappedMirror) (faultOffset : ℕ) :
    (demandFetchRun fetch m faultOffset).start =
        faultOffset / demandFetchChunkBytes * demandFetchChunkBytes ∧
      (m.freshChunks (faultOffset / demandFetchChunkBytes) = false →
        min ((faultOffset / demandFetchChunkBytes + 1) * demandFetchChunkBytes) m.storageSize ≤
          (demandFetchRun fetch m faultOffset).stop) ∧
      FetchRight m.storageSize (m.readaheadBound (demandFetchRun fetch m faultOffset).start)
        m.freshChunks (demandFetchRun fetch m faultOffset).mirror.freshChunks
        (demandFetchRun fetch m faultOffset).ok (demandFetchRun fetch m faultOffset).start
        (demandFetchRun fetch m faultOffset).stop := by
  have hspan := spanRight_fetchStop m (faultOffset / demandFetchChunkBytes)
  rw [demandFetchRun, (fetchSpan_span _ _ _ _).1, (fetchSpan_span _ _ _ _).2]
  exact ⟨rfl, le_fetchStop m, fetchSpan_right fetch hspan (le_readaheadBound m hspan)⟩

end Fetch

/-! ## A range is made fresh

The next run begins at a chunk, so the runs together cover the range up to the first failure. -/

section Range

variable {m : MappedMirror} {bound position : ℕ}

theorem exists_chunk_of_lt (hbound : bound ≤ m.storageSize) (freshChunks : ℕ → Bool) (first : ℕ)
    (h : min (staleEnd freshChunks bound (first * demandFetchChunkBytes)) m.storageSize < bound) :
    ∃ last, min (staleEnd freshChunks bound (first * demandFetchChunkBytes)) m.storageSize =
      last * demandFetchChunkBytes := by
  obtain ⟨last, hend, -⟩ := staleEnd_spec freshChunks bound first
  rw [hend] at h ⊢
  refine ⟨last, Nat.min_eq_left ?_⟩
  by_contra hlarge
  rw [Nat.min_eq_right (Nat.le_of_not_le hlarge)] at h
  exact absurd hbound (Nat.not_le.mpr h)

/-- **The runs of a range** are right. -/
theorem freshRuns_right (fetch : ℕ → ℕ → Bool) (hbound : bound ≤ m.storageSize)
    (freshChunks : ℕ → Bool)
    (hchunk : position < bound → ∃ first, position = first * demandFetchChunkBytes) :
    ∀ run ∈ freshRuns fetch m hbound freshChunks position,
      FetchRight m.storageSize (m.storageSize - run.start) run.before run.after run.ok run.start
        run.stop := by
  have hroom : ∀ {first stop : ℕ}, stop ≤ m.storageSize →
      stop ≤ first * demandFetchChunkBytes + (m.storageSize - first * demandFetchChunkBytes) := by
    omega
  induction freshChunks, position using freshRuns.induct fetch m hbound with
  | case1 freshChunks position hlt hstale stop hfetched after ih =>
    obtain ⟨first, rfl⟩ := hchunk hlt
    have hspan : SpanRight freshChunks m.storageSize bound first stop :=
      spanRight_staleEnd freshChunks bound first
    rw [freshRuns, if_pos hlt, if_pos hstale, if_pos hfetched]
    exact List.forall_mem_cons.mpr ⟨fetchRight_of_fetched hspan (hroom hspan.inside),
      ih (exists_chunk_of_lt hbound freshChunks first)⟩
  | case2 freshChunks position hlt hstale stop hfailed =>
    obtain ⟨first, rfl⟩ := hchunk hlt
    have hspan : SpanRight freshChunks m.storageSize bound first stop :=
      spanRight_staleEnd freshChunks bound first
    rw [freshRuns, if_pos hlt, if_pos hstale, if_neg hfailed]
    exact List.forall_mem_singleton.mpr (fetchRight_of_failed hspan (hroom hspan.inside))
  | case3 freshChunks position hlt hfresh ih =>
    rw [freshRuns, if_pos hlt, if_neg hfresh]
    refine ih fun _ ↦ ?_
    obtain ⟨first, rfl⟩ := hchunk hlt
    exact ⟨first + 1, (Nat.succ_mul _ _).symm⟩
  | case4 freshChunks position hdone =>
    rw [freshRuns, if_neg hdone]
    exact fun run hrun ↦ absurd hrun List.not_mem_nil

/-- Runs that all succeed leave the range fresh, and what was fresh before. -/
theorem freshAfter_freshRuns (fetch : ℕ → ℕ → Bool) (hbound : bound ≤ m.storageSize)
    (freshChunks : ℕ → Bool)
    (hchunk : position < bound → ∃ first, position = first * demandFetchChunkBytes)
    (hok : ∀ run ∈ freshRuns fetch m hbound freshChunks position, run.ok = true) (index : ℕ) :
    freshAfter freshChunks (freshRuns fetch m hbound freshChunks position) index = true ↔
      freshChunks index = true ∨ InSpan position bound index := by
  -- the cases are those of the loop: a run was fetched, or failed, or the chunk was fresh, or the
  -- end
  induction freshChunks, position using freshRuns.induct fetch m hbound with
  | case1 freshChunks position hlt hstale stop hfetched after ih =>
    obtain ⟨first, rfl⟩ := hchunk hlt
    have hspan : SpanRight freshChunks m.storageSize bound first stop :=
      spanRight_staleEnd freshChunks bound first
    rw [freshRuns, if_pos hlt, if_pos hstale, if_pos hfetched] at hok ⊢
    obtain ⟨-, hok⟩ := List.forall_mem_cons.mp hok
    rw [freshAfter, List.foldl_cons, ← freshAfter,
      ih (exists_chunk_of_lt hbound freshChunks first) hok,
      markFresh_iff freshChunks hspan.inside, or_assoc]
    -- the run is not empty, so the loop goes on behind it
    have hstop : first * demandFetchChunkBytes < stop :=
      Nat.lt_min.mpr ⟨lt_staleEnd hlt hstale, Nat.lt_of_lt_of_le hlt hbound⟩
    refine or_congr_right ⟨?_, fun hall ↦ ?_⟩
    · rintro (hrun | hrest)
      · exact ⟨hrun.1, hspan.below index hrun⟩
      · exact ⟨Nat.le_trans (Nat.le_of_lt hstop) hrest.1, hrest.2⟩
    · rcases Nat.lt_or_ge (index * demandFetchChunkBytes) stop with hin | hout
      · exact Or.inl ⟨hall.1, hin⟩
      · exact Or.inr ⟨hout, hall.2⟩
  | case2 freshChunks position hlt hstale stop hfailed =>
    rw [freshRuns, if_pos hlt, if_pos hstale, if_neg hfailed] at hok
    exact absurd (hok _ List.mem_cons_self) Bool.false_ne_true
  | case3 freshChunks position hlt hfresh ih =>
    obtain ⟨first, rfl⟩ := hchunk hlt
    rw [freshRuns, if_pos hlt, if_neg hfresh] at hok ⊢
    rw [ih (fun _ ↦ ⟨first + 1, (Nat.succ_mul _ _).symm⟩) hok]
    rw [Nat.mul_div_cancel first (by decide), Bool.not_eq_false] at hfresh
    rcases eq_or_ne index first with rfl | hne
    · exact iff_of_true (Or.inl hfresh) (Or.inl hfresh)
    · have hstart : first * demandFetchChunkBytes + demandFetchChunkBytes ≤
          index * demandFetchChunkBytes ↔
            first * demandFetchChunkBytes ≤ index * demandFetchChunkBytes := by
        rw [demandFetchChunkBytes]
        omega
      rw [InSpan, InSpan, hstart]
  | case4 freshChunks position hdone =>
    rw [freshRuns, if_neg hdone, freshAfter, List.foldl_nil]
    refine (or_iff_left fun hspan ↦ hdone ?_).symm
    exact Nat.lt_of_le_of_lt hspan.1 hspan.2

end Range

/-- **Demand fetches are right**: a fault reads no more ahead than its bound, and the runs of a
range that is made fresh are right, too. -/
theorem demandFetches_right (fetch : ℕ → ℕ → Bool) (m : MappedMirror) :
    (∀ faultOffset,
      (demandFetchRun fetch m faultOffset).start =
          faultOffset / demandFetchChunkBytes * demandFetchChunkBytes ∧
        (m.freshChunks (faultOffset / demandFetchChunkBytes) = false →
          min ((faultOffset / demandFetchChunkBytes + 1) * demandFetchChunkBytes) m.storageSize ≤
            (demandFetchRun fetch m faultOffset).stop) ∧
        FetchRight m.storageSize (m.readaheadBound (demandFetchRun fetch m faultOffset).start)
          m.freshChunks (demandFetchRun fetch m faultOffset).mirror.freshChunks
          (demandFetchRun fetch m faultOffset).ok (demandFetchRun fetch m faultOffset).start
          (demandFetchRun fetch m faultOffset).stop) ∧
      ∀ startOffset endOffset, ∀ run ∈ makeMappedRangeFresh fetch m startOffset endOffset,
        FetchRight m.storageSize (m.storageSize - run.start) run.before run.after run.ok run.start
          run.stop :=
  ⟨demandFetchRun_right fetch m,
    fun _ _ ↦ freshRuns_right fetch _ m.freshChunks fun _ ↦ ⟨_, rfl⟩⟩

/-! ## Beyond the cap

All chunks behind the fault are stale, and the limit is the end of the storage. -/

theorem le_staleEnd_of_stale {freshChunks : ℕ → Bool} {first : ℕ} (limit : ℕ)
    (h : ∀ index, first ≤ index → freshChunks index = false) :
    limit ≤ staleEnd freshChunks limit (first * demandFetchChunkBytes) := by
  obtain ⟨last, hend, hle, -, hedge⟩ := staleEnd_spec freshChunks limit first
  rw [hend]
  exact hedge.resolve_right fun hfresh ↦ Bool.false_ne_true ((h last hle).symm.trans hfresh)

/-- An allocation of 16 MiB after seven faults in sequence: 127 chunks are fresh, and the window has
reached the cap. -/
def sequentialMirror : MappedMirror where
  size := 16 * 2 ^ 20
  storageSize := 16 * 2 ^ 20
  freshChunks index := decide (index < 127)
  fetchSeqNext := 127 * demandFetchChunkBytes
  fetchReadahead := demandFetchReadaheadCap
  size_le := le_rfl
  readahead_dvd := ⟨64, rfl⟩
  readahead_le := le_rfl

/-- The next fetch has more than 8 MiB. -/
theorem sequentialMirror_exceeds_cap :
    ¬(demandFetchRun (fun _ _ ↦ true) sequentialMirror (127 * demandFetchChunkBytes)).stop ≤
      (demandFetchRun (fun _ _ ↦ true) sequentialMirror (127 * demandFetchChunkBytes)).start +
        demandFetchReadaheadCap := by
  have hstart : 127 * demandFetchChunkBytes / demandFetchChunkBytes = 127 := by decide
  have hlimit : sequentialMirror.fetchLimit (127 * demandFetchChunkBytes) = 16 * 1024 * 1024 := by
    decide +kernel
  have hstorage : sequentialMirror.storageSize = 16 * 1024 * 1024 := rfl
  have hstop : 16 * 1024 * 1024 ≤ staleEnd sequentialMirror.freshChunks (16 * 1024 * 1024)
      (127 * demandFetchChunkBytes) :=
    le_staleEnd_of_stale _ fun index hindex ↦ decide_eq_false (Nat.not_lt.mpr hindex)
  rw [demandFetchRun, (fetchSpan_span _ _ _ _).1, (fetchSpan_span _ _ _ _).2, hstart,
    MappedMirror.fetchStop, hlimit, hstorage, Nat.min_self, Nat.min_eq_right hstop]
  decide +kernel

/-! ## The same fetch, in chunks

Here a fetch has its span in bytes. The machine of `Lupine.Mapped.DemandFetch` counts chunks, and
both come to the same end. -/

theorem staleChunks_eq_zero {freshChunks : ℕ → Bool} {first count : ℕ}
    (h : count = 0 ∨ freshChunks first = true) :
    FetchState.staleChunks freshChunks first count = 0 := by
  cases count with
  | zero => rfl
  | succ count => rw [FetchState.staleChunks, if_pos (h.resolve_left (Nat.succ_ne_zero count))]

theorem staleEnd_eq_staleChunks (freshChunks : ℕ → Bool) (limit first : ℕ) :
    staleEnd freshChunks limit (first * demandFetchChunkBytes) =
      (first + FetchState.staleChunks freshChunks first
        ((limit - first * demandFetchChunkBytes + demandFetchChunkBytes - 1) /
          demandFetchChunkBytes)) * demandFetchChunkBytes := by
  have hdiv : ∀ index, index * demandFetchChunkBytes / demandFetchChunkBytes = index :=
    fun index ↦ Nat.mul_div_cancel index (by decide)
  generalize hstop : first * demandFetchChunkBytes = stop
  induction stop using staleEnd.induct freshChunks limit generalizing first with
  | case1 stop hmore ih =>
    obtain ⟨hlimit, hstale⟩ := hmore
    have hnext : (first + 1) * demandFetchChunkBytes = stop + demandFetchChunkBytes := by
      rw [Nat.succ_mul, hstop]
    have hwanted : (limit - stop + demandFetchChunkBytes - 1) / demandFetchChunkBytes =
        (limit - (stop + demandFetchChunkBytes) + demandFetchChunkBytes - 1) /
          demandFetchChunkBytes + 1 := by
      rw [demandFetchChunkBytes]
      omega
    rw [staleEnd, if_pos ⟨hlimit, hstale⟩, ih _ hnext, hwanted, FetchState.staleChunks,
      if_neg (by rw [← hstop, hdiv] at hstale; rw [hstale]; exact Bool.false_ne_true)]
    rw [Nat.add_right_comm, Nat.add_assoc first]
  | case2 stop hdone =>
    rw [staleEnd, if_neg hdone]
    rw [not_and_or, Nat.not_lt, ← hstop, hdiv, Bool.not_eq_false] at hdone
    have hnone : (limit - stop + demandFetchChunkBytes - 1) / demandFetchChunkBytes = 0 ∨
        freshChunks first = true := by
      refine hdone.imp_left fun hlimit ↦ ?_
      rw [← hstop, Nat.sub_eq_zero_of_le hlimit]
      decide
    rw [staleChunks_eq_zero hnone, Nat.add_zero, hstop]

/-- **The span of a fault** is the run of the machine that has the fetches in flight. -/
theorem fetchStop_eq_fetchRun (config : FetchConfig) (st : FetchState) (m : MappedMirror)
    (hchunk : config.chunkBytes = demandFetchChunkBytes)
    (hcap : config.readaheadCap = demandFetchReadaheadCap)
    (hstorage : m.storageSize = config.storageSize) (hfresh : m.freshChunks = st.freshChunks)
    (hnext : m.fetchSeqNext = st.fetchSeqNext) (hreadahead : m.fetchReadahead = st.fetchReadahead)
    (offset : ℕ) :
    m.fetchStop (st.fetchRun config offset).next =
      min ((st.fetchRun config offset).last * demandFetchChunkBytes) m.storageSize := by
  have hlimit : ∀ start,
      min (m.fetchLimit start) m.storageSize = (st.readahead config start).1 := by
    intro start
    have hseq : m.Sequential start ↔ start ≠ 0 ∧ start = st.fetchSeqNext ∧
        demandFetchChunkBytes ≤ st.fetchReadahead := by
      rw [MappedMirror.Sequential, hnext, hreadahead]
    rw [MappedMirror.fetchLimit, MappedMirror.nextReadahead, FetchState.readahead, hchunk, hcap,
      hstorage, ← hreadahead]
    rw [← hreadahead] at hseq
    by_cases hsequential : m.Sequential start
    · rw [if_pos (hseq.mp hsequential), if_pos hsequential]
      by_cases hcapped : demandFetchReadaheadCap ≤ m.fetchReadahead
      · rw [if_pos ⟨hsequential, hcapped⟩, if_pos hcapped, Nat.min_self]
      · rw [if_neg fun h ↦ hcapped h.2, if_neg hcapped, if_neg hcapped]
    · rw [if_neg fun h ↦ hsequential (hseq.mpr h), if_neg fun h ↦ hsequential h.1,
        if_neg hsequential]
  rw [FetchState.fetchRun, hchunk]
  dsimp only
  rw [MappedMirror.fetchStop, hlimit, staleEnd_eq_staleChunks, hfresh]

end Lupine
