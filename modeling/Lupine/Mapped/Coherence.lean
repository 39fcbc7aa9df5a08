import Lupine.Foundation.Patches
import Mathlib.Algebra.Group.Nat.Even
import Mathlib.Data.List.Pairwise
import Mathlib.Data.List.Sort
import Mathlib.Data.List.TakeWhile

/-!
# The coherence step of live mapped host memory

`lupine_live_mapped_coherence_step` compares the client's copy of a mapping and the server's with
the shadow, the contents both agreed on last, word by word. It merges the two into the client's
buffer, sends what the client changed to the server, and keeps the merge as the new shadow. What is
sent are windows around each run of changed words, so that a write also carries words nobody
changed.

## When a window is captured

A window is copied out of the merge at the word that ends its run, or at the last word. The part of
the window behind that word has not been merged yet and is still zero in the buffer. The model keeps
with every write how far the merge had come, so that statements can tell the two parts apart.

## What is not modelled

A step that cannot fetch a remote view returns before it sends anything; the remote views here are
those the second sampling pass left. Mappings freed since the list was taken are not in the list.

## The invariant of the merge

After some words the merge has a list of writes and perhaps an open run. Every write carries the
final merge up to where it was captured and zeros behind, and every word that the merge takes from
the client is in one of the writes or in the open run. The requests are cut anywhere, so the server
behind a connection sees the writes for it in the order of the list, and at each byte the last write
decides.
-/

namespace Lupine

open Foundation

/-! ## Mappings

A mapping has its three buffers by offset. What is changed is said of the word at an offset. -/

/-- `lupine_mapped_host_snapshot`, with the connection of its route and the three buffers the step
compares, each by offset. -/
structure LiveMapping where
  conn : ℕ
  serverHostPtr : ℕ
  size : ℕ
  clientToServerOnly : Bool
  localBuffer : Memory UInt8
  shadow : Memory UInt8
  remote : Memory UInt8

/-- `memcmp(a + i, b + i, n) != 0`. -/
def memDiffers (a b : Memory UInt8) (i n : ℕ) : Bool :=
  (List.range n).any fun j ↦ a (i + j) != b (i + j)

/-- The memory after `memcpy(dst + i, src + i, n)`. -/
def memcpyAt (dst src : Memory UInt8) (i n : ℕ) : Memory UInt8 :=
  fun x ↦ if i ≤ x ∧ x < i + n then src x else dst x

/-- `assign(m + begin, m + end)`. -/
def bytesBetween (m : Memory UInt8) (first last : ℕ) : List UInt8 :=
  (List.range (last - first)).map fun j ↦ m (first + j)

namespace LiveMapping

variable (m : LiveMapping)

def wordBytes (i : ℕ) : ℕ := min 8 (m.size - i)

/-- `local_changed`. -/
def localChanged (i : ℕ) : Bool := memDiffers m.localBuffer m.shadow i (m.wordBytes i)

/-- `remote_changed`. -/
def remoteChanged (i : ℕ) : Bool := memDiffers m.remote m.shadow i (m.wordBytes i)

/-- `publish_local`. -/
def publishLocal (i : ℕ) : Bool :=
  m.localChanged i && (m.clientToServerOnly || !m.remoteChanged i)

def value (i : ℕ) : Memory UInt8 :=
  if m.clientToServerOnly then m.localBuffer
  else if m.remoteChanged i then m.remote
  else m.localBuffer

def wordOf (x : ℕ) : ℕ := x / 8 * 8

def mergedByte (x : ℕ) : UInt8 := m.value (wordOf x) x

def wordCount : ℕ := (m.size + 7) / 8

end LiveMapping

/-! ## Merging and pending writes

The loop visits words and keeps the start of the run it is in. A write has its data from the moment
of its capture. -/

/-- `pending_write`. The last field is not in the source: it is how far the merge had come when the
data were captured. -/
structure PendingWrite where
  conn : ℕ
  destination : ℕ
  data : List UInt8
  captured : ℕ
  deriving DecidableEq, Repr

def PendingWrite.patch (w : PendingWrite) : Patch UInt8 := ⟨w.destination, w.data⟩

structure MergeState where
  merged : Memory UInt8
  pendingStart : ℕ
  localChangeBytes : ℕ
  writes : List PendingWrite

/-- `expanded_start`. -/
def expandedStart (window pendingStart : ℕ) : ℕ := pendingStart / window * window

/-- `expanded_end`; the sum is computed in 64 bits. -/
def expandedEnd (window size pendingEnd : ℕ) : ℕ :=
  min size ((pendingEnd + window - 1) % 2 ^ 64 / window * window)

/-- The write of the run up to `pendingEnd`, with its data as of `captured`. -/
def captureWrite (window : ℕ) (m : LiveMapping) (merged : Memory UInt8)
    (pendingStart pendingEnd captured : ℕ) : PendingWrite where
  conn := m.conn
  destination := m.serverHostPtr + expandedStart window pendingStart
  data := bytesBetween merged (expandedStart window pendingStart)
    (expandedEnd window m.size pendingEnd)
  captured := captured

/-- The body of the merge loop, at the word at `i`. -/
def mergeWord (window : ℕ) (m : LiveMapping) (i : ℕ) (st : MergeState) : MergeState :=
  let merged := memcpyAt st.merged (m.value i) i (m.wordBytes i)
  let pendingStart :=
    if m.publishLocal i ∧ st.pendingStart = m.size then i else st.pendingStart
  let finishPending :=
    pendingStart ≠ m.size ∧ (m.publishLocal i = false ∨ i + m.wordBytes i = m.size)
  { merged := merged
    pendingStart := if finishPending then m.size else pendingStart
    localChangeBytes := st.localChangeBytes + if m.localChanged i then m.wordBytes i else 0
    writes :=
      if finishPending then
        st.writes ++ [captureWrite window m merged pendingStart
          (if m.publishLocal i then i + m.wordBytes i else i) (i + m.wordBytes i)]
      else st.writes }

def mergeWords (window : ℕ) (m : LiveMapping) : ℕ → MergeState
  | 0 => { merged := fun _ ↦ 0, pendingStart := m.size, localChangeBytes := 0, writes := [] }
  | k + 1 => mergeWord window m (8 * k) (mergeWords window m k)

/-- The writes one mapping adds: its windows, or all of it when it changed broadly. -/
def mappingWrites (window : ℕ) (m : LiveMapping) : List PendingWrite :=
  let st := mergeWords window m m.wordCount
  if m.size = 0 ∨ m.serverHostPtr = 0 then []
  else if 64 * 1024 ≤ st.localChangeBytes ∧ st.writes ≠ [] then
    [{ conn := m.conn, destination := m.serverHostPtr, data := bytesBetween st.merged 0 m.size
       captured := m.size }]
  else st.writes

/-- The order `std::stable_sort` is given: by connection, then the longer write first. -/
def sentBefore (a b : PendingWrite) : Bool :=
  !(if b.conn ≠ a.conn then decide (b.conn < a.conn) else decide (a.data.length < b.data.length))

/-- `pending_writes`, sorted. -/
def pendingWrites (window : ℕ) (mappings : List LiveMapping) : List PendingWrite :=
  (mappings.flatMap (mappingWrites window)).mergeSort sentBefore

/-! ## Requests

A request is for one connection and has at most 1024 writes, which the server applies in turn. -/

/-- `publish_pending`: the flush requests, each with its connection and at most 1024 writes. -/
def publishPending (selected : List PendingWrite) : List (ℕ × List PendingWrite) :=
  match selected with
  | [] => []
  | w :: ws =>
    let batch := ((w :: ws).take 1024).takeWhile fun v ↦ v.conn == w.conn
    (w.conn, batch) :: publishPending ((w :: ws).drop batch.length)
termination_by selected.length
decreasing_by
  rw [List.length_drop]
  refine Nat.sub_lt (Nat.succ_pos _) ?_
  show 0 < (((w :: ws).take 1024).takeWhile fun v ↦ v.conn == w.conn).length
  rw [List.take_succ_cons, List.takeWhile_cons, if_pos (beq_self_eq_true w.conn)]
  exact Nat.succ_pos _

/-- `handle_manual_lupineManagedHostFlush`: the entries of a request are read into place in turn. -/
def handleManualLupineManagedHostFlush (server : Memory UInt8) (entries : List PendingWrite) :
    Memory UInt8 :=
  applyPatches server (entries.map PendingWrite.patch)

/-- The memories behind the connections once they have handled a list of requests. -/
def handleFlushes (servers : ℕ → Memory UInt8) :
    List (ℕ × List PendingWrite) → ℕ → Memory UInt8
  | [] => servers
  | (conn, entries) :: requests =>
    handleFlushes (Function.update servers conn
      (handleManualLupineManagedHostFlush (servers conn) entries)) requests

/-- `lupine_live_mapped_coherence_step`: the server memories once every request is handled. -/
def liveMappedCoherenceStep (window : ℕ) (mappings : List LiveMapping)
    (servers : ℕ → Memory UInt8) : ℕ → Memory UInt8 :=
  handleFlushes servers (publishPending (pendingWrites window mappings))

/-! ## What the requests amount to

Requests are cut wherever the connection changes and after 1024 writes; the server behind a
connection sees the writes for it in the order of the list. -/

theorem handleFlushes_publishPending (servers : ℕ → Memory UInt8) (conn : ℕ)
    (selected : List PendingWrite) :
    handleFlushes servers (publishPending selected) conn
      = applyPatches (servers conn)
          ((selected.filter fun w ↦ w.conn == conn).map PendingWrite.patch) := by
  induction hn : selected.length using Nat.strong_induction_on generalizing selected servers with
  | _ n ih =>
    subst hn
    cases selected with
    | nil => rw [publishPending]; rfl
    | cons w ws =>
      -- one batch of the loop: up to 1024 writes of one connection
      set batch := ((w :: ws).take 1024).takeWhile fun v ↦ v.conn == w.conn with hbatch
      have hprefix : batch <+: w :: ws :=
        (List.takeWhile_prefix _).trans (List.take_prefix _ _)
      have hsplit : w :: ws = batch ++ (w :: ws).drop batch.length := by
        conv_lhs => rw [← List.take_append_drop batch.length (w :: ws)]
        rw [← List.prefix_iff_eq_take.mp hprefix]
      have hpos : 0 < batch.length := by simp [hbatch]
      have hconn : ∀ v ∈ batch, v.conn = w.conn := by
        intro v hv
        simpa using List.mem_takeWhile_imp hv
      have hless : ((w :: ws).drop batch.length).length < (w :: ws).length := by
        rw [List.length_drop, List.length_cons]
        omega
      rw [publishPending, handleFlushes, ih _ hless _ _ rfl]
      conv_rhs => rw [hsplit, List.filter_append, List.map_append, applyPatches_append]
      -- either the whole batch is for this server, or none of it
      by_cases hc : w.conn = conn
      · have hall : batch.filter (fun v ↦ v.conn == conn) = batch := by
          rw [List.filter_eq_self]
          intro v hv
          rw [hconn v hv, hc, beq_self_eq_true]
        rw [hall, ← hc, Function.update_self]
        rfl
      · have hnone : batch.filter (fun v ↦ v.conn == conn) = [] := by
          rw [List.filter_eq_nil_iff]
          intro v hv
          rw [hconn v hv, beq_iff_eq]
          exact hc
        rw [hnone, Function.update_of_ne (Ne.symm hc)]
        rfl

theorem mem_pendingWrites {window : ℕ} {mappings : List LiveMapping} {w : PendingWrite} :
    w ∈ pendingWrites window mappings ↔ ∃ m ∈ mappings, w ∈ mappingWrites window m := by
  rw [pendingWrites, List.mem_mergeSort, List.mem_flatMap]

/-! ## What a write carries

Whether a run is open is decided first: the word may start one, continue it, or end it, and the last
word ends whatever is open. A run lies inside its window. -/

theorem bytesBetween_getElem? (b : Memory UInt8) {first last j : ℕ} (h : first + j < last) :
    (bytesBetween b first last)[j]? = some (b (first + j)) := by
  rw [bytesBetween, List.getElem?_map, List.getElem?_range (by omega)]
  rfl

theorem length_bytesBetween (b : Memory UInt8) (first last : ℕ) :
    (bytesBetween b first last).length = last - first := by
  rw [bytesBetween, List.length_map, List.length_range]

namespace LiveMapping

variable (m : LiveMapping)

/-- A write into a mapping, as far as its contents go: it covers a range of the mapping, with the
final merge up to where it was captured, and with zeros behind. -/
structure Carries (w : PendingWrite) (first last : ℕ) : Prop where
  conn : w.conn = m.conn
  last_le : last ≤ m.size
  covers : ∀ x, w.patch.Covers x ↔ m.serverHostPtr + first ≤ x ∧ x < m.serverHostPtr + last
  byte : ∀ j, first ≤ j → j < last →
    w.patch.get? (m.serverHostPtr + j) = some (if j < w.captured then m.mergedByte j else 0)

/-- The state of the merge after `k` words. -/
structure MergeInv (k : ℕ) (st : MergeState) : Prop where
  /-- The merge is complete up to word `k`, and zero from there on. -/
  merged : ∀ j < m.size, st.merged j = if j < 8 * k then m.mergedByte j else 0
  /-- A run that is open started at an earlier word and has not been interrupted. -/
  pending : st.pendingStart = m.size ∨
    ∃ p < k, 8 * p < m.size ∧ st.pendingStart = 8 * p ∧ m.publishLocal (8 * p) = true
  /-- No run is left open behind the last word. -/
  closed : m.size ≤ 8 * k → st.pendingStart = m.size
  carries : ∀ w ∈ st.writes, ∃ first last, m.Carries w first last
  /-- A word to publish is in a write or in the open run. -/
  published : ∀ q < k, 8 * q < m.size → m.publishLocal (8 * q) = true →
    (st.pendingStart ≤ 8 * q) ∨
      ∃ w ∈ st.writes, ∀ j < m.size, wordOf j = 8 * q → w.patch.Covers (m.serverHostPtr + j)

theorem mergeInv_zero : m.MergeInv 0 (mergeWords window m 0) where
  merged j _ := by rw [if_neg (by omega)]; rfl
  pending := Or.inl rfl
  closed _ := rfl
  carries w hw := absurd hw List.not_mem_nil
  published q hq := absurd hq (Nat.not_lt_zero q)

variable {m}

theorem le_expandedEnd {window pendingEnd : ℕ} (hpos : 0 < window)
    (hfit : window + m.size ≤ 2 ^ 64) (hend : pendingEnd ≤ m.size) :
    pendingEnd ≤ expandedEnd window m.size pendingEnd := by
  have hround := Nat.div_add_mod (pendingEnd + window - 1) window
  have hrem := Nat.mod_lt (pendingEnd + window - 1) hpos
  rw [expandedEnd, Nat.mod_eq_of_lt (by omega), Nat.mul_comm]
  exact le_min hend (by omega)

theorem carries_captureWrite (window pendingStart pendingEnd : ℕ) {k : ℕ}
    {merged : Memory UInt8}
    (hmerged : ∀ j < m.size, merged j = if j < 8 * (k + 1) then m.mergedByte j else 0)
    (hk : 8 * k < m.size) :
    m.Carries (captureWrite window m merged pendingStart pendingEnd (8 * k + m.wordBytes (8 * k)))
      (expandedStart window pendingStart) (expandedEnd window m.size pendingEnd) where
  conn := rfl
  last_le := Nat.min_le_left _ _
  covers x := by
    rw [Patch.Covers, PendingWrite.patch, captureWrite]
    simp only [length_bytesBetween]
    omega
  byte j hfirst hlast := by
    have hsize : j < m.size := lt_of_lt_of_le hlast (Nat.min_le_left _ _)
    have hindex : m.serverHostPtr + j - (m.serverHostPtr + expandedStart window pendingStart)
        = j - expandedStart window pendingStart := by omega
    have hback :
        expandedStart window pendingStart + (j - expandedStart window pendingStart) = j := by
      omega
    have hle : m.serverHostPtr + expandedStart window pendingStart ≤ m.serverHostPtr + j := by omega
    simp only [Patch.get?, PendingWrite.patch, captureWrite, if_pos hle, hindex]
    rw [bytesBetween_getElem? _ (by omega), hback, hmerged j hsize, wordBytes]
    have hcaptured : j < 8 * (k + 1) ↔ j < 8 * k + min 8 (m.size - 8 * k) := by omega
    exact congrArg some (if_congr hcaptured rfl rfl)

/-- One word keeps the invariant. Whether a run is open is decided first: the word may start one,
continue it, or end it, and the last word ends whatever is open. -/
theorem MergeInv.step {window k : ℕ} {st : MergeState} (hpos : 0 < window)
    (hfit : window + m.size ≤ 2 ^ 64) (hk : 8 * k < m.size) (h : m.MergeInv k st) :
    m.MergeInv (k + 1) (mergeWord window m (8 * k) st) := by
  have hword : m.wordBytes (8 * k) = min 8 (m.size - 8 * k) := rfl
  have hinside : 8 * k + m.wordBytes (8 * k) ≤ m.size := by omega
  have hlast : m.size ≤ 8 * (k + 1) ↔ 8 * k + m.wordBytes (8 * k) = m.size := by omega
  have hmerged : ∀ j < m.size,
      memcpyAt st.merged (m.value (8 * k)) (8 * k) (m.wordBytes (8 * k)) j
        = if j < 8 * (k + 1) then m.mergedByte j else 0 := by
    intro j hj
    rw [memcpyAt, h.merged j hj]
    by_cases hin : 8 * k ≤ j ∧ j < 8 * k + m.wordBytes (8 * k)
    · have hwordOf : wordOf j = 8 * k := by rw [wordOf]; omega
      rw [if_pos hin, if_pos (by omega), mergedByte, hwordOf]
    · rw [if_neg hin]
      by_cases hbefore : j < 8 * k
      · rw [if_pos hbefore, if_pos (by omega)]
      · rw [if_neg hbefore, if_neg (by omega)]
  -- the open run once the word is looked at
  set start := if m.publishLocal (8 * k) = true ∧ st.pendingStart = m.size then 8 * k
    else st.pendingStart with hstart
  have hopen : start = m.size ∨
      ∃ p ≤ k, 8 * p < m.size ∧ start = 8 * p ∧ m.publishLocal (8 * p) = true := by
    rw [hstart]
    split_ifs with hnew
    · exact Or.inr ⟨k, le_rfl, hk, rfl, hnew.1⟩
    · rcases h.pending with hnone | ⟨p, hp, hpsize, hpstart, hpub⟩
      · exact Or.inl hnone
      · exact Or.inr ⟨p, hp.le, hpsize, hpstart, hpub⟩
  -- A word the host changed is at or past the start of the open run, or in a write already.
  have hreach : ∀ q < k + 1, 8 * q < m.size → m.publishLocal (8 * q) = true → start ≤ 8 * q ∨
      ∃ w ∈ st.writes, ∀ j < m.size, wordOf j = 8 * q → w.patch.Covers (m.serverHostPtr + j) := by
    intro q hq hqsize hpub
    rcases Nat.lt_succ_iff_lt_or_eq.mp hq with hlt | rfl
    · rcases h.published q hlt hqsize hpub with hin | hwritten
      · refine Or.inl (le_trans ?_ hin)
        rw [hstart, if_neg (by rintro ⟨-, hnone⟩; omega)]
      · exact Or.inr hwritten
    · left
      rw [hstart]
      split_ifs with hnew
      · exact le_rfl
      · rcases h.pending with hnone | ⟨p, hp, -, hpstart, -⟩
        · exact absurd ⟨hpub, hnone⟩ hnew
        · omega
  -- The run ends here, with its window captured, or it stays open.
  by_cases hfinish : start ≠ m.size ∧
      (m.publishLocal (8 * k) = false ∨ 8 * k + m.wordBytes (8 * k) = m.size)
  · set pendingEnd := if m.publishLocal (8 * k) = true then 8 * k + m.wordBytes (8 * k) else 8 * k
      with hpendingEnd
    have hwrite := carries_captureWrite window start pendingEnd hmerged hk
    have hend : pendingEnd ≤ expandedEnd window m.size pendingEnd := by
      apply le_expandedEnd hpos hfit
      rw [hpendingEnd]
      split_ifs
      · exact hinside
      · exact hk.le
    have hbegin : expandedStart window start ≤ start := Nat.div_mul_le_self start window
    refine ⟨hmerged, Or.inl (if_pos hfinish), fun _ ↦ if_pos hfinish, ?_, ?_⟩
    · intro w hw
      simp only [mergeWord, ← hstart, if_pos hfinish, List.mem_append, List.mem_singleton] at hw
      rcases hw with hw | rfl
      · exact h.carries w hw
      · exact ⟨_, _, hwrite⟩
    · intro q hq hqsize hpub
      right
      simp only [mergeWord, ← hstart, if_pos hfinish]
      rcases hreach q hq hqsize hpub with hin | ⟨w, hw, hcovers⟩
      · refine ⟨_, List.mem_append_right _ (List.mem_singleton_self _), fun j hj hjq ↦ ?_⟩
        rw [hwrite.covers]
        have hqj : 8 * q ≤ j ∧ j < 8 * q + 8 := by rw [wordOf] at hjq; omega
        have hjend : j < pendingEnd := by
          rw [hpendingEnd]
          split_ifs with hpubk
          · rcases hfinish.2 with hno | hsize
            · exact absurd hpubk (by rw [hno]; exact Bool.false_ne_true)
            · omega
          · have hne : q ≠ k := by rintro rfl; exact hpubk hpub
            omega
        omega
      · exact ⟨w, List.mem_append_left _ hw, hcovers⟩
  · refine ⟨hmerged, ?_, ?_, ?_, ?_⟩
    · simp only [mergeWord, ← hstart, if_neg hfinish]
      exact hopen.imp_right fun ⟨p, hp, hrest⟩ ↦ ⟨p, Nat.lt_succ_of_le hp, hrest⟩
    · intro hdone
      simp only [mergeWord, ← hstart, if_neg hfinish]
      by_contra hne
      exact hfinish ⟨hne, Or.inr (hlast.mp hdone)⟩
    · intro w hw
      simp only [mergeWord, ← hstart, if_neg hfinish] at hw
      exact h.carries w hw
    · intro q hq hqsize hpub
      simp only [mergeWord, ← hstart, if_neg hfinish]
      exact hreach q hq hqsize hpub

theorem mergeInv_mergeWords {window k : ℕ} (hpos : 0 < window) (hfit : window + m.size ≤ 2 ^ 64)
    (hk : k ≤ m.wordCount) : m.MergeInv k (mergeWords window m k) := by
  induction k with
  | zero => exact m.mergeInv_zero
  | succ k ih =>
    have hword : 8 * k < m.size := by rw [wordCount] at hk; omega
    exact (ih (Nat.le_of_succ_le hk)).step hpos hfit hword

theorem mappingWrites_spec {window : ℕ} (hpos : 0 < window) (hfit : window + m.size ≤ 2 ^ 64) :
    (∀ w ∈ mappingWrites window m, ∃ first last, m.Carries w first last) ∧
      (m.serverHostPtr ≠ 0 → ∀ j < m.size, m.publishLocal (wordOf j) = true →
        ∃ w ∈ mappingWrites window m, w.patch.Covers (m.serverHostPtr + j)) := by
  have hinv := mergeInv_mergeWords hpos hfit (le_refl m.wordCount)
  have hall : m.size ≤ 8 * m.wordCount := by rw [wordCount]; omega
  have hbroad : m.Carries
      { conn := m.conn, destination := m.serverHostPtr
        data := bytesBetween (mergeWords window m m.wordCount).merged 0 m.size
        captured := m.size } 0 m.size := by
    refine ⟨rfl, le_rfl, fun x ↦ ?_, fun j _ hj ↦ ?_⟩
    · rw [Patch.Covers, PendingWrite.patch]
      simp only [length_bytesBetween]
      omega
    · have hbyte := hinv.merged j hj
      rw [if_pos (by omega)] at hbyte
      rw [if_pos hj, Patch.get?, PendingWrite.patch, if_pos (Nat.le_add_right _ _)]
      simp only [Nat.add_sub_cancel_left]
      rw [bytesBetween_getElem? _ (by omega), Nat.zero_add, hbyte]
  rw [mappingWrites]
  refine ⟨?_, fun hlive j hj hpub ↦ ?_⟩
  · intro w hw
    split_ifs at hw
    · exact absurd hw List.not_mem_nil
    · obtain rfl := List.mem_singleton.mp hw
      exact ⟨_, _, hbroad⟩
    · exact hinv.carries w hw
  · rw [if_neg (by omega)]
    split_ifs
    · exact ⟨_, List.mem_singleton_self _, (hbroad.covers _).mpr (by omega)⟩
    · have hword : wordOf j = 8 * (j / 8) := Nat.mul_comm _ _
      rw [hword] at hpub
      have hclosed := hinv.closed hall
      rcases hinv.published (j / 8) (by omega) (by omega) hpub with hin | ⟨w, hw, hcovers⟩
      · omega
      · exact ⟨w, hw, hcovers j hj hword⟩

/-- Where no byte of a range differs, no byte of it does. -/
theorem eq_of_not_memDiffers {a b : Memory UInt8} {i n x : ℕ} (h : memDiffers a b i n = false)
    (hi : i ≤ x) (hx : x < i + n) : a x = b x := by
  rw [memDiffers, List.any_eq_false] at h
  have hbyte := h (x - i) (List.mem_range.mpr (by omega))
  rw [Nat.add_sub_cancel' hi] at hbyte
  simpa using hbyte

/-- A word neither side changed is merged to what the server has. -/
theorem mergedByte_of_unchanged {j : ℕ} (hj : j < m.size)
    (hlocal : m.localChanged (wordOf j) = false) (hremote : m.remoteChanged (wordOf j) = false) :
    m.mergedByte j = m.remote j := by
  have hword : wordOf j ≤ j ∧ j < wordOf j + m.wordBytes (wordOf j) := by
    rw [wordBytes, wordOf]
    omega
  have hl := eq_of_not_memDiffers hlocal hword.1 hword.2
  have hr := eq_of_not_memDiffers hremote hword.1 hword.2
  rw [mergedByte, value, hremote]
  split_ifs <;> simp_all

variable (m)

theorem mergedByte_eq {j : ℕ} (hj : j < m.size) :
    m.mergedByte j =
      if m.clientToServerOnly = true ∨ m.publishLocal (wordOf j) = true then m.localBuffer j
      else m.remote j := by
  by_cases hunchanged : m.localChanged (wordOf j) = false ∧ m.remoteChanged (wordOf j) = false ∧
      m.clientToServerOnly = false
  · obtain ⟨hlocal, hremote, hc2s⟩ := hunchanged
    rw [mergedByte_of_unchanged hj hlocal hremote, publishLocal, hlocal, hc2s]
    rfl
  · rw [mergedByte, value, publishLocal]
    cases hc2s : m.clientToServerOnly <;> cases hremote : m.remoteChanged (wordOf j) <;>
      cases hlocal : m.localChanged (wordOf j) <;> simp_all

end LiveMapping

/-! ## The step

The ranges of two mappings on one server do not meet, so a write that covers a byte of a mapping is
a write of that mapping. -/

/-- The ranges of two mappings on one server do not meet. -/
def LiveMapping.Apart (a b : LiveMapping) : Prop :=
  a.conn = b.conn →
    a.serverHostPtr + a.size ≤ b.serverHostPtr ∨ b.serverHostPtr + b.size ≤ a.serverHostPtr

instance : Std.Symm LiveMapping.Apart where
  symm _ _ h hconn := (h hconn.symm).symm

/-- What one step is given: a window size no window bound of which overflows, and mappings whose
ranges on one server are disjoint. -/
structure CoherenceInput where
  window : ℕ
  mappings : List LiveMapping
  window_pos : 0 < window
  window_fits : ∀ m ∈ mappings, window + m.size ≤ 2 ^ 64
  apart : mappings.Pairwise LiveMapping.Apart

theorem CoherenceInput.carries_of_covers (input : CoherenceInput) {m : LiveMapping}
    (hm : m ∈ input.mappings) {w : PendingWrite}
    (hw : w ∈ pendingWrites input.window input.mappings) (hconn : w.conn = m.conn) {j : ℕ}
    (hj : j < m.size) (hcovers : w.patch.Covers (m.serverHostPtr + j)) :
    ∃ first last, m.Carries w first last := by
  obtain ⟨m', hm', hw'⟩ := mem_pendingWrites.mp hw
  obtain ⟨first, last, hcarries⟩ :=
    (LiveMapping.mappingWrites_spec input.window_pos (input.window_fits m' hm')).1 w hw'
  rcases eq_or_ne m' m with rfl | hne
  · exact ⟨first, last, hcarries⟩
  · exfalso
    have hapart := List.Pairwise.forall input.apart hm' hm hne (hcarries.conn.symm.trans hconn)
    have hin := (hcarries.covers _).mp hcovers
    have hlast := hcarries.last_le
    omega

theorem CoherenceInput.step_apply (input : CoherenceInput) (servers : ℕ → Memory UInt8)
    (conn x : ℕ) :
    liveMappedCoherenceStep input.window input.mappings servers conn x
      = (lastValue (((pendingWrites input.window input.mappings).filter fun w ↦ w.conn == conn).map
          PendingWrite.patch) x).getD (servers conn x) := by
  rw [liveMappedCoherenceStep, handleFlushes_publishPending, applyPatches_apply]

/-- What the server ends with at a byte some write covers: the last such write decides, with the
merge where it was captured and with zero behind. -/
theorem CoherenceInput.step_covered (input : CoherenceInput) (servers : ℕ → Memory UInt8)
    {m : LiveMapping} (hm : m ∈ input.mappings) {pre post : List PendingWrite} {w : PendingWrite}
    (hsent : pendingWrites input.window input.mappings = pre ++ w :: post)
    (hconn : w.conn = m.conn) {j : ℕ} (hj : j < m.size)
    (hcovers : w.patch.Covers (m.serverHostPtr + j))
    (hlast : ∀ w' ∈ post, w'.conn = m.conn → ¬ w'.patch.Covers (m.serverHostPtr + j)) :
    liveMappedCoherenceStep input.window input.mappings servers m.conn (m.serverHostPtr + j)
      = if j < w.captured then m.mergedByte j else 0 := by
  obtain ⟨first, last, hcarries⟩ := input.carries_of_covers hm
    (hsent ▸ List.mem_append_right _ List.mem_cons_self) hconn hj hcovers
  have hrange := (hcarries.covers _).mp hcovers
  have hbyte := hcarries.byte j (by omega) (by omega)
  have hpost : ∀ q ∈ ((post.filter fun v ↦ v.conn == m.conn).map PendingWrite.patch),
      ¬ q.Covers (m.serverHostPtr + j) := by
    intro q hq
    obtain ⟨v, hv, rfl⟩ := List.mem_map.mp hq
    obtain ⟨hvpost, hvconn⟩ := List.mem_filter.mp hv
    exact hlast v hvpost (by simpa using hvconn)
  rw [input.step_apply, hsent, List.filter_append, List.filter_cons_of_pos (by simpa using hconn),
    List.map_append, List.map_cons, lastValue_of_split hbyte hpost]
  rfl

/-- **What a step publishes.** For every mapping of every step: the merge takes every word of a
client-to-server mapping from the client, and of a bidirectional one the words only the client
changed, all others from the server; a word neither side changed is merged to what the server has;
each word the client changed and the server did not is in a write, as is each word the client
changed in a client-to-server mapping; a byte in no write is left alone; and a byte whose last write
was captured once the merge had passed it ends up merged. -/
theorem coherenceStep_publishes (input : CoherenceInput) (servers : ℕ → Memory UInt8)
    {m : LiveMapping} (hm : m ∈ input.mappings) (hlive : m.serverHostPtr ≠ 0) {j : ℕ}
    (hj : j < m.size) :
    (m.mergedByte j =
      if m.clientToServerOnly = true ∨ m.publishLocal (LiveMapping.wordOf j) = true then
        m.localBuffer j
      else m.remote j) ∧
    (m.localChanged (LiveMapping.wordOf j) = false →
      m.remoteChanged (LiveMapping.wordOf j) = false → m.mergedByte j = m.remote j) ∧
    (m.publishLocal (LiveMapping.wordOf j) = true →
      ∃ w ∈ pendingWrites input.window input.mappings,
        w.conn = m.conn ∧ w.patch.Covers (m.serverHostPtr + j)) ∧
    ((∀ w ∈ pendingWrites input.window input.mappings,
        w.conn = m.conn → ¬ w.patch.Covers (m.serverHostPtr + j)) →
      liveMappedCoherenceStep input.window input.mappings servers m.conn (m.serverHostPtr + j)
        = servers m.conn (m.serverHostPtr + j)) ∧
    ∀ pre w post, pendingWrites input.window input.mappings = pre ++ w :: post →
      w.conn = m.conn → w.patch.Covers (m.serverHostPtr + j) →
      (∀ w' ∈ post, w'.conn = m.conn → ¬ w'.patch.Covers (m.serverHostPtr + j)) →
      j < w.captured →
      liveMappedCoherenceStep input.window input.mappings servers m.conn (m.serverHostPtr + j)
        = m.mergedByte j := by
  refine ⟨m.mergedByte_eq hj, LiveMapping.mergedByte_of_unchanged hj, fun hpub ↦ ?_,
    fun hnone ↦ ?_, ?_⟩
  · have hspec := LiveMapping.mappingWrites_spec input.window_pos (input.window_fits m hm)
    obtain ⟨w, hw, hcovers⟩ := hspec.2 hlive j hj hpub
    obtain ⟨first, last, hcarries⟩ := hspec.1 w hw
    exact ⟨w, mem_pendingWrites.mpr ⟨m, hm, hw⟩, hcarries.conn, hcovers⟩
  · have hfilter : ∀ q ∈ (((pendingWrites input.window input.mappings).filter
        fun v ↦ v.conn == m.conn).map PendingWrite.patch), ¬ q.Covers (m.serverHostPtr + j) := by
      intro q hq
      obtain ⟨v, hv, rfl⟩ := List.mem_map.mp hq
      obtain ⟨hvsent, hvconn⟩ := List.mem_filter.mp hv
      exact hnone v hvsent (by simpa using hvconn)
    rw [input.step_apply, lastValue_eq_none_iff.mpr hfilter]
    rfl
  · intro pre w post hsent hconn hcovers hlast hcaptured
    rw [input.step_covered servers hm hsent hconn hj hcovers hlast, if_pos hcaptured]

/-- A mapping at address 4096 of the server behind connection 0. -/
def mappingAt4096 (size : ℕ) (clientToServerOnly : Bool) (localBuffer shadow remote : ℕ → UInt8) :
    LiveMapping where
  conn := 0
  serverHostPtr := 4096
  size := size
  clientToServerOnly := clientToServerOnly
  localBuffer := localBuffer
  shadow := shadow
  remote := remote

/-- Three words of nines of which the client changed the first. -/
def firstWordChanged : LiveMapping :=
  mappingAt4096 24 false (fun j ↦ if j < 8 then 1 else 9) (fun _ ↦ 9) fun _ ↦ 9

/-- The one write of `firstWordChanged`, captured behind the second word. -/
def firstWordWrite : PendingWrite where
  conn := 0
  destination := 4096
  data := List.replicate 8 1 ++ List.replicate 8 9 ++ List.replicate 8 0
  captured := 16

theorem coherenceStep_publishes_firstWord :
    liveMappedCoherenceStep 4194304 [firstWordChanged] (fun _ _ ↦ 9) 0 (4096 + 3)
      = firstWordChanged.mergedByte 3 := by
  let input : CoherenceInput :=
    { window := 4194304
      mappings := [firstWordChanged]
      window_pos := by decide
      window_fits := by simp [firstWordChanged, mappingAt4096]
      apart := List.pairwise_singleton _ _ }
  have hsize : 3 < firstWordChanged.size := by decide
  have hsent : pendingWrites input.window input.mappings = [] ++ firstWordWrite :: [] := by
    decide +kernel
  exact (coherenceStep_publishes input (fun _ _ ↦ 9) (List.mem_singleton_self _) (by decide)
    hsize).2.2.2.2 [] firstWordWrite [] hsent rfl (by decide) (by simp) (by decide)

def wordInConflict : LiveMapping := mappingAt4096 8 false (fun _ ↦ 1) (fun _ ↦ 0) fun _ ↦ 2

/-- The client changed the first word of a client-to-server mapping, the server the second. -/
def secondWordRemote : LiveMapping :=
  mappingAt4096 16 true (fun j ↦ if j < 8 then 1 else 0) (fun _ ↦ 0) fun j ↦ if j < 8 then 0 else 2

def wordLocal : LiveMapping := mappingAt4096 8 false (fun _ ↦ 1) (fun _ ↦ 0) fun _ ↦ 0

/-- Four ways in which the server does not end with the words the client changed and its own words
elsewhere: a word behind the capture of the write that covers it is zeroed; where both sides changed
a word the server keeps its own; in a client-to-server mapping a word only the server changed is
reset with the window it lies in; and a window size near `2 ^ 64` sends nothing. -/
theorem coherenceStep_other_outcomes :
    (firstWordChanged.localChanged 16 = false ∧ firstWordChanged.remoteChanged 16 = false ∧
      liveMappedCoherenceStep 4194304 [firstWordChanged] (fun _ _ ↦ 9) 0 (4096 + 16) = 0) ∧
    (wordInConflict.localChanged 0 = true ∧
      liveMappedCoherenceStep 4194304 [wordInConflict] (fun _ _ ↦ 2) 0 4096 = 2) ∧
    (secondWordRemote.localChanged 8 = false ∧
      liveMappedCoherenceStep 4194304 [secondWordRemote]
        (fun _ x ↦ if x < 4104 then 0 else 2) 0 4104 = 0) ∧
    (wordLocal.localChanged 0 = true ∧
      liveMappedCoherenceStep (2 ^ 64 - 1) [wordLocal] (fun _ _ ↦ 0) 0 4096 = 0) := by
  decide +kernel

end Lupine
