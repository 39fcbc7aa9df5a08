import Mathlib.Algebra.Group.Nat.Even

/-!
# The flow-control window of an inbound stream

Every byte of a DATA chunk is charged to the window the peer may send in, and the server credits it
back at once: the bytes that wait to be read do not hold the window shut. Only while a hold is in
force are received bytes left uncredited, up to a cap. The hold that ends hands its bytes to a
staging buffer, and whoever retires the buffer releases them.
-/

namespace Lupine

/-- `LUPINE_FF_STAGING_WINDOW_BYTES`. -/
def ffStagingWindowBytes : ℕ := 64 * 1024 * 1024

/-- `kH2MaxHeldBytes`. -/
def kH2MaxHeldBytes : ℕ := ffStagingWindowBytes / 2

/-- The part of `h2_transport` that the window depends on, on the server. The fields behind
`stagedBytes` count what has happened. -/
structure H2Window where
  windowHold : Bool := false
  windowHoldBytes : ℕ := 0
  windowHeld : ℕ := 0
  readRemaining : ℕ := 0
  /-- The bytes of `local_out`, received and not yet read. -/
  stagedBytes : ℕ := 0
  received : ℕ := 0
  /-- The bytes given to `nghttp2_session_consume`. -/
  credited : ℕ := 0
  /-- The bytes that reached the memory of a reader. -/
  readBytes : ℕ := 0
  everHeld : ℕ := 0
  released : ℕ := 0
  deriving DecidableEq, Repr

namespace H2Window

variable (w : H2Window)

/-- `receive_bytes`. -/
def receiveBytes (len : ℕ) : H2Window :=
  let direct := min len w.readRemaining
  { w with
    readRemaining := w.readRemaining - direct
    readBytes := w.readBytes + direct
    stagedBytes := w.stagedBytes + (len - direct) }

/-- How much of a chunk the hold takes. -/
def heldOf (len : ℕ) : ℕ :=
  if w.windowHold ∧ w.windowHeld < kH2MaxHeldBytes then min len (kH2MaxHeldBytes - w.windowHeld)
  else 0

/-- `h2_on_data_chunk_recv_callback`. -/
def onDataChunkRecv (len : ℕ) : H2Window :=
  { w with
    windowHeld := w.windowHeld + w.heldOf len
    windowHoldBytes := w.windowHoldBytes + w.heldOf len
    everHeld := w.everHeld + w.heldOf len
    credited := w.credited + (len - w.heldOf len)
    received := w.received + len }.receiveBytes len

/-- What `rpc_http2_read` takes from `local_out`. -/
def readStaged (size : ℕ) : H2Window :=
  { w with
    stagedBytes := w.stagedBytes - min size w.stagedBytes
    readBytes := w.readBytes + min size w.stagedBytes }

/-- `h2_read_from_net` gives the rest of the reader's memory as the destination of what comes. -/
def beginNetRead (capacity : ℕ) : H2Window := { w with readRemaining := capacity }

def endNetRead : H2Window := { w with readRemaining := 0 }

/-- `rpc_http2_window_hold_begin`. -/
def holdBegin : H2Window := { w with windowHold := true, windowHoldBytes := 0 }

/-- `rpc_http2_window_hold_end`, which returns the bytes held. -/
def holdEnd : ℕ × H2Window :=
  (w.windowHoldBytes, { w with windowHold := false, windowHoldBytes := 0 })

/-- `rpc_http2_window_release`. -/
def release (bytes : ℕ) : H2Window :=
  if bytes = 0 then w
  else
    { w with
      windowHeld := w.windowHeld - min bytes w.windowHeld
      credited := w.credited + bytes
      released := w.released + bytes }

variable {w}

/-! ## Releases

Two releases are one release of the sum, so only the sum matters to a sweep. -/

@[simp] theorem release_zero : w.release 0 = w := if_pos rfl

theorem release_eq (bytes : ℕ) : w.release bytes = { w with
    windowHeld := w.windowHeld - bytes
    credited := w.credited + bytes
    released := w.released + bytes } := by
  rw [release]
  split_ifs with hzero
  · rw [hzero]
    rfl
  · rw [show w.windowHeld - min bytes w.windowHeld = w.windowHeld - bytes from by omega]

theorem release_release (m n : ℕ) : (w.release m).release n = w.release (m + n) := by
  rw [release_eq, release_eq, release_eq]
  simp only [Nat.sub_sub, Nat.add_assoc]

@[simp] theorem windowHold_release (n : ℕ) : (w.release n).windowHold = w.windowHold := by
  rw [release_eq]

@[simp] theorem windowHoldBytes_release (n : ℕ) :
    (w.release n).windowHoldBytes = w.windowHoldBytes := by
  rw [release_eq]

@[simp] theorem windowHeld_release (n : ℕ) : (w.release n).windowHeld = w.windowHeld - n := by
  rw [release_eq]

/-! ## The balance of the counts

A chunk is held in part and credited for the rest. A release credits what was held, provided that no
more is released than is held. -/

/-- **The balance.** What was received is credited or held, and it has been read or waits; a byte
ever held is released or still held; and the bytes held are at most the cap. -/
structure Balanced (w : H2Window) : Prop where
  received_eq : w.received = w.credited + w.windowHeld
  read_eq : w.received = w.readBytes + w.stagedBytes
  everHeld_eq : w.everHeld = w.released + w.windowHeld
  held_le : w.windowHeld ≤ kH2MaxHeldBytes

theorem balanced_init : Balanced {} := ⟨rfl, rfl, rfl, Nat.zero_le _⟩

theorem heldOf_le (len : ℕ) : w.heldOf len ≤ len := by
  rw [heldOf]
  split_ifs
  · exact Nat.min_le_left _ _
  · exact Nat.zero_le _

theorem heldOf_of_not_hold {len : ℕ} (h : w.windowHold = false) : w.heldOf len = 0 := by
  rw [heldOf, h, if_neg fun hhold ↦ Bool.false_ne_true hhold.1]

theorem windowHeld_add_heldOf_le {len : ℕ} (h : w.windowHeld ≤ kH2MaxHeldBytes) :
    w.windowHeld + w.heldOf len ≤ kH2MaxHeldBytes := by
  rw [heldOf]
  split_ifs
  · have hle := Nat.min_le_right len (kH2MaxHeldBytes - w.windowHeld)
    omega
  · exact h

theorem Balanced.onDataChunkRecv (h : w.Balanced) (len : ℕ) : (w.onDataChunkRecv len).Balanced := by
  obtain ⟨hreceived, hread, hheld, hle⟩ := h
  have hpart := heldOf_le (w := w) len
  have hdirect := Nat.min_le_left len w.readRemaining
  refine ⟨?_, ?_, ?_, windowHeld_add_heldOf_le hle⟩
  · show w.received + len = w.credited + (len - w.heldOf len) + (w.windowHeld + w.heldOf len)
    omega
  · show w.received + len = w.readBytes + min len w.readRemaining
      + (w.stagedBytes + (len - min len w.readRemaining))
    omega
  · show w.everHeld + w.heldOf len = w.released + (w.windowHeld + w.heldOf len)
    omega

theorem Balanced.readStaged (h : w.Balanced) (size : ℕ) : (w.readStaged size).Balanced := by
  refine ⟨h.received_eq, ?_, h.everHeld_eq, h.held_le⟩
  have hread := h.read_eq
  have hle := Nat.min_le_right size w.stagedBytes
  show w.received = w.readBytes + min size w.stagedBytes + (w.stagedBytes - min size w.stagedBytes)
  omega

theorem Balanced.release (h : w.Balanced) {n : ℕ} (hn : n ≤ w.windowHeld) :
    (w.release n).Balanced := by
  obtain ⟨hreceived, hread, hheld, hle⟩ := h
  rw [release_eq]
  refine ⟨?_, hread, ?_, le_trans (Nat.sub_le _ _) hle⟩
  · show w.received = w.credited + n + (w.windowHeld - n)
    omega
  · show w.everHeld = w.released + n + (w.windowHeld - n)
    omega

end H2Window

end Lupine
