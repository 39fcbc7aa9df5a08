import Lupine.Foundation.Reader
import Lupine.Transport.Framing

/-!
# Words and arrays on the wire

A response is read by `rpc_read`, one field after the other, and each read is tested for being
negative. The readers here are those tests as programs, so that what a handler writes and what its
caller reads can be compared part by part.

The result of a read is its size as an `int`. A size whose low 32 bits are a negative number is
therefore taken for a failure, though the bytes have been read.
-/

namespace Lupine

open Foundation

/-- `INT_MAX`. -/
def intMax : ℕ := 2 ^ 31 - 1

/-- `rpc_read`, with the test of the caller. -/
def rpcReadBytes (size : ℕ) : Reader UInt8 (List UInt8) := fun input ↦
  (unlessNegative (rpcRead input size)).map fun r ↦ (r.data, r.rest)

def rpcReadWord (width : ℕ) : Reader UInt8 ℕ := do
  let data ← rpcReadBytes width
  pure (leValue data)

/-- A read is exact when the low 32 bits of its size are not a negative number. -/
theorem reads_rpcReadBytes {data : List UInt8} {size : ℕ} (hsize : data.length = size)
    (h : 0 ≤ staticCastInt size) : (rpcReadBytes size).Reads data data := by
  intro rest
  subst hsize
  rw [StateT.run, rpcReadBytes, rpcRead_append, unlessNegative, Option.filter_some,
    if_pos (decide_eq_true h)]
  rfl

theorem staticCastInt_nonneg {size : ℕ} (h : size < 2 ^ 31) : 0 ≤ staticCastInt size := by
  rw [staticCastInt_of_lt h]
  exact Int.natCast_nonneg size

theorem reads_rpcReadWord {width n : ℕ} (hwidth : width < 2 ^ 31) (h : n < 256 ^ width) :
    (rpcReadWord width).Reads (leBytes width n) n := by
  have hread : (rpcReadWord width).Reads (leBytes width n) (leValue (leBytes width n)) :=
    (reads_rpcReadBytes (length_leBytes width n) (staticCastInt_nonneg hwidth)).bind_pure
  rwa [leValue_leBytes h] at hread

/-- A size whose low 32 bits are a negative number is taken for a failure. -/
theorem run_rpcReadBytes_of_negative {size : ℕ} (h : staticCastInt size < 0) (input : List UInt8) :
    (rpcReadBytes size).run input = none := by
  rw [StateT.run, rpcReadBytes, rpcRead]
  split_ifs
  · rw [unlessNegative, Option.filter_some, if_neg (by simpa using h)]
    rfl
  · rfl

/-- `rpc_drain`, as a reader. -/
def rpcDrainBytes (size : ℕ) : Reader UInt8 Unit := fun input ↦
  (rpcDrain input size).map fun rest ↦ ((), rest)

theorem reads_rpcDrainBytes (data : List UInt8) : (rpcDrainBytes data.length).Reads data () := by
  intro rest
  rw [StateT.run, rpcDrainBytes, rpcDrain_append]
  rfl

end Lupine
