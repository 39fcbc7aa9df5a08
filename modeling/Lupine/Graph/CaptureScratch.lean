import Lupine.Foundation.CompareExchange
import Lupine.Graph.Resources
import Mathlib.Algebra.Group.Nat.Even

/-!
# The scratch memory of a capture

What a capture copies from host memory is put into scratch memory, which requests of any number of
lanes take blocks from at once. There is one offset, up to which the memory is taken. A request
rounds it up to a multiple of 256 and moves it behind its block with a compare-and-exchange.

## Sizes

The offset and the sizes are words of 64 bits, so that the sums are taken modulo `2 ^ 64`. The
request is refused before any of them could go round, whatever it asks for.

The requests are the updates of a shared cell, so what any interleaving gives out is what the rounds
give out one after the other.
-/

namespace Lupine

open Foundation

/-! ## One round of the loop

The round is compared with unbounded numbers first; the tests of the source are those that keep all
sums below the size of the memory. -/

/-- `(current + 255) & ~size_t(255)`. -/
def alignedOffset (current : ℕ) : ℕ := (current + 255) % 2 ^ 64 / 256 * 256

/-- A round of `allocate_capture_scratch`: the new offset, and where the block starts. -/
def captureScratchRound (size : UInt64) (bytes current : ℕ) : Option (ℕ × ℕ) :=
  if bytes = 0 ∨ size.toNat < current ∨ 2 ^ 64 - 1 - 255 < current then none
  else if size.toNat < alignedOffset current ∨ size.toNat - alignedOffset current < bytes then none
  else some ((alignedOffset current + bytes) % 2 ^ 64, alignedOffset current)

def captureScratchMachine (size : UInt64) :
    Machine (SharedCell ℕ ℕ ℕ) (CellStep ℕ ℕ) := cellMachine (captureScratchRound size)

def unboundedRound (size bytes current : ℕ) : Option (ℕ × ℕ) :=
  let aligned := (current + 255) / 256 * 256
  if bytes = 0 ∨ size < current ∨ 2 ^ 64 - 1 - 255 < current then none
  else if size < aligned ∨ size - aligned < bytes then none
  else some (aligned + bytes, aligned)

/-- **No sum goes round.** -/
theorem captureScratchRound_eq (size : UInt64) (bytes current : ℕ) :
    captureScratchRound size bytes current = unboundedRound size.toNat bytes current := by
  rw [captureScratchRound, unboundedRound]
  by_cases hfirst : bytes = 0 ∨ size.toNat < current ∨ 2 ^ 64 - 1 - 255 < current
  · rw [if_pos hfirst, if_pos hfirst]
  · have haligned : alignedOffset current = (current + 255) / 256 * 256 := by
      rw [alignedOffset, Nat.mod_eq_of_lt (by omega)]
    rw [if_neg hfirst, if_neg hfirst, haligned]
    by_cases hsecond : size.toNat < (current + 255) / 256 * 256 ∨
        size.toNat - (current + 255) / 256 * 256 < bytes
    · rw [if_pos hsecond, if_pos hsecond]
    · have hsize := size.toNat_lt
      rw [if_neg hsecond, if_neg hsecond, Nat.mod_eq_of_lt (by omega)]

/-- **A round** that has something to store has a block inside the memory and behind the offset, and
the new offset is the end of the block. -/
theorem captureScratchRound_eq_some {size : UInt64} {bytes current offset start : ℕ}
    (h : captureScratchRound size bytes current = some (offset, start)) :
    current ≤ start ∧ start % 256 = 0 ∧ offset = start + bytes ∧ offset ≤ size.toNat := by
  rw [captureScratchRound_eq, unboundedRound] at h
  obtain ⟨hfirst, h⟩ := Option.ite_none_left_eq_some.mp h
  obtain ⟨hsecond, h⟩ := Option.ite_none_left_eq_some.mp h
  obtain ⟨rfl, rfl⟩ := Prod.mk.inj (Option.some.inj h)
  exact ⟨by omega, Nat.mul_mod_left _ _, rfl, by omega⟩

/-- The round of a request that nobody disturbs is the request on the resources alone. -/
theorem allocateCaptureScratch_eq {resources : GraphResources} {scratch : GraphCaptureScratch}
    (hscratch : resources.captureScratch = some scratch) {size : UInt64}
    (hsize : scratch.size = size.toNat) (bytes : ℕ) :
    resources.allocateCaptureScratch bytes =
      match captureScratchRound size bytes scratch.offset with
      | some (offset, start) => (some (scratch.ptr + start),
          { resources with captureScratch := some { scratch with offset } })
      | none => (none, resources) := by
  rw [GraphResources.allocateCaptureScratch, hscratch, captureScratchRound_eq, unboundedRound,
    ← hsize]
  dsimp only
  by_cases hfirst : bytes = 0 ∨ scratch.size < scratch.offset ∨ 2 ^ 64 - 1 - 255 < scratch.offset
  · rw [if_pos hfirst, if_pos (by tauto)]
  by_cases hsecond : scratch.size < (scratch.offset + 255) / 256 * 256 ∨
      scratch.size - (scratch.offset + 255) / 256 * 256 < bytes
  · rw [if_neg hfirst, if_pos hsecond, if_pos (by tauto)]
  · rw [if_neg hfirst, if_neg hsecond, if_neg (by tauto)]

/-! ## Any number of requests

Each block begins behind the end of the last one. -/

/-- Blocks do not overlap. -/
def BlocksApart (a b : ℕ × ℕ) : Prop := a.2 + a.1 ≤ b.2 ∨ b.2 + b.1 ≤ a.2

/-- What has been given out lies below the offset: the sizes and starts, from the last on. -/
structure ScratchBlocks (size : UInt64) (done : List (ℕ × ℕ)) (offset : ℕ) : Prop where
  offset_le : offset ≤ size.toNat
  block : ∀ b ∈ done, b.2 % 256 = 0 ∧ b.2 + b.1 ≤ offset
  apart : done.Pairwise BlocksApart

theorem ScratchBlocks.update {size : UInt64} {done : List (ℕ × ℕ)} {before offset bytes start : ℕ}
    (h : ScratchBlocks size done before)
    (hround : captureScratchRound size bytes before = some (offset, start)) :
    ScratchBlocks size ((bytes, start) :: done) offset := by
  obtain ⟨hle, haligned, rfl, hend⟩ := captureScratchRound_eq_some hround
  refine ⟨hend, ?_, List.pairwise_cons.mpr ⟨fun b hb ↦ ?_, h.apart⟩⟩
  · intro b hb
    rcases List.mem_cons.mp hb with rfl | hb
    · exact ⟨haligned, le_rfl⟩
    · obtain ⟨hbaligned, hbend⟩ := h.block b hb
      exact ⟨hbaligned, by omega⟩
  · exact Or.inr (Nat.le_trans (h.block b hb).2 hle)

/-- **The blocks of the scratch memory.** Whatever is asked for and however the requests are
interleaved, the blocks that are given out start at multiples of 256, lie inside the memory and do
not overlap; and no sum goes round, whatever offset is seen. -/
theorem captureScratch_blocks (size : UInt64) (steps : List (CellStep ℕ ℕ))
    (st : SharedCell ℕ ℕ ℕ)
    (hrun : (captureScratchMachine size).run (SharedCell.start 0) steps = some st) :
    (∀ b ∈ st.done, b.2 % 256 = 0 ∧ b.2 + b.1 ≤ size.toNat) ∧ st.done.Pairwise BlocksApart ∧
      ∀ bytes current, captureScratchRound size bytes current =
        unboundedRound size.toNat bytes current := by
  have hblocks : ScratchBlocks size st.done st.cell :=
    (cellMachine_replays hrun).invariant ⟨Nat.zero_le _, by simp, List.Pairwise.nil⟩
      fun _ _ _ _ _ h hround ↦ h.update hround
  refine ⟨fun b hb ↦ ?_, hblocks.apart, captureScratchRound_eq size⟩
  obtain ⟨haligned, hend⟩ := hblocks.block b hb
  exact ⟨haligned, Nat.le_trans hend hblocks.offset_le⟩

/-- Two requests see the same offset. The first takes its block; the second fails once, sees the new
offset and takes the next block. -/
theorem captureScratch_blocks_contended :
    ∃ st : SharedCell ℕ ℕ ℕ, (captureScratchMachine 1024).run (SharedCell.start 0)
        [.load 0 100 0, .load 1 200 0, .round 0 false 0, .round 1 false 100,
          .load 2 (2 ^ 64 - 1) 100, .round 1 false 0, .round 2 false 0] = some st ∧
      st.done = [(200, 256), (100, 0)] ∧ st.done.Pairwise BlocksApart := by
  have hrun : ∃ st, (captureScratchMachine 1024).run (SharedCell.start 0)
      [.load 0 100 0, .load 1 200 0, .round 0 false 0, .round 1 false 100, .load 2 (2 ^ 64 - 1) 100,
        .round 1 false 0, .round 2 false 0] = some st ∧ st.done = [(200, 256), (100, 0)] :=
    ⟨_, rfl, rfl⟩
  obtain ⟨st, hrun, hdone⟩ := hrun
  exact ⟨st, hrun, hdone, (captureScratch_blocks 1024 _ st hrun).2.1⟩

end Lupine
