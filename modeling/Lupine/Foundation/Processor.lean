import Lupine.Foundation.MachineMemory
import Lupine.Foundation.Procedures

/-!
# Processors

A processor takes its instructions from memory. Code that lies outside of the stack, and whose
instructions follow each other, is executed from the first to the last: what the processor reaches
is the effect of the instructions one after the other, whatever else lies in memory.

The effect of a block is a function on states, so what a block does can be computed without the
memory that it lies in. What has to be shown besides is that each of its instructions is followed by
the next, and writes to the stack only, in the state that it is reached in.
-/

namespace Foundation

/-- A processor with states `σ` and instructions `ι`. -/
structure Processor (σ ι : Type*) where
  pc : σ → BitVec 64
  mem : σ → ByteMemory
  encode : ι → List UInt8
  /-- What an instruction does, its place in memory included. -/
  next : ι → σ → σ
  step : σ → Option σ
  step_eq : ∀ s i, (mem s).read (pc s) (encode i).length = encode i → step s = some (next i s)

namespace Processor

variable {σ ι ω : Type*} (P : Processor σ ι) (S : StackRegion)

def assemble (is : List ι) : List UInt8 := is.flatMap P.encode

def block : List ι → σ → σ
  | [], s => s
  | i :: is, s => block is (P.next i s)

/-- An instruction that the next one follows, and that writes at most to the stack. -/
structure Keeps (i : ι) (s : σ) : Prop where
  pc_next : P.pc (P.next i s) = P.pc s + BitVec.ofNat 64 (P.encode i).length
  outside_next : S.outside (P.mem (P.next i s)) = S.outside (P.mem s)

/-- All instructions are such, each in the state that it is reached in. -/
def KeepsAll : List ι → σ → Prop
  | [], _ => True
  | i :: is, s => P.Keeps S i s ∧ KeepsAll is (P.next i s)

/-- Procedures of the processor share what is outside of the stack. -/
def calls (Entered : σ → ω → List ω → ℕ → Prop) (Left : ℕ → σ → σ → ω → Prop) :
    Convention σ ω (BitVec 64 → Option UInt8) where
  step := P.step
  world s := S.outside (P.mem s)
  Entered := Entered
  Left := Left

variable {P S} {s : σ}

theorem block_append (is js : List ι) (s : σ) :
    P.block (is ++ js) s = P.block js (P.block is s) := by
  induction is generalizing s with
  | nil => rfl
  | cons i is ih => exact ih (P.next i s)

theorem keepsAll_of_forall {is : List ι} (h : ∀ i ∈ is, ∀ s, P.Keeps S i s) :
    P.KeepsAll S is s := by
  induction is generalizing s with
  | nil => trivial
  | cons i is ih =>
    obtain ⟨hi, his⟩ := List.forall_mem_cons.mp h
    exact ⟨hi s, ih his⟩

/-- The instruction at the program counter is executed. -/
theorem reaches_next {i : ι} (h : Holds (S.outside (P.mem s)) (P.pc s) (P.encode i)) :
    Reaches P.step s (P.next i s) :=
  .single (P.step_eq s i (read_of_holds h))

/-- **Blocks.** Code that lies outside of the stack is executed from its first instruction to
its last. -/
theorem reaches_block {is : List ι} (hcode : Holds (S.outside (P.mem s)) (P.pc s) (P.assemble is))
    (hkeeps : P.KeepsAll S is s) :
    Reaches P.step s (P.block is s) ∧
      S.outside (P.mem (P.block is s)) = S.outside (P.mem s) ∧
      P.pc (P.block is s) = P.pc s + BitVec.ofNat 64 (P.assemble is).length := by
  induction is generalizing s with
  | nil => exact ⟨.refl s, rfl, (BitVec.add_zero _).symm⟩
  | cons i is ih =>
    obtain ⟨⟨hpc, hout⟩, hkeeps⟩ := hkeeps
    obtain ⟨hfirst, hrest⟩ := holds_append.mp hcode
    rw [← hout, ← hpc] at hrest
    obtain ⟨hgo, hout', hend⟩ := ih hrest hkeeps
    refine ⟨(reaches_next hfirst).trans hgo, hout'.trans hout, ?_⟩
    rw [block, hend, hpc, BitVec.add_assoc, ← BitVec.ofNat_add]
    exact congrArg _ (congrArg _ (List.length_append ..).symm)

end Processor

end Foundation
