import Lupine.Foundation.Processor
import Mathlib.Logic.Function.Basic

/-!
# A part of AArch64

The instructions that thunks without a frame are made of: moves of wide immediates and between
registers, and branches to registers. An instruction is a word of 32 bits, of which fixed fields say
what it is. The program counter is taken to be aligned, and what other instructions do is left open.

## What is modelled

Decoding inverts encoding on these instructions. A move of a half word keeps the other halves or
clears them, a move of a 32-bit register clears the upper half, and a branch sets the program
counter. A straight instruction is one that the next one follows.
-/

namespace Foundation

namespace AArch64

/-- The number of a register; 31 is the zero register. -/
abbrev Reg := BitVec 5

inductive Instr
  /-- `movz` of a 64-bit register: the half word `hw` is `imm`, the others are zero. -/
  | movzX (hw : BitVec 2) (imm : BitVec 16) (rd : Reg)
  /-- `movz` of a 32-bit register. -/
  | movzW (hw : BitVec 1) (imm : BitVec 16) (rd : Reg)
  /-- `movk` of a 64-bit register: the half word `hw` is `imm`, the others are kept. -/
  | movkX (hw : BitVec 2) (imm : BitVec 16) (rd : Reg)
  /-- `movk` of a 32-bit register. -/
  | movkW (hw : BitVec 1) (imm : BitVec 16) (rd : Reg)
  /-- `orr` of 64-bit registers without a shift, which is `mov` when the first is the zero
  register. -/
  | orr (rn rm rd : Reg)
  | br (rn : Reg)
  | ret (rn : Reg)
  deriving DecidableEq, Repr

namespace Instr

/-- The word of a move of an immediate: the width, the opcode, the half word, the immediate and the
register, from the highest bit down. -/
def moveWide (wide : Bool) (opcode : ℕ) (hw : ℕ) (imm : BitVec 16) (rd : Reg) : BitVec 32 :=
  BitVec.ofNat 32
    ((((wide.toNat * 0x100 + opcode) * 4 + hw) * 0x10000 + imm.toNat) * 32 + rd.toNat)

def encode : Instr → BitVec 32
  | movzX hw imm rd => moveWide true 0xa5 hw.toNat imm rd
  | movzW hw imm rd => moveWide false 0xa5 hw.toNat imm rd
  | movkX hw imm rd => moveWide true 0xe5 hw.toNat imm rd
  | movkW hw imm rd => moveWide false 0xe5 hw.toNat imm rd
  | orr rn rm rd =>
    BitVec.ofNat 32 (((0x550 * 32 + rm.toNat) * 0x40 * 32 + rn.toNat) * 32 + rd.toNat)
  | br rn => BitVec.ofNat 32 ((0x3587c0 * 32 + rn.toNat) * 32)
  | ret rn => BitVec.ofNat 32 ((0x3597c0 * 32 + rn.toNat) * 32)

/-- The register in the lowest bits of a number. -/
def regAt (n : ℕ) : Reg := BitVec.ofNat 5 n

def decode (w : BitVec 32) : Option Instr :=
  let n := w.toNat
  let opcode := n / 0x800000 % 0x100
  let hw := n / 0x200000 % 4
  let imm := BitVec.ofNat 16 (n / 32)
  if opcode = 0xa5 then
    if n / 0x80000000 = 1 then some (movzX (BitVec.ofNat 2 hw) imm (regAt n))
    else if hw < 2 then some (movzW (BitVec.ofNat 1 hw) imm (regAt n))
    else none
  else if opcode = 0xe5 then
    if n / 0x80000000 = 1 then some (movkX (BitVec.ofNat 2 hw) imm (regAt n))
    else if hw < 2 then some (movkW (BitVec.ofNat 1 hw) imm (regAt n))
    else none
  else if n / 0x200000 = 0x550 ∧ n / 0x400 % 0x40 = 0 then
    some (orr (regAt (n / 32)) (regAt (n / 0x10000)) (regAt n))
  else if n / 0x400 = 0x3587c0 ∧ n % 32 = 0 then some (br (regAt (n / 32)))
  else if n / 0x400 = 0x3597c0 ∧ n % 32 = 0 then some (ret (regAt (n / 32)))
  else none

theorem regAt_eq {n : ℕ} {r : Reg} (h : n % 32 = r.toNat) : regAt n = r :=
  BitVec.eq_of_toNat_eq (by rw [regAt, BitVec.toNat_ofNat]; exact h)

/-- The fields of a move of an immediate. -/
theorem moveWide_fields (wide : Bool) {opcode hw : ℕ} (hopcode : opcode < 0x100) (hhw : hw < 4)
    (imm : BitVec 16) (rd : Reg) {n : ℕ} (hn : (moveWide wide opcode hw imm rd).toNat = n) :
    n / 0x80000000 = wide.toNat ∧ n / 0x800000 % 0x100 = opcode ∧ n / 0x200000 % 4 = hw ∧
      BitVec.ofNat 16 (n / 32) = imm ∧ regAt n = rd := by
  have himm := imm.isLt
  have hrd := rd.isLt
  have hwide := wide.toNat_le
  rw [moveWide, BitVec.toNat_ofNat] at hn
  refine ⟨by omega, by omega, by omega, ?_, regAt_eq (by omega)⟩
  refine BitVec.eq_of_toNat_eq ?_
  rw [BitVec.toNat_ofNat]
  omega

/-- **Assembling and decoding.** -/
theorem decode_encode (i : Instr) : decode (encode i) = some i := by
  cases i with
  | movzX hw imm rd =>
    obtain ⟨hwide, hopcode, hhw, himm, hrd⟩ :=
      moveWide_fields true (by decide : 0xa5 < 0x100) hw.isLt imm rd rfl
    simp [decode, encode, hwide, hopcode, hhw, himm, hrd]
  | movzW hw imm rd =>
    obtain ⟨hwide, hopcode, hhw, himm, hrd⟩ :=
      moveWide_fields false (by decide : 0xa5 < 0x100) (by omega : hw.toNat < 4) imm rd rfl
    simp [decode, encode, hwide, hopcode, hhw, himm, hrd, hw.isLt]
  | movkX hw imm rd =>
    obtain ⟨hwide, hopcode, hhw, himm, hrd⟩ :=
      moveWide_fields true (by decide : 0xe5 < 0x100) hw.isLt imm rd rfl
    simp [decode, encode, hwide, hopcode, hhw, himm, hrd]
  | movkW hw imm rd =>
    obtain ⟨hwide, hopcode, hhw, himm, hrd⟩ :=
      moveWide_fields false (by decide : 0xe5 < 0x100) (by omega : hw.toNat < 4) imm rd rfl
    simp [decode, encode, hwide, hopcode, hhw, himm, hrd, hw.isLt]
  | orr rn rm rd =>
    have hrm := rm.isLt
    have hrn := rn.isLt
    have hrd := rd.isLt
    generalize hw : encode (orr rn rm rd) = w
    have hn : w.toNat = ((0x550 * 32 + rm.toNat) * 0x40 * 32 + rn.toNat) * 32 + rd.toNat := by
      rw [← hw, encode, BitVec.toNat_ofNat]
      omega
    rw [decode, if_neg (by omega), if_neg (by omega), if_pos (by omega),
      regAt_eq (r := rn) (by omega), regAt_eq (r := rm) (by omega), regAt_eq (r := rd) (by omega)]
  | br rn =>
    have hrn := rn.isLt
    generalize hw : encode (br rn) = w
    have hn : w.toNat = (0x3587c0 * 32 + rn.toNat) * 32 := by
      rw [← hw, encode, BitVec.toNat_ofNat]
      omega
    rw [decode, if_neg (by omega), if_neg (by omega), if_neg (by omega), if_pos (by omega),
      regAt_eq (r := rn) (by omega)]
  | ret rn =>
    have hrn := rn.isLt
    generalize hw : encode (ret rn) = w
    have hn : w.toNat = (0x3597c0 * 32 + rn.toNat) * 32 := by
      rw [← hw, encode, BitVec.toNat_ofNat]
      omega
    rw [decode, if_neg (by omega), if_neg (by omega), if_neg (by omega), if_neg (by omega),
      if_pos (by omega), regAt_eq (r := rn) (by omega)]

end Instr

open Instr

/-! ## Execution

The program counter has been moved past the instruction when it is executed, so that a branch is
just a write to it. -/

structure State where
  /-- The registers; that of the zero register is not used. -/
  regs : Reg → BitVec 64
  sp : BitVec 64
  pc : BitVec 64
  mem : ByteMemory

namespace State

variable (s : State)

def reg (r : Reg) : BitVec 64 := if r = 31 then 0 else s.regs r

def set (r : Reg) (v : BitVec 64) : State := { s with regs := Function.update s.regs r v }

def insert {w : ℕ} (v : BitVec w) (hw : ℕ) (imm : BitVec 16) : BitVec w :=
  (v &&& ~~~((0xffff : BitVec 16).setWidth w <<< (16 * hw))) ||| imm.setWidth w <<< (16 * hw)

/-- What an instruction does; the program counter stands behind it already. Writing a 32-bit
register clears the upper half. -/
def exec : Instr → State
  | .movzX hw imm rd => s.set rd (insert 0#64 hw.toNat imm)
  | .movzW hw imm rd => s.set rd ((insert 0#32 hw.toNat imm).setWidth 64)
  | .movkX hw imm rd => s.set rd (insert (s.reg rd) hw.toNat imm)
  | .movkW hw imm rd => s.set rd ((insert ((s.reg rd).setWidth 32) hw.toNat imm).setWidth 64)
  | .orr rn rm rd => s.set rd (s.reg rn ||| s.reg rm)
  | .br rn | .ret rn => { s with pc := s.reg rn }

def next (i : Instr) : State := { s with pc := s.pc + 4#64 }.exec i

def step : Option State :=
  (decode (BitVec.ofNat 32 (leValue (s.mem.read s.pc 4)))).map s.next

end State

def wordBytes (w : BitVec 32) : List UInt8 := leBytes 4 w.toNat

def aarch64 : Processor State Instr where
  pc := State.pc
  mem := State.mem
  encode i := wordBytes (encode i)
  next i s := s.next i
  step := State.step
  step_eq s i h := by
    rw [wordBytes, length_leBytes] at h
    rw [State.step, h, leValue_leBytes (by omega), BitVec.ofNat_toNat, BitVec.setWidth_eq,
      decode_encode, Option.map_some]

/-- The instructions that the next one follows. -/
def Instr.Straight : Instr → Prop
  | .br _ | .ret _ => False
  | _ => True

theorem keeps_of_straight {S : StackRegion} {s : State} {i : Instr} (h : i.Straight) :
    aarch64.Keeps S i s := by
  cases i with
  | br | ret => exact h.elim
  | _ => exact ⟨rfl, rfl⟩

/-! ## Calls

The link register has the return address, and the stack pointer and the saved registers are as they
were when a procedure returns. -/

/-- A procedure has been entered; its arguments are in the first eight registers. -/
structure Entered (S : StackRegion) (s : State) (entry : BitVec 64) (args : List (BitVec 64))
    (room : ℕ) : Prop where
  pc_eq : s.pc = entry
  aligned : s.sp.toNat % 16 = 0
  room_le : room ≤ S.height s.sp
  inside : S.height s.sp ≤ S.size
  inRegisters : args.length ≤ 8
  argument_eq : ∀ i (h : i < args.length), s.regs (BitVec.ofNat 5 i) = args[i]

/-- A procedure that was entered in `s` has returned. -/
structure Left (S : StackRegion) (s s' : State) (r : BitVec 64) : Prop where
  pc_eq : s'.pc = s.regs 30
  sp_eq : s'.sp = s.sp
  saved : ∀ reg : Reg, 19 ≤ reg → reg < 30 → s'.regs reg = s.regs reg
  result : s'.regs 0 = r
  /-- The stack of the caller is kept. -/
  kept : ∀ x, S.height s.sp ≤ S.height x → S.height x < S.size → s'.mem x = s.mem x

/-- The procedure call standard, on a stack. -/
def aapcs64 (S : StackRegion) : Convention State (BitVec 64) (BitVec 64 → Option UInt8) :=
  aarch64.calls S (Entered S) fun _ ↦ Left S

end AArch64

end Foundation
