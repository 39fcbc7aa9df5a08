import Lupine.Foundation.Processor
import Mathlib.Logic.Function.Basic

/-!
# A part of x86-64

The instructions that small hand-assembled thunks are made of: moves between registers, immediates,
pushes, additions of small constants, indirect calls and jumps, and returns. Each is decoded from
the bytes at the instruction pointer. What other instructions do is left open: the machine does not
step on them. Flags are left out, as none of these instructions reads one.

## What is modelled

Decoding inverts encoding on these instructions, whatever bytes follow. The address of a return is
the one that the call has pushed, which a procedure may not have touched. A stack has to have room
for what an instruction pushes; that is a condition on the state, kept apart from the instruction.
-/

namespace Foundation

namespace X86

inductive Reg
  | rax | rcx | rdx | rbx | rsp | rbp | rsi | rdi | r8 | r9 | r10 | r11 | r12 | r13 | r14 | r15
  deriving DecidableEq, Repr

namespace Reg

/-- The register of a three-bit field, and the bit of the REX byte that extends it. -/
def ofField (extended : Bool) (field : ℕ) : Reg :=
  match extended, field % 8 with
  | false, 0 => rax | false, 1 => rcx | false, 2 => rdx | false, 3 => rbx
  | false, 4 => rsp | false, 5 => rbp | false, 6 => rsi | false, _ => rdi
  | true, 0 => r8 | true, 1 => r9 | true, 2 => r10 | true, 3 => r11
  | true, 4 => r12 | true, 5 => r13 | true, 6 => r14 | true, _ => r15

def field : Reg → ℕ
  | rax | r8 => 0
  | rcx | r9 => 1
  | rdx | r10 => 2
  | rbx | r11 => 3
  | rsp | r12 => 4
  | rbp | r13 => 5
  | rsi | r14 => 6
  | rdi | r15 => 7

def extended : Reg → Bool
  | rax | rcx | rdx | rbx | rsp | rbp | rsi | rdi => false
  | r8 | r9 | r10 | r11 | r12 | r13 | r14 | r15 => true

end Reg

inductive Instr
  | addImm (r : Reg) (imm : BitVec 8)
  | subImm (r : Reg) (imm : BitVec 8)
  | push (r : Reg)
  | mov (dst src : Reg)
  | movImm32 (r : Reg) (imm : BitVec 32)
  | movImm64 (r : Reg) (imm : BitVec 64)
  | call (r : Reg)
  | jmp (r : Reg)
  | ret
  deriving DecidableEq, Repr

namespace Instr

/-! ## Encoding

Every instruction here has a REX byte or none, an opcode, and at most one byte of registers and an
immediate. -/

/-- The REX byte with its bits `W`, `R` and `B`. -/
def rex (w r b : Bool) : UInt8 :=
  UInt8.ofNat (64 + (if w then 8 else 0) + (if r then 4 else 0) + (if b then 1 else 0))

def modRM (reg rm : ℕ) : UInt8 := UInt8.ofNat (192 + 8 * reg + rm)

/-- The REX byte of an instruction that needs one for its register only. -/
def rexB (r : Reg) : List UInt8 := if r.extended then [rex false false true] else []

def encode : Instr → List UInt8
  | addImm r imm => [rex true false r.extended, 0x83, modRM 0 r.field, UInt8.ofNat imm.toNat]
  | subImm r imm => [rex true false r.extended, 0x83, modRM 5 r.field, UInt8.ofNat imm.toNat]
  | push r => rexB r ++ [UInt8.ofNat (0x50 + r.field)]
  | mov dst src => [rex true src.extended dst.extended, 0x89, modRM src.field dst.field]
  | movImm32 r imm => rexB r ++ UInt8.ofNat (0xb8 + r.field) :: leBytes 4 imm.toNat
  | movImm64 r imm =>
    rex true false r.extended :: UInt8.ofNat (0xb8 + r.field) :: leBytes 8 imm.toNat
  | call r => rexB r ++ [0xff, modRM 2 r.field]
  | jmp r => rexB r ++ [0xff, modRM 4 r.field]
  | ret => [0xc3]

/-! ## Decoding

Bytes that are none of these instructions are not decoded. -/

/-- The instructions that have a ModRM byte, of which only the forms with registers are taken. -/
def decodeModRM (w r b : Bool) (opcode modrm : UInt8) (rest : List UInt8) : Option (Instr × ℕ) :=
  let reg := modrm.toNat / 8 % 8
  let rm := Reg.ofField b modrm.toNat
  if modrm.toNat / 64 ≠ 3 then none
  else if opcode = 0x89 ∧ w then some (mov rm (.ofField r reg), 2)
  else if opcode = 0x83 ∧ w then
    match rest with
    | [] => none
    | imm :: _ =>
      if reg = 0 then some (addImm rm (BitVec.ofNat 8 imm.toNat), 3)
      else if reg = 5 then some (subImm rm (BitVec.ofNat 8 imm.toNat), 3)
      else none
  else if opcode = 0xff then
    if reg = 2 then some (call rm, 2)
    else if reg = 4 then some (jmp rm, 2)
    else none
  else none

/-- The instruction after a REX byte with the given bits, and its length. -/
def decodeOpcode (w r b : Bool) : List UInt8 → Option (Instr × ℕ)
  | [] => none
  | opcode :: rest =>
    if opcode = 0xc3 then some (ret, 1)
    else if opcode.toNat / 8 = 0x50 / 8 then some (push (.ofField b opcode.toNat), 1)
    else if opcode.toNat / 8 = 0xb8 / 8 then
      if w then
        if 8 ≤ rest.length then
          some (movImm64 (.ofField b opcode.toNat) (BitVec.ofNat 64 (leValue (rest.take 8))), 9)
        else none
      else if 4 ≤ rest.length then
        some (movImm32 (.ofField b opcode.toNat) (BitVec.ofNat 32 (leValue (rest.take 4))), 5)
      else none
    else
      match rest with
      | [] => none
      | modrm :: rest => decodeModRM w r b opcode modrm rest

/-- The first instruction of a list of bytes, and its length. -/
def decode : List UInt8 → Option (Instr × ℕ)
  | [] => none
  | first :: rest =>
    if first.toNat / 16 = 4 then
      let bits := first.toNat
      (decodeOpcode (bits.testBit 3) (bits.testBit 2) (bits.testBit 0) rest).map fun i ↦
        (i.1, i.2 + 1)
    else decodeOpcode false false false (first :: rest)

/-- **Assembling and decoding.** What follows an instruction does not change how it is decoded. -/
theorem decode_encode (i : Instr) (rest : List UInt8) :
    decode (encode i ++ rest) = some (i, (encode i).length) := by
  cases i with
  | addImm r imm | subImm r imm =>
    have himm : BitVec.ofNat 8 (UInt8.ofNat imm.toNat).toNat = imm := by
      rw [UInt8.toNat_ofNat', Nat.mod_eq_of_lt imm.isLt, BitVec.ofNat_toNat, BitVec.setWidth_eq]
    conv_rhs => rw [← himm]
    cases r <;> rfl
  | push r => cases r <;> rfl
  | mov dst src => cases dst <;> cases src <;> rfl
  | movImm32 r imm =>
    have himm : BitVec.ofNat 32 (leValue (leBytes 4 imm.toNat)) = imm := by
      rw [leValue_leBytes (by omega), BitVec.ofNat_toNat, BitVec.setWidth_eq]
    conv_rhs => rw [← himm]
    cases r <;> rfl
  | movImm64 r imm =>
    have himm : BitVec.ofNat 64 (leValue (leBytes 8 imm.toNat)) = imm := by
      rw [leValue_leBytes (by omega), BitVec.ofNat_toNat, BitVec.setWidth_eq]
    conv_rhs => rw [← himm]
    cases r <;> rfl
  | call r => cases r <;> rfl
  | jmp r => cases r <;> rfl
  | ret => rfl

/-- No instruction is longer than what the processor fetches. -/
theorem length_encode_le (i : Instr) : (encode i).length ≤ 15 := by
  cases i with
  | addImm r _ | subImm r _ | movImm64 r _ => exact Nat.le_of_ble_eq_true rfl
  | mov => exact Nat.le_of_ble_eq_true rfl
  | push r | movImm32 r _ | call r | jmp r => cases r <;> exact Nat.le_of_ble_eq_true rfl
  | ret => exact Nat.le_of_ble_eq_true rfl

end Instr

open Instr

/-! ## Execution

The instruction pointer has been moved past the instruction when it is executed. -/

structure State where
  regs : Reg → BitVec 64
  rip : BitVec 64
  mem : ByteMemory

namespace State

variable (s : State)

def set (r : Reg) (v : BitVec 64) : State := { s with regs := Function.update s.regs r v }

def pushWord (v : BitVec 64) : State :=
  { s with
    regs := Function.update s.regs .rsp (s.regs .rsp - 8#64)
    mem := s.mem.writeWord (s.regs .rsp - 8#64) v }

/-- What an instruction does; the instruction pointer stands behind it already. -/
def exec : Instr → State
  | .addImm r imm => s.set r (s.regs r + imm.signExtend 64)
  | .subImm r imm => s.set r (s.regs r - imm.signExtend 64)
  | .push r => s.pushWord (s.regs r)
  | .mov dst src => s.set dst (s.regs src)
  | .movImm32 r imm => s.set r (imm.setWidth 64)
  | .movImm64 r imm => s.set r imm
  | .call r => { s.pushWord s.rip with rip := s.regs r }
  | .jmp r => { s with rip := s.regs r }
  | .ret => { s.set .rsp (s.regs .rsp + 8#64) with rip := s.mem.word (s.regs .rsp) }

/-- An instruction of `n` bytes is executed. -/
def next (i : Instr) (n : ℕ) : State := { s with rip := s.rip + BitVec.ofNat 64 n }.exec i

def step : Option State := (decode (s.mem.read s.rip 15)).map fun i ↦ s.next i.1 i.2

end State

/-- The instructions that the next one follows. -/
def Instr.Straight : Instr → Prop
  | .call _ | .jmp _ | .ret => False
  | _ => True

/-- A stack has room for what an instruction pushes. -/
def Instr.Fits (S : StackRegion) (s : State) : Instr → Prop
  | .push _ | .call _ => 8 ≤ S.height (s.regs .rsp) ∧ S.height (s.regs .rsp) ≤ S.size
  | _ => True

theorem step_eq {s : State} {i : Instr} (h : s.mem.read s.rip (encode i).length = encode i) :
    s.step = some (s.next i (encode i).length) := by
  obtain ⟨k, hk⟩ := Nat.exists_eq_add_of_le (length_encode_le i)
  rw [State.step, hk, ByteMemory.read_add, h, decode_encode, Option.map_some]

def x86 : Processor State Instr where
  pc := State.rip
  mem := State.mem
  encode := encode
  next i s := s.next i (encode i).length
  step := State.step
  step_eq _ _ := step_eq

variable {S : StackRegion} {s : State}

theorem outside_next {i : Instr} {n : ℕ} (h : i.Fits S s) :
    S.outside (s.next i n).mem = S.outside s.mem := by
  have hpush : ∀ v, 8 ≤ S.height (s.regs .rsp) → S.height (s.regs .rsp) ≤ S.size →
      S.outside (s.mem.writeWord (s.regs .rsp - 8#64) v) = S.outside s.mem := fun v hroom hsize ↦ by
    refine StackRegion.outside_write ?_
    rw [length_leBytes, StackRegion.height_sub hroom]
    exact (Nat.sub_add_cancel hroom).trans_le hsize
  cases i with
  | push r => exact hpush _ h.1 h.2
  | call r => exact hpush _ h.1 h.2
  | _ => rfl

theorem keeps_of_fits {i : Instr} (hstraight : i.Straight) (hfits : i.Fits S s) :
    x86.Keeps S i s := by
  refine ⟨?_, outside_next hfits⟩
  cases i with
  | call | jmp | ret => exact hstraight.elim
  | _ => rfl

/-! ## Calls

The first six arguments are in registers, the others on the stack above the return address. -/

def argumentReg : ℕ → Reg
  | 0 => .rdi
  | 1 => .rsi
  | 2 => .rdx
  | 3 => .rcx
  | 4 => .r8
  | _ => .r9

/-- An argument of the procedure that has just been entered: above the return address are those that
do not fit into registers. -/
def State.argument (s : State) (i : ℕ) : BitVec 64 :=
  if i < 6 then s.regs (argumentReg i)
  else s.mem.word (s.regs .rsp + BitVec.ofNat 64 (8 * (i - 5)))

/-- The registers that a procedure leaves as they were. -/
def Reg.CalleeSaved : Reg → Prop
  | .rbx | .rbp | .r12 | .r13 | .r14 | .r15 => True
  | _ => False

structure Entered (S : StackRegion) (s : State) (entry : BitVec 64) (args : List (BitVec 64))
    (room : ℕ) : Prop where
  rip_eq : s.rip = entry
  aligned : (s.regs .rsp).toNat % 16 = 8
  room_le : room ≤ S.height (s.regs .rsp)
  inside : S.height (s.regs .rsp) + 8 + 8 * (args.length - 6) ≤ S.size
  argument_eq : ∀ i (h : i < args.length), s.argument i = args[i]

/-- A procedure with `arity` arguments that was entered in `s` has returned. -/
structure Left (S : StackRegion) (arity : ℕ) (s s' : State) (r : BitVec 64) : Prop where
  rip_eq : s'.rip = s.mem.word (s.regs .rsp)
  rsp_eq : s'.regs .rsp = s.regs .rsp + 8#64
  saved : ∀ reg : Reg, reg.CalleeSaved → s'.regs reg = s.regs reg
  result : s'.regs .rax = r
  /-- The stack of the caller is kept, from behind the arguments on. -/
  kept : ∀ x, S.height (s.regs .rsp) + 8 + 8 * (arity - 6) ≤ S.height x → S.height x < S.size →
    s'.mem x = s.mem x

/-- The System V calling convention, on a stack. -/
def sysV (S : StackRegion) : Convention State (BitVec 64) (BitVec 64 → Option UInt8) :=
  x86.calls S (Entered S) (Left S)

end X86

end Foundation
