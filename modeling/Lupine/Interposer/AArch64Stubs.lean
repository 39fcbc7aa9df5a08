import Lupine.Foundation.AArch64
import Mathlib.Tactic.IntervalCases

/-!
# Stubs on AArch64

On AArch64 all eight arguments of the handler are in registers. The stubs have no frame: they move
the arguments up by two registers, from the last to the first, put the constants in front and branch
to the handler, which returns to the caller of the stub.

## From words to behaviour

The stubs are written as instruction words. Each stub is shown to be the encoding of a list of
instructions, and the instructions are run in a block, which gives the state at the branch. Only
there do the arguments matter: they stand where the handler looks for them.
-/

open Foundation Foundation.AArch64

namespace Lupine

namespace AArch64Stubs

/-! ## Constants

A register is set by a `movz` and three `movk`, each for a half word of the constant. -/

/-- `lupine_a64_emit_mov_imm64`. -/
def a64EmitMovImm64 (reg : Reg) (value : BitVec 64) : List (BitVec 32) := [
  -- movz Xd, #imm16
  0xd2800000#32 ||| ((value &&& 0xffff#64).setWidth 32 <<< 5) ||| reg.setWidth 32,
  -- movk Xd, #imm16, lsl #16
  0xf2a00000#32 ||| (((value >>> 16) &&& 0xffff#64).setWidth 32 <<< 5) ||| reg.setWidth 32,
  -- movk Xd, #imm16, lsl #32
  0xf2c00000#32 ||| (((value >>> 32) &&& 0xffff#64).setWidth 32 <<< 5) ||| reg.setWidth 32,
  -- movk Xd, #imm16, lsl #48
  0xf2e00000#32 ||| (((value >>> 48) &&& 0xffff#64).setWidth 32 <<< 5) ||| reg.setWidth 32]

def movImm64 (rd : Reg) (value : BitVec 64) : List Instr :=
  [.movzX 0 (value.setWidth 16) rd, .movkX 1 ((value >>> 16).setWidth 16) rd,
    .movkX 2 ((value >>> 32).setWidth 16) rd, .movkX 3 ((value >>> 48).setWidth 16) rd]

theorem or_fields {base : ℕ} (hbase : base < 0x800) {x : BitVec 32} {imm : BitVec 16}
    (hx : x.toNat = imm.toNat) (rd : Reg) :
    BitVec.ofNat 32 (base * 0x200000) ||| x <<< 5 ||| rd.setWidth 32 =
      BitVec.ofNat 32 ((base * 0x10000 + imm.toNat) * 32 + rd.toNat) := by
  have hrd := rd.isLt
  have himm := imm.isLt
  have hhigh : base * 0x200000 ||| imm.toNat * 32 = (base * 0x10000 + imm.toNat) * 32 := by
    have hor := Nat.shiftLeft_add_eq_or_of_lt (b := imm.toNat * 32) (i := 21) (by omega) base
    rw [Nat.shiftLeft_eq] at hor
    exact hor.symm.trans (by omega)
  have hlow := Nat.shiftLeft_add_eq_or_of_lt (i := 5) hrd (base * 0x10000 + imm.toNat)
  rw [Nat.shiftLeft_eq] at hlow
  have hshift : (x <<< 5).toNat = imm.toNat * 32 := by
    rw [BitVec.toNat_shiftLeft, Nat.shiftLeft_eq, hx]
    omega
  have hreg : (rd.setWidth 32).toNat = rd.toNat := by
    rw [BitVec.toNat_setWidth]
    omega
  refine BitVec.eq_of_toNat_eq ?_
  rw [BitVec.toNat_or, BitVec.toNat_or, hshift, hreg, BitVec.toNat_ofNat, BitVec.toNat_ofNat,
    Nat.mod_eq_of_lt (by omega), Nat.mod_eq_of_lt (by omega), hhigh, hlow]

theorem toNat_and_ffff (value : BitVec 64) :
    ((value &&& 0xffff#64).setWidth 32).toNat = (value.setWidth 16).toNat := by
  have hand : (value &&& 0xffff#64).toNat = value.toNat % 0x10000 :=
    Nat.and_two_pow_sub_one_eq_mod _ 16
  rw [BitVec.toNat_setWidth, BitVec.toNat_setWidth, hand]
  omega

theorem a64EmitMovImm64_eq (reg : Reg) (value : BitVec 64) :
    a64EmitMovImm64 reg value = (movImm64 reg value).map Instr.encode := by
  have hword : ∀ base, base < 0x800 → ∀ v : BitVec 64,
      BitVec.ofNat 32 (base * 0x200000) ||| (v &&& 0xffff#64).setWidth 32 <<< 5 |||
        reg.setWidth 32 =
      BitVec.ofNat 32 ((base * 0x10000 + (v.setWidth 16).toNat) * 32 + reg.toNat) :=
    fun base hbase v ↦ or_fields hbase (toNat_and_ffff v) reg
  refine congrArg₂ _ (hword 0x694 (by decide) value) ?_
  refine congrArg₂ _ (hword 0x795 (by decide) (value >>> 16)) ?_
  refine congrArg₂ _ (hword 0x796 (by decide) (value >>> 32)) ?_
  exact congrArg₂ _ (hword 0x797 (by decide) (value >>> 48)) rfl

theorem flatMap_wordBytes (is : List Instr) :
    (is.map Instr.encode).flatMap wordBytes = aarch64.assemble is :=
  List.flatMap_map ..

theorem insert_halves (value : BitVec 64) :
    State.insert (State.insert (State.insert (State.insert 0#64 0 (value.setWidth 16)) 1
      ((value >>> 16).setWidth 16)) 2 ((value >>> 32).setWidth 16)) 3
      ((value >>> 48).setWidth 16) = value := by
  ext i hi
  simp only [State.insert, BitVec.getElem_or, BitVec.getElem_and, BitVec.getElem_not,
    BitVec.getElem_shiftLeft, BitVec.getElem_setWidth, BitVec.getLsbD_setWidth,
    BitVec.getLsbD_ushiftRight]
  interval_cases i <;> simp

variable {S : StackRegion} {s : State}

/-- A register that has just been set is set again, by half of it. -/
theorem next_movkX {rd : Reg} (hrd : rd ≠ 31) (v pc : BitVec 64) (hw : BitVec 2) (imm : BitVec 16) :
    State.next { s.set rd v with pc := pc } (.movkX hw imm rd) =
      { s.set rd (State.insert v hw.toNat imm) with pc := pc + 4#64 } := by
  have hreg : State.reg { s.set rd v with pc := pc + 4#64 } rd = v :=
    (if_neg hrd).trans (Function.update_self ..)
  rw [State.next, State.exec, hreg]
  simp only [State.set, Function.update_idem]

theorem block_movImm64 {rd : Reg} (hrd : rd ≠ 31) (value : BitVec 64) :
    aarch64.block (movImm64 rd value) s = { s.set rd value with pc := s.pc + 16#64 } := by
  have hfirst : s.next (.movzX 0 (value.setWidth 16) rd) =
      { s.set rd (State.insert 0#64 0 (value.setWidth 16)) with pc := s.pc + 4#64 } := rfl
  calc aarch64.block (movImm64 rd value) s
      = (((s.next (.movzX 0 (value.setWidth 16) rd)).next
          (.movkX 1 ((value >>> 16).setWidth 16) rd)).next
          (.movkX 2 ((value >>> 32).setWidth 16) rd)).next
          (.movkX 3 ((value >>> 48).setWidth 16) rd) := rfl
    _ = { s.set rd (State.insert (State.insert (State.insert (State.insert 0#64 0
          (value.setWidth 16)) 1 ((value >>> 16).setWidth 16)) 2 ((value >>> 32).setWidth 16)) 3
          ((value >>> 48).setWidth 16)) with pc := s.pc + 4#64 + 4#64 + 4#64 + 4#64 } := by
        rw [hfirst, next_movkX hrd, next_movkX hrd, next_movkX hrd]
        rfl
    _ = _ := by
        rw [insert_halves]
        simp only [BitVec.add_assoc, BitVec.reduceAdd]

/-! ## Private export tables

The moves go from the last argument to the first, so none is overwritten before it is moved. Moving
is taking the disjunction with the zero register. -/

/-- `lupine_make_private_export_stub` on AArch64. -/
def privateExportStub (slot : BitVec 32) (tableName handler : BitVec 64) : List UInt8 :=
  let words : List (BitVec 32) := [
    0xaa0503e7#32, -- mov x7, x5
    0xaa0403e6#32, -- mov x6, x4
    0xaa0303e5#32, -- mov x5, x3
    0xaa0203e4#32, -- mov x4, x2
    0xaa0103e3#32, -- mov x3, x1
    0xaa0003e2#32, -- mov x2, x0
    -- movz w0, #imm16
    0x52800000#32 ||| ((slot &&& 0xffff#32) <<< 5) ||| 0#32,
    -- movk w0, #imm16, lsl #16
    0x72a00000#32 ||| (((slot >>> 16) &&& 0xffff#32) <<< 5) ||| 0#32]
  let branch : List (BitVec 32) := [0xd61f0200#32] -- br x16
  (words ++ a64EmitMovImm64 1 tableName ++ a64EmitMovImm64 16 handler ++ branch).flatMap wordBytes

/-- The arguments are moved up, from the last to the first, and the slot is put in front. -/
def shiftUp (slot : BitVec 32) : List Instr :=
  [.orr 31 5 7, .orr 31 4 6, .orr 31 3 5, .orr 31 2 4, .orr 31 1 3, .orr 31 0 2,
    .movzW 0 (slot.setWidth 16) 0, .movkW 1 ((slot >>> 16).setWidth 16) 0]

def beforeBranch (slot : BitVec 32) (tableName handler : BitVec 64) : List Instr :=
  shiftUp slot ++ movImm64 1 tableName ++ movImm64 16 handler

theorem privateExportStub_eq (slot : BitVec 32) (tableName handler : BitVec 64) :
    privateExportStub slot tableName handler =
      aarch64.assemble (beforeBranch slot tableName handler) ++ aarch64.encode (.br 16) := by
  have hand : ∀ v : BitVec 32, (v &&& 0xffff#32).toNat = (v.setWidth 16).toNat := fun v ↦ by
    have hmod : (v &&& 0xffff#32).toNat = v.toNat % 0x10000 := Nat.and_two_pow_sub_one_eq_mod _ 16
    rw [BitVec.toNat_setWidth, hmod]
  have hlow : 0x52800000#32 ||| ((slot &&& 0xffff#32) <<< 5) ||| 0#32 =
      Instr.encode (.movzW 0 (slot.setWidth 16) 0) :=
    or_fields (by decide : 0x294 < 0x800) (hand slot) 0
  have hhigh : 0x72a00000#32 ||| (((slot >>> 16) &&& 0xffff#32) <<< 5) ||| 0#32 =
      Instr.encode (.movkW 1 ((slot >>> 16).setWidth 16) 0) :=
    or_fields (by decide : 0x395 < 0x800) (hand (slot >>> 16)) 0
  have hshift : [0xaa0503e7#32, 0xaa0403e6#32, 0xaa0303e5#32, 0xaa0203e4#32, 0xaa0103e3#32,
      0xaa0003e2#32, Instr.encode (.movzW 0 (slot.setWidth 16) 0),
      Instr.encode (.movkW 1 ((slot >>> 16).setWidth 16) 0)] =
      (shiftUp slot).map Instr.encode := rfl
  rw [privateExportStub, a64EmitMovImm64_eq, a64EmitMovImm64_eq, hlow, hhigh, hshift,
    ← List.map_append, ← List.map_append, List.flatMap_append, flatMap_wordBytes]
  rfl

theorem insert_slot (slot : BitVec 32) :
    State.insert (((State.insert 0#32 0 (slot.setWidth 16)).setWidth 64).setWidth 32) 1
      ((slot >>> 16).setWidth 16) = slot := by
  ext i hi
  simp only [State.insert, BitVec.getElem_or, BitVec.getElem_and, BitVec.getElem_not,
    BitVec.getElem_shiftLeft, BitVec.getElem_setWidth, BitVec.getLsbD_setWidth,
    BitVec.getLsbD_ushiftRight]
  interval_cases i <;> simp

theorem next_mov (rm rd : Reg) (s : State) :
    s.next (.orr 31 rm rd) = { s.set rd (s.reg rm) with pc := s.pc + 4#64 } := by
  have hzero : 0#64 ||| s.reg rm = s.reg rm := BitVec.zero_or
  show ({ s.set rd (0#64 ||| s.reg rm) with pc := s.pc + 4#64 } : State) = _
  rw [hzero]

theorem regs_shiftUp (slot : BitVec 32) (r : Reg) :
    (aarch64.block (shiftUp slot) s).regs r =
      if r = 0 then slot.setWidth 64 else if 2 ≤ r ∧ r ≤ 7 then s.regs (r - 2) else s.regs r := by
  have hblock : aarch64.block (shiftUp slot) s =
      ((((((((s.next (.orr 31 5 7)).next (.orr 31 4 6)).next (.orr 31 3 5)).next
        (.orr 31 2 4)).next (.orr 31 1 3)).next (.orr 31 0 2)).next
        (.movzW 0 (slot.setWidth 16) 0)).next (.movkW 1 ((slot >>> 16).setWidth 16) 0)) := rfl
  simp only [next_mov] at hblock
  rw [hblock]
  have hslot := insert_slot slot
  obtain ⟨n, hn, rfl⟩ : ∃ n, n < 32 ∧ BitVec.ofNat 5 n = r :=
    ⟨r.toNat, r.isLt, by rw [BitVec.ofNat_toNat, BitVec.setWidth_eq]⟩
  interval_cases n
  · exact congrArg (BitVec.setWidth 64) hslot
  all_goals rfl

def called (slot : BitVec 32) (tableName handler : BitVec 64) (s : State) : State :=
  (aarch64.block (beforeBranch slot tableName handler) s).next (.br 16)

theorem block_beforeBranch (slot : BitVec 32) (tableName handler : BitVec 64) :
    aarch64.block (beforeBranch slot tableName handler) s =
      { ((aarch64.block (shiftUp slot) s).set 1 tableName).set 16 handler with
        pc := s.pc + 64#64 } := by
  rw [beforeBranch, Processor.block_append, Processor.block_append, block_movImm64 (by decide),
    block_movImm64 (by decide)]
  have hpc : (aarch64.block (shiftUp slot) s).pc = s.pc + 4#64 + 4#64 + 4#64 + 4#64 + 4#64 + 4#64 +
    4#64 + 4#64 := rfl
  simp only [State.set, hpc, BitVec.add_assoc, BitVec.reduceAdd]

theorem regs_called (slot : BitVec 32) (tableName handler : BitVec 64) (r : Reg) :
    (called slot tableName handler s).regs r =
      if r = 16 then handler else if r = 1 then tableName
      else if r = 0 then slot.setWidth 64 else if 2 ≤ r ∧ r ≤ 7 then s.regs (r - 2)
      else s.regs r := by
  rw [called, block_beforeBranch]
  show (Function.update (Function.update (aarch64.block (shiftUp slot) s).regs 1 tableName) 16
    handler : Reg → BitVec 64) r = _
  rw [Function.update_apply, Function.update_apply, regs_shiftUp]

theorem called_rest (slot : BitVec 32) (tableName handler : BitVec 64) :
    (called slot tableName handler s).pc = handler ∧
      (called slot tableName handler s).sp = s.sp ∧
      (called slot tableName handler s).mem = s.mem := by
  rw [called, block_beforeBranch]
  refine ⟨?_, rfl, rfl⟩
  exact Function.update_self (β := fun _ : Reg ↦ BitVec 64) 16 handler
    ((aarch64.block (shiftUp slot) s).set 1 tableName).regs

theorem straight_beforeBranch {slot : BitVec 32} {tableName handler : BitVec 64} :
    ∀ i ∈ beforeBranch slot tableName handler, i.Straight := by
  simp [beforeBranch, shiftUp, movImm64, Instr.Straight]

/-- The arguments stand where the handler looks for them, behind the slot and the table's name. -/
theorem argument_called {slot : BitVec 32} {tableName handler : BitVec 64}
    {args : List (BitVec 64)} (hargs : args.length = 6)
    (h : ∀ i (hi : i < args.length), s.regs (BitVec.ofNat 5 i) = args[i]) (i : ℕ)
    (hi : i < (slot.setWidth 64 :: tableName :: args).length) :
    (called slot tableName handler s).regs (BitVec.ofNat 5 i) =
      (slot.setWidth 64 :: tableName :: args)[i] := by
  rw [regs_called]
  match i with
  | 0 | 1 => rfl
  | i + 2 =>
    have hi' : i < args.length := by simpa using hi
    rw [List.getElem_cons_succ, List.getElem_cons_succ, ← h i hi']
    rw [hargs] at hi'
    interval_cases i <;> rfl

theorem thunks_privateExportStub {Inv : (BitVec 64 → Option UInt8) → Prop}
    {code tableName handler : BitVec 64} {slot : BitVec 32}
    (hcode : ∀ w, Inv w → Holds w code (privateExportStub slot tableName handler)) (room : ℕ) :
    (aapcs64 S).Thunks Inv code handler 6 8 room room
      fun args ↦ slot.setWidth 64 :: tableName :: args := by
  intro s args hargs hentered hinv
  obtain ⟨hpc, hsp, hmem⟩ := called_rest (s := s) slot tableName handler
  have hloaded := hcode _ hinv
  rw [privateExportStub_eq, ← hentered.pc_eq] at hloaded
  obtain ⟨hbefore, hbranch⟩ := holds_append.mp hloaded
  obtain ⟨hgo, hout, hend⟩ := Processor.reaches_block hbefore
    (Processor.keepsAll_of_forall fun i hi _ ↦ keeps_of_straight (straight_beforeBranch i hi))
  have hstep : Reaches aarch64.step _ (called slot tableName handler s) :=
    Processor.reaches_next (by rw [hout, hend]; exact hbranch)
  refine ⟨called slot tableName handler s, hgo.trans hstep, ?_, congrArg S.outside hmem, ?_⟩
  · refine ⟨hpc, hsp ▸ hentered.aligned, hsp ▸ hentered.room_le, hsp ▸ hentered.inside, ?_, ?_⟩
    · rw [List.length_cons, List.length_cons, hargs]
    · exact argument_called hargs hentered.argument_eq
  · intro s₂ r hleft _
    refine ⟨s₂, .refl s₂, ⟨?_, hleft.sp_eq.trans hsp, fun reg hlow hhigh ↦ ?_, hleft.result, ?_⟩,
      rfl⟩
    · rw [hleft.pc_eq, regs_called]
      rfl
    · rw [hleft.saved reg hlow hhigh, regs_called, if_neg (by bv_omega), if_neg (by bv_omega),
        if_neg (by bv_omega), if_neg (by bv_omega)]
    · rw [← hsp, ← hmem]
      exact hleft.kept

/-- **The stub on AArch64.** It is the handler with two arguments given, and needs no stack. -/
theorem aapcs64_privateExportStub {Inv : (BitVec 64 → Option UInt8) → Prop}
    {code tableName handler : BitVec 64} {slot : BitVec 32} {room : ℕ}
    {F : List (BitVec 64) → (BitVec 64 → Option UInt8) → (BitVec 64 → Option UInt8) → BitVec 64 →
      Prop}
    (hcode : ∀ w, Inv w → Holds w code (privateExportStub slot tableName handler))
    (hhandler : (aapcs64 S).Implements Inv handler 8 room F) :
    (aapcs64 S).Implements Inv code 6 room fun args ↦ F (slot.setWidth 64 :: tableName :: args) :=
  hhandler.thunk (fun args hargs ↦ by rw [List.length_cons, List.length_cons, hargs])
    (thunks_privateExportStub hcode room)

/-- `mov x0, x1; ret`. -/
def secondArgument : List UInt8 :=
  aarch64.assemble [.orr 31 1 0] ++ aarch64.encode (.ret 30)

theorem secondArgument_implements {Inv : (BitVec 64 → Option UInt8) → Prop} {handler : BitVec 64}
    (hcode : ∀ w, Inv w → Holds w handler secondArgument) :
    (aapcs64 S).Implements Inv handler 8 0 fun args w w' r ↦ w' = w ∧ args[1]? = some r := by
  intro s args hargs hentered hinv
  have hloaded := hcode _ hinv
  rw [secondArgument, ← hentered.pc_eq] at hloaded
  obtain ⟨hmove, hret⟩ := holds_append.mp hloaded
  obtain ⟨hgo, hout, hend⟩ := Processor.reaches_block hmove ⟨keeps_of_straight ⟨⟩, ⟨⟩⟩
  let s' := (aarch64.block [.orr 31 1 0] s).next (.ret 30)
  have hstep : Reaches aarch64.step _ s' := Processor.reaches_next (by rw [hout, hend]; exact hret)
  have hblock : aarch64.block [.orr 31 1 0] s = { s.set 0 (s.reg 1) with pc := s.pc + 4#64 } :=
    next_mov 1 0 s
  have hs' : s' = { s.set 0 (s.regs 1) with pc := s.regs 30 } := by
    show State.next _ _ = _
    rw [hblock]
    rfl
  rw [hs'] at hstep
  refine ⟨_, s.regs 1, hgo.trans hstep, ⟨rfl, rfl, fun reg hlow hhigh ↦ ?_, rfl, fun _ _ _ ↦ rfl⟩,
    ⟨rfl, ?_⟩, hinv⟩
  · show Function.update s.regs 0 _ reg = s.regs reg
    rw [Function.update_of_ne (by bv_omega)]
  · have hsecond := hentered.argument_eq 1 (by omega)
    rw [List.getElem?_eq_getElem (by omega), ← hsecond]
    rfl

/-- The stub of slot 3, whose handler returns the table's name. -/
theorem aapcs64_privateExportStub_name :
    (aapcs64 ⟨65536, 4096, by decide⟩).Implements (fun w ↦ Holds w 4096 secondArgument ∧
      Holds w 8192 (privateExportStub 3 12288 4096)) 8192 6 0 fun _ w w' r ↦
        w' = w ∧ some 12288 = some r :=
  aapcs64_privateExportStub (fun _ h ↦ h.2) (secondArgument_implements fun _ h ↦ h.1)

/-! ## Missing symbols

This stub has one constant and no arguments to move. -/

/-- `lupine_make_missing_stub` on AArch64. -/
def missingStub (symbol handler : BitVec 64) : List UInt8 :=
  let branch : List (BitVec 32) := [0xd61f0200#32] -- br x16
  (a64EmitMovImm64 0 symbol ++ a64EmitMovImm64 16 handler ++ branch).flatMap wordBytes

def beforeMissing (symbol handler : BitVec 64) : List Instr :=
  movImm64 0 symbol ++ movImm64 16 handler

theorem missingStub_eq (symbol handler : BitVec 64) :
    missingStub symbol handler =
      aarch64.assemble (beforeMissing symbol handler) ++ aarch64.encode (.br 16) := by
  rw [missingStub, a64EmitMovImm64_eq, a64EmitMovImm64_eq, ← List.map_append, List.flatMap_append,
    flatMap_wordBytes]
  rfl

theorem block_beforeMissing (symbol handler : BitVec 64) :
    aarch64.block (beforeMissing symbol handler) s =
      { (s.set 0 symbol).set 16 handler with pc := s.pc + 32#64 } := by
  rw [beforeMissing, Processor.block_append, block_movImm64 (by decide), block_movImm64 (by decide)]
  simp only [State.set, BitVec.add_assoc, BitVec.reduceAdd]

theorem straight_beforeMissing {symbol handler : BitVec 64} :
    ∀ i ∈ beforeMissing symbol handler, i.Straight := by
  simp [beforeMissing, movImm64, Instr.Straight]

theorem thunks_missingStub {Inv : (BitVec 64 → Option UInt8) → Prop}
    {code symbol handler : BitVec 64}
    (hcode : ∀ w, Inv w → Holds w code (missingStub symbol handler)) (arity room : ℕ) :
    (aapcs64 S).Thunks Inv code handler arity 1 room room fun _ ↦ [symbol] := by
  intro s args hargs hentered hinv
  let s₁ := (aarch64.block (beforeMissing symbol handler) s).next (.br 16)
  have hs₁ : s₁ = { (s.set 0 symbol).set 16 handler with pc := handler } := by
    have hpc : State.reg { (s.set 0 symbol).set 16 handler with pc := s.pc + 32#64 + 4#64 } 16 =
        handler :=
      Function.update_self (β := fun _ : Reg ↦ BitVec 64) 16 handler (s.set 0 symbol).regs
    show State.next _ _ = _
    rw [block_beforeMissing, State.next, State.exec, hpc]
  have hloaded := hcode _ hinv
  rw [missingStub_eq, ← hentered.pc_eq] at hloaded
  obtain ⟨hbefore, hbranch⟩ := holds_append.mp hloaded
  obtain ⟨hgo, hout, hend⟩ := Processor.reaches_block hbefore
    (Processor.keepsAll_of_forall fun i hi _ ↦ keeps_of_straight (straight_beforeMissing i hi))
  have hstep : Reaches aarch64.step _ s₁ :=
    Processor.reaches_next (by rw [hout, hend]; exact hbranch)
  rw [hs₁] at hstep
  refine ⟨_, hgo.trans hstep, ⟨rfl, hentered.aligned, hentered.room_le, hentered.inside,
    Nat.le_of_ble_eq_true rfl, fun i hi ↦ ?_⟩, rfl, ?_⟩
  · obtain rfl : i = 0 := by simpa using hi
    rfl
  · intro s₂ r hleft _
    refine ⟨s₂, .refl s₂, ⟨hleft.pc_eq, hleft.sp_eq, fun reg hlow hhigh ↦ ?_, hleft.result,
      hleft.kept⟩, rfl⟩
    rw [hleft.saved reg hlow hhigh]
    show Function.update (Function.update s.regs 0 symbol) 16 handler reg = s.regs reg
    rw [Function.update_of_ne (by bv_omega), Function.update_of_ne (by bv_omega)]

end AArch64Stubs

end Lupine
