import Lupine.Foundation.X86
import Mathlib.Tactic.IntervalCases

/-!
# Stubs on x86-64

The client hands out function pointers that CUDA's runtime library calls like those of the driver.
Each points to a stub that is assembled when it is asked for: the stub of a private export table
puts its slot and the table's name in front of the arguments and calls a handler, and the stub of a
missing symbol jumps to its handler with the symbol alone. On x86-64 the last two of the handler's
eight arguments are on the stack, so that the first kind of stub has a frame and comes back to take
it down.

## From bytes to behaviour

Each stub is shown to be the encoding of a list of instructions. The first kind is run up to the
call and from the return on; in between the handler does what the calling convention allows. The
stack below the stub's own frame is the handler's, and what lies above is kept by both.
-/

open Foundation Foundation.X86

namespace Lupine

namespace X86Stubs

/-! ## Private export tables

The last two arguments of the handler lie above the return address, behind what the stub has pushed.
The registers that the convention wants kept are not touched by the stub itself. -/

/-- `lupine_make_private_export_stub` on x86-64. -/
def privateExportStub (slot : BitVec 32) (tableName handler : BitVec 64) : List UInt8 :=
  let prologue : List UInt8 := [
    0x48, 0x83, 0xec, 0x08, -- sub rsp, 8
    0x41, 0x51,             -- push r9
    0x41, 0x50,             -- push r8
    0x49, 0x89, 0xc9,       -- mov r9, rcx
    0x49, 0x89, 0xd0,       -- mov r8, rdx
    0x48, 0x89, 0xf1,       -- mov rcx, rsi
    0x48, 0x89, 0xfa,       -- mov rdx, rdi
    0xbf]                   -- mov edi, imm32
  let epilogue : List UInt8 := [
    0xff, 0xd0,             -- call rax
    0x48, 0x83, 0xc4, 0x18, -- add rsp, 24
    0xc3]                   -- ret
  prologue ++ leBytes 4 slot.toNat ++ [0x48, 0xbe] ++ leBytes 8 tableName.toNat ++ [0x48, 0xb8] ++
    leBytes 8 handler.toNat ++ epilogue

/-- What the stub does before it calls the handler. -/
def beforeCall (slot : BitVec 32) (tableName handler : BitVec 64) : List Instr :=
  [.subImm .rsp 8, .push .r9, .push .r8, .mov .r9 .rcx, .mov .r8 .rdx, .mov .rcx .rsi,
    .mov .rdx .rdi, .movImm32 .rdi slot, .movImm64 .rsi tableName, .movImm64 .rax handler]

def afterCall : List Instr := [.addImm .rsp 24]

theorem privateExportStub_eq (slot : BitVec 32) (tableName handler : BitVec 64) :
    privateExportStub slot tableName handler =
      x86.assemble (beforeCall slot tableName handler) ++ (x86.encode (.call .rax) ++
        (x86.assemble afterCall ++ x86.encode .ret)) := rfl

variable {S : StackRegion} {s : State} {slot : BitVec 32} {tableName handler : BitVec 64}

theorem keepsAll_beforeCall (hroom : 32 ≤ S.height (s.regs .rsp))
    (hsize : S.height (s.regs .rsp) ≤ S.size) :
    x86.KeepsAll S (beforeCall slot tableName handler) s := by
  have himm : (8 : BitVec 8).signExtend 64 = 8#64 := rfl
  have h₁ : S.height (s.regs .rsp - 8#64) = S.height (s.regs .rsp) - 8 :=
    StackRegion.height_sub (by omega)
  have h₂ : S.height (s.regs .rsp - 8#64 - 8#64) = S.height (s.regs .rsp) - 8 - 8 := by
    rw [StackRegion.height_sub (by omega), h₁]
  refine ⟨keeps_of_fits ⟨⟩ ⟨⟩, keeps_of_fits ⟨⟩ ?_, keeps_of_fits ⟨⟩ ?_,
    Processor.keepsAll_of_forall ?_⟩
  · show 8 ≤ S.height (s.regs .rsp - _) ∧ S.height (s.regs .rsp - _) ≤ S.size
    rw [himm, h₁]
    omega
  · show 8 ≤ S.height (s.regs .rsp - _ - 8#64) ∧ S.height (s.regs .rsp - _ - 8#64) ≤ S.size
    rw [himm, h₂]
    omega
  · simp only [List.forall_mem_cons]
    exact ⟨fun _ ↦ keeps_of_fits ⟨⟩ ⟨⟩, fun _ ↦ keeps_of_fits ⟨⟩ ⟨⟩, fun _ ↦ keeps_of_fits ⟨⟩ ⟨⟩,
      fun _ ↦ keeps_of_fits ⟨⟩ ⟨⟩, fun _ ↦ keeps_of_fits ⟨⟩ ⟨⟩, fun _ ↦ keeps_of_fits ⟨⟩ ⟨⟩,
      fun _ ↦ keeps_of_fits ⟨⟩ ⟨⟩, by simp⟩

theorem fits_call (hroom : 32 ≤ S.height (s.regs .rsp))
    (hsize : S.height (s.regs .rsp) ≤ S.size) :
    (Instr.call .rax).Fits S (x86.block (beforeCall slot tableName handler) s) := by
  have hrsp : (x86.block (beforeCall slot tableName handler) s).regs .rsp =
      s.regs .rsp - 24#64 := by
    show s.regs .rsp - 8#64 - 8#64 - 8#64 = _
    simp only [BitVec.sub_sub, BitVec.reduceAdd]
  have hheight : S.height (s.regs .rsp - 24#64) = S.height (s.regs .rsp) - 24 :=
    StackRegion.height_sub (by omega)
  rw [Instr.Fits, hrsp, hheight]
  omega

def called (slot : BitVec 32) (tableName handler : BitVec 64) (s : State) : State :=
  (x86.block (beforeCall slot tableName handler) s).next (.call .rax) 2

theorem regs_called (r : Reg) :
    (called slot tableName handler s).regs r = match r with
      | .rsp => s.regs .rsp - 32#64
      | .r9 => s.regs .rcx
      | .r8 => s.regs .rdx
      | .rcx => s.regs .rsi
      | .rdx => s.regs .rdi
      | .rdi => slot.setWidth 64
      | .rsi => tableName
      | .rax => handler
      | r => s.regs r := by
  cases r with
  | rsp =>
    show s.regs .rsp - 8#64 - 8#64 - 8#64 - 8#64 = _
    simp only [BitVec.sub_sub, BitVec.reduceAdd]
  | _ => rfl

theorem rip_called : (called slot tableName handler s).rip = handler := rfl

theorem mem_called : (called slot tableName handler s).mem =
    ((s.mem.writeWord (s.regs .rsp - 16#64) (s.regs .r9)).writeWord (s.regs .rsp - 24#64)
      (s.regs .r8)).writeWord (s.regs .rsp - 32#64) (s.rip + 47#64) := by
  calc (called slot tableName handler s).mem
      = ((s.mem.writeWord (s.regs .rsp - 8#64 - 8#64) (s.regs .r9)).writeWord
          (s.regs .rsp - 8#64 - 8#64 - 8#64) (s.regs .r8)).writeWord
          (s.regs .rsp - 8#64 - 8#64 - 8#64 - 8#64)
          (s.rip + 4#64 + 2#64 + 2#64 + 3#64 + 3#64 + 3#64 + 3#64 + 5#64 + 10#64 + 10#64 +
            2#64) := rfl
    _ = _ := by simp only [BitVec.sub_sub, BitVec.add_assoc, BitVec.reduceAdd]

theorem word_called (slot : BitVec 32) (tableName handler : BitVec 64) (s : State) :
    (called slot tableName handler s).mem.word (s.regs .rsp - 24#64) = s.regs .r8 ∧
    (called slot tableName handler s).mem.word (s.regs .rsp - 16#64) = s.regs .r9 := by
  rw [mem_called]
  constructor
  · rw [ByteMemory.word_writeWord_of_le, ByteMemory.word_writeWord_self]
    intro i hi
    bv_omega
  · rw [ByteMemory.word_writeWord_of_le, ByteMemory.word_writeWord_of_le,
      ByteMemory.word_writeWord_self]
    · intro i hi
      bv_omega
    · intro i hi
      bv_omega

/-- The arguments stand where the handler looks for them, behind the slot and the table's name. -/
theorem argument_called {args : List (BitVec 64)} (hargs : args.length = 6)
    (h : ∀ i (hi : i < args.length), s.argument i = args[i]) (i : ℕ)
    (hi : i < (slot.setWidth 64 :: tableName :: args).length) :
    (called slot tableName handler s).argument i = (slot.setWidth 64 :: tableName :: args)[i] := by
  obtain ⟨hr8, hr9⟩ := word_called slot tableName handler s
  have h24 : s.regs .rsp - 32#64 + 8#64 = s.regs .rsp - 24#64 := by bv_omega
  have h16 : s.regs .rsp - 32#64 + 16#64 = s.regs .rsp - 16#64 := by bv_omega
  match i with
  | 0 | 1 => simp [State.argument, argumentReg, regs_called]
  | i + 2 =>
    have hi' : i < args.length := by simpa using hi
    rw [List.getElem_cons_succ, List.getElem_cons_succ, ← h i hi']
    rw [hargs] at hi'
    interval_cases i <;> simp [State.argument, argumentReg, regs_called, h24, h16, hr8, hr9]

/-- The stub writes no further up than its own frame. -/
theorem kept_called (hroom : 32 ≤ S.height (s.regs .rsp)) {x : BitVec 64}
    (hx : S.height (s.regs .rsp) ≤ S.height x + 8) :
    (called slot tableName handler s).mem x = s.mem x := by
  have hheight : ∀ k : ℕ, k ≤ 32 → S.height (s.regs .rsp - BitVec.ofNat 64 k) =
      S.height (s.regs .rsp) - k := fun k hk ↦ StackRegion.height_sub (by omega)
  have h₁ := hheight 16 (by omega)
  have h₂ := hheight 24 (by omega)
  have h₃ := hheight 32 (by omega)
  rw [mem_called, StackRegion.writeWord_of_height (S := S),
    StackRegion.writeWord_of_height (S := S), StackRegion.writeWord_of_height (S := S)]
  all_goals omega

theorem height_called (slot : BitVec 32) (tableName handler : BitVec 64)
    (hroom : 32 ≤ S.height (s.regs .rsp)) :
    S.height ((called slot tableName handler s).regs .rsp) = S.height (s.regs .rsp) - 32 := by
  rw [regs_called]
  exact StackRegion.height_sub hroom

theorem entered_called {code : BitVec 64} {args : List (BitVec 64)} {room : ℕ}
    (hargs : args.length = 6) (h : Entered S s code args (room + 32)) :
    Entered S (called slot tableName handler s) handler (slot.setWidth 64 :: tableName :: args)
      room := by
  have hroom := h.room_le
  have hinside := h.inside
  have hheight := height_called slot tableName handler
    (by omega : 32 ≤ S.height (s.regs .rsp))
  refine ⟨rip_called, ?_, by omega, ?_, argument_called hargs h.argument_eq⟩
  · have haligned := h.aligned
    rw [regs_called]
    bv_omega
  · rw [hheight, List.length_cons, List.length_cons, hargs]
    omega

def returned (s : State) : State := (x86.block afterCall s).next .ret 1

theorem left_returned (hroom : 32 ≤ S.height (s.regs .rsp))
    (hinside : S.height (s.regs .rsp) + 8 ≤ S.size) {s' : State} {r : BitVec 64}
    (h : Left S 8 (called slot tableName handler s) s' r) : Left S 6 s (returned s') r := by
  have hheight := height_called slot tableName handler hroom
  have hkept : ∀ x, S.height (s.regs .rsp) ≤ S.height x → S.height x < S.size →
      s'.mem x = s.mem x := fun x hx hx' ↦ by
    rw [h.kept x (by omega) hx', kept_called hroom (by omega)]
  have hrsp : s'.regs .rsp + 24#64 = s.regs .rsp := by
    rw [h.rsp_eq, regs_called]
    bv_omega
  have hsize := S.size_le
  refine ⟨?_, ?_, fun reg hreg ↦ ?_, h.result, fun x hx hx' ↦ hkept x (by omega) hx'⟩
  · show s'.mem.word (s'.regs .rsp + 24#64) = _
    rw [hrsp, ByteMemory.word, ByteMemory.word, ByteMemory.read_congr fun i hi ↦ ?_]
    have hi' := StackRegion.height_add (S := S) (a := s.regs .rsp) (k := i) (by omega)
    exact hkept _ (by omega) (by omega)
  · show s'.regs .rsp + 24#64 + 8#64 = _
    rw [hrsp]
  · have hsaved := h.saved reg hreg
    rw [regs_called] at hsaved
    cases reg <;> first | exact hreg.elim | exact hsaved

theorem thunks_privateExportStub {Inv : (BitVec 64 → Option UInt8) → Prop} {code : BitVec 64}
    (hcode : ∀ w, Inv w → Holds w code (privateExportStub slot tableName handler)) (room : ℕ) :
    (sysV S).Thunks Inv code handler 6 8 room (room + 32)
      fun args ↦ slot.setWidth 64 :: tableName :: args := by
  intro s args hargs hentered hinv
  have hroom : room + 32 ≤ S.height (s.regs .rsp) := hentered.room_le
  have hinside : S.height (s.regs .rsp) + 8 + 8 * (args.length - 6) ≤ S.size := hentered.inside
  -- up to the handler
  have hloaded := hcode _ hinv
  rw [privateExportStub_eq, ← hentered.rip_eq] at hloaded
  obtain ⟨hbefore, hrest⟩ := holds_append.mp hloaded
  obtain ⟨hcall, -⟩ := holds_append.mp hrest
  obtain ⟨hgo, hout, hrip⟩ := Processor.reaches_block hbefore
    (keepsAll_beforeCall (by omega) (by omega))
  have hout' : S.outside (called slot tableName handler s).mem = S.outside s.mem :=
    (outside_next (fits_call (by omega) (by omega))).trans hout
  have hstep : Reaches x86.step _ (called slot tableName handler s) :=
    Processor.reaches_next (by rw [hout, hrip]; exact hcall)
  refine ⟨called slot tableName handler s, hgo.trans hstep, entered_called hargs hentered, hout',
    ?_⟩
  -- back to the caller
  intro s₂ r hleft hinv₂
  have hreturn : s₂.rip = s.rip + 47#64 := by
    rw [hleft.rip_eq, mem_called, regs_called, ByteMemory.word_writeWord_self]
  have hloaded₂ := hcode _ hinv₂
  rw [privateExportStub_eq, ← hentered.rip_eq] at hloaded₂
  obtain ⟨-, hrest₂⟩ := holds_append.mp hloaded₂
  obtain ⟨-, hrest₂⟩ := holds_append.mp hrest₂
  rw [BitVec.add_assoc, ← BitVec.ofNat_add] at hrest₂
  have hback : Holds (S.outside s₂.mem) s₂.rip (x86.assemble afterCall ++ x86.encode .ret) :=
    hreturn ▸ hrest₂
  obtain ⟨hafter, hret⟩ := holds_append.mp hback
  obtain ⟨hgo₂, hout₂, hrip₂⟩ := Processor.reaches_block
    hafter ⟨keeps_of_fits ⟨⟩ ⟨⟩, ⟨⟩⟩
  have hstep₂ : Reaches x86.step _ (returned s₂) :=
    Processor.reaches_next (by rw [hout₂, hrip₂]; exact hret)
  exact ⟨returned s₂, hgo₂.trans hstep₂, left_returned (by omega) (by omega) hleft, rfl⟩

/-- **The stub on x86-64.** It is the handler with two arguments given: whatever the handler does,
under the calling convention, with the slot, the name of the table and six further arguments, the
stub does with the six. -/
theorem sysV_privateExportStub {Inv : (BitVec 64 → Option UInt8) → Prop} {code : BitVec 64}
    {room : ℕ} {F : List (BitVec 64) → (BitVec 64 → Option UInt8) → (BitVec 64 → Option UInt8) →
      BitVec 64 → Prop}
    (hcode : ∀ w, Inv w → Holds w code (privateExportStub slot tableName handler))
    (hhandler : (sysV S).Implements Inv handler 8 room F) :
    (sysV S).Implements Inv code 6 (room + 32) fun args ↦
      F (slot.setWidth 64 :: tableName :: args) :=
  hhandler.thunk (fun args hargs ↦ by rw [List.length_cons, List.length_cons, hargs])
    (thunks_privateExportStub hcode room)

/-- `mov rax, rsi; ret`. -/
def secondArgument : List UInt8 := x86.assemble [.mov .rax .rsi] ++ x86.encode .ret

theorem secondArgument_implements {Inv : (BitVec 64 → Option UInt8) → Prop}
    (hcode : ∀ w, Inv w → Holds w handler secondArgument) :
    (sysV S).Implements Inv handler 8 0 fun args w w' r ↦ w' = w ∧ args[1]? = some r := by
  intro s args hargs hentered hinv
  have hloaded := hcode _ hinv
  rw [secondArgument, ← hentered.rip_eq] at hloaded
  obtain ⟨hmove, hret⟩ := holds_append.mp hloaded
  obtain ⟨hgo, hout, hrip⟩ := Processor.reaches_block hmove ⟨keeps_of_fits ⟨⟩ ⟨⟩, ⟨⟩⟩
  let s' := (x86.block [.mov .rax .rsi] s).next .ret 1
  have hstep : Reaches x86.step _ s' := Processor.reaches_next (by rw [hout, hrip]; exact hret)
  refine ⟨s', s.regs .rsi, hgo.trans hstep, ⟨rfl, rfl, fun reg hreg ↦ ?_, rfl, fun _ _ _ ↦ rfl⟩,
    ⟨rfl, ?_⟩, hinv⟩
  · cases reg <;> first | exact hreg.elim | rfl
  · have hsecond := hentered.argument_eq 1 (by omega)
    rw [List.getElem?_eq_getElem (by omega), ← hsecond]
    rfl

/-- The stub of slot 3, whose handler returns the table's name. -/
theorem sysV_privateExportStub_name :
    (sysV ⟨65536, 4096, by decide⟩).Implements (fun w ↦ Holds w 4096 secondArgument ∧
      Holds w 8192 (privateExportStub 3 12288 4096)) 8192 6 (0 + 32) fun _ w w' r ↦
        w' = w ∧ some 12288 = some r :=
  sysV_privateExportStub (fun _ h ↦ h.2) (secondArgument_implements fun _ h ↦ h.1)

/-! ## Missing symbols

This stub leaves the stack as it is, so a jump is enough. -/

/-- `lupine_make_missing_stub` on x86-64. -/
def missingStub (symbol handler : BitVec 64) : List UInt8 :=
  [0x48, 0xbf] ++ leBytes 8 symbol.toNat ++ [0x48, 0xb8] ++ leBytes 8 handler.toNat ++ [0xff, 0xe0]

def beforeJump (symbol handler : BitVec 64) : List Instr :=
  [.movImm64 .rdi symbol, .movImm64 .rax handler]

theorem missingStub_eq (symbol handler : BitVec 64) :
    missingStub symbol handler =
      x86.assemble (beforeJump symbol handler) ++ x86.encode (.jmp .rax) := rfl

theorem thunks_missingStub {Inv : (BitVec 64 → Option UInt8) → Prop} {code symbol : BitVec 64}
    (hcode : ∀ w, Inv w → Holds w code (missingStub symbol handler)) (arity room : ℕ) :
    (sysV S).Thunks Inv code handler arity 1 room room fun _ ↦ [symbol] := by
  intro s args hargs hentered hinv
  let s₁ := (x86.block (beforeJump symbol handler) s).next (.jmp .rax) 2
  have hinside := hentered.inside
  have hloaded := hcode _ hinv
  rw [missingStub_eq, ← hentered.rip_eq] at hloaded
  obtain ⟨hbefore, hjump⟩ := holds_append.mp hloaded
  obtain ⟨hgo, hout, hrip⟩ := Processor.reaches_block hbefore
    ⟨keeps_of_fits ⟨⟩ ⟨⟩, keeps_of_fits ⟨⟩ ⟨⟩, ⟨⟩⟩
  have hstep : Reaches x86.step _ s₁ := Processor.reaches_next (by rw [hout, hrip]; exact hjump)
  refine ⟨s₁, hgo.trans hstep, ⟨rfl, hentered.aligned, hentered.room_le, ?_, fun i hi ↦ ?_⟩, rfl,
    ?_⟩
  · show S.height (s.regs .rsp) + 8 + 0 ≤ S.size
    omega
  · obtain rfl : i = 0 := by simpa using hi
    rfl
  · intro s₂ r hleft _
    refine ⟨s₂, .refl s₂, ⟨hleft.rip_eq, hleft.rsp_eq, fun reg hreg ↦ ?_, hleft.result,
      fun x hx hx' ↦ hleft.kept x ?_ hx'⟩, rfl⟩
    · rw [hleft.saved reg hreg]
      cases reg <;> first | exact hreg.elim | rfl
    · show S.height (s.regs .rsp) + 8 + 0 ≤ S.height x
      omega

end X86Stubs

end Lupine
