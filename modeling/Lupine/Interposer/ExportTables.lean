import Lupine.Foundation.Machine
import Lupine.Interposer.AArch64Stubs
import Lupine.Interposer.X86Stubs
import Mathlib.Data.List.Forall2

/-!
# Tables of stubs

The client makes stubs while it runs: a private export table is made when its name is asked for the
first time, with a stub for each slot, and a stub is made for each missing symbol that is asked for.
Code pages and copies of names come from the allocator, which may fail. What the client has made
stays as it is, whatever the rest of the program does to memory of its own, so that every pointer it
has handed out can be called at any later time.

## Holding memory

What the client holds is a list of regions with the bytes it has put there. The rest of the process
writes anywhere else, so these bytes stay. Making a table or a stub only adds to what is held, and
whether an entry is a stub for its slot is a statement about the bytes that are held, so it goes
over to every later state.
-/

open Foundation

namespace Lupine

/-! ## Platforms

A platform gives the bytes of a stub and what calling it does. -/

/-- What the client needs of a platform to make stubs. -/
structure StubPlatform (σ : Type) where
  convention : StackRegion → Convention σ (BitVec 64) (BitVec 64 → Option UInt8)
  privateExportStub : BitVec 32 → BitVec 64 → BitVec 64 → List UInt8
  missingStub : BitVec 64 → BitVec 64 → List UInt8
  /-- The stack that the stub of a private export table takes for itself. -/
  frame : ℕ
  privateExportStub_thunks : ∀ (S : StackRegion) {Inv : (BitVec 64 → Option UInt8) → Prop}
    {code tableName handler : BitVec 64} {slot : BitVec 32},
    (∀ w, Inv w → Holds w code (privateExportStub slot tableName handler)) → ∀ room : ℕ,
    (convention S).Thunks Inv code handler 6 8 room (room + frame)
      fun args ↦ slot.setWidth 64 :: tableName :: args
  missingStub_thunks : ∀ (S : StackRegion) {Inv : (BitVec 64 → Option UInt8) → Prop}
    {code symbol handler : BitVec 64},
    (∀ w, Inv w → Holds w code (missingStub symbol handler)) → ∀ arity room : ℕ,
    (convention S).Thunks Inv code handler arity 1 room room fun _ ↦ [symbol]

/-- `__x86_64__`. -/
def x86Stubs : StubPlatform X86.State where
  convention := X86.sysV
  privateExportStub := X86Stubs.privateExportStub
  missingStub := X86Stubs.missingStub
  frame := 32
  privateExportStub_thunks _ {_ _ _ _ _} h := X86Stubs.thunks_privateExportStub h
  missingStub_thunks _ {_ _ _ _} h := X86Stubs.thunks_missingStub h

/-- `__aarch64__`. -/
def aarch64Stubs : StubPlatform AArch64.State where
  convention := AArch64.aapcs64
  privateExportStub := AArch64Stubs.privateExportStub
  missingStub := AArch64Stubs.missingStub
  frame := 0
  privateExportStub_thunks _ {_ _ _ _ _} h := AArch64Stubs.thunks_privateExportStub h
  missingStub_thunks _ {_ _ _ _} h := AArch64Stubs.thunks_missingStub h

/-! ## Memory that has been given out

The allocator gives a region that overlaps nothing the client holds, or fails. A table is made slot
by slot, and a slot without a stub has the function for what is not supported. -/

structure Region where
  base : BitVec 64
  size : ℕ
  deriving DecidableEq, Repr

/-- Two regions do not overlap. -/
def Region.Apart (r r' : Region) : Prop :=
  r.size ≤ (r'.base - r.base).toNat ∧ r'.size ≤ (r.base - r'.base).toNat

instance (r r' : Region) : Decidable (r.Apart r') := inferInstanceAs (Decidable (_ ∧ _))

theorem Region.Apart.write {r r' : Region} (h : r.Apart r') (m : ByteMemory) {bytes : List UInt8}
    (hbytes : bytes.length = r'.size) {k : ℕ} (hk : k < r.size) :
    m.write r'.base bytes (r.base + BitVec.ofNat 64 k) = m (r.base + BitVec.ofNat 64 k) := by
  obtain ⟨h₁, h₂⟩ := h
  refine m.write_of_le r'.base ?_
  rw [hbytes]
  bv_omega

/-- The functions that stubs lead to. -/
structure StubHandlers where
  /-- `lupine_private_export_slot_called`. -/
  privateExportSlotCalled : BitVec 64
  /-- `lupine_missing_driver_api_called`. -/
  missingDriverApiCalled : BitVec 64
  /-- `lupine_unsupported_driver_api`. -/
  unsupportedDriverApi : BitVec 64
  deriving Repr

/-- The memory of the client's process, and what the client has made. -/
structure StubProcess where
  mem : ByteMemory
  /-- What the client holds: the code of stubs, and copies of names. -/
  used : List Region := []
  /-- `tables` of `lupine_make_private_export_table`. -/
  tables : List (List UInt8 × List (BitVec 64)) := []
  /-- `stubs` of `lupine_make_missing_stub`. -/
  stubs : List (List UInt8 × BitVec 64) := []

namespace StubProcess

variable {σ : Type} (P : StubPlatform σ) (H : StubHandlers) (p : StubProcess)

/-- Nothing that the client holds overlaps a region. -/
def Free (r : Region) : Prop := ∀ r' ∈ p.used, r'.Apart r

instance (r : Region) : Decidable (p.Free r) := inferInstanceAs (Decidable (∀ r' ∈ p.used, _))

/-- Bytes are put where the allocator says, which is free. It may also fail. -/
def put (bytes : List UInt8) : Option (BitVec 64) → Option StubProcess
  | none => some p
  | some a =>
    if p.Free ⟨a, bytes.length⟩ ∧ bytes.length ≤ 2 ^ 64 then
      some { p with mem := p.mem.write a bytes, used := ⟨a, bytes.length⟩ :: p.used }
    else none

/-- `lupine_make_private_export_stub`, with the answer of `mmap`. -/
def makePrivateExportStub (slot : ℕ) (tableName : BitVec 64) (page : Option (BitVec 64)) :
    Option (StubProcess × BitVec 64) := do
  let code := P.privateExportStub (BitVec.ofNat 32 slot) tableName H.privateExportSlotCalled
  let p ← p.put code page
  return (p, page.getD H.unsupportedDriverApi)

/-- The loop of `lupine_make_private_export_table`, for the given slots. -/
def makePrivateExportStubs (tableName : BitVec 64) (pages : ℕ → Option (BitVec 64)) :
    List ℕ → StubProcess → Option (StubProcess × List (BitVec 64))
  | [], p => some (p, [])
  | slot :: slots, p => do
    let (p, stub) ← p.makePrivateExportStub P H slot tableName (pages slot)
    let (p, stubs) ← makePrivateExportStubs tableName pages slots p
    return (p, stub :: stubs)

/-- `lupine_make_private_export_table`, with the answers of `strdup` and `mmap`. The first entry of
a table is its size. -/
def makePrivateExportTable (tableName : List UInt8) (byteSize : ℕ) (copy : Option (BitVec 64))
    (pages : ℕ → Option (BitVec 64)) : Option (StubProcess × List (BitVec 64)) :=
  match p.tables.lookup tableName with
  | some table => some (p, table)
  | none => do
    let entries := byteSize / 8
    let p ← p.put (tableName ++ [0]) copy
    let (p, stubs) ← p.makePrivateExportStubs P H (copy.getD 0) pages (List.range' 1 (entries - 1))
    let table := if entries = 0 then [] else BitVec.ofNat 64 byteSize :: stubs
    return ({ p with tables := (tableName, table) :: p.tables }, table)

/-- `lupine_make_missing_stub`, with the answers of `mmap` and `strdup`. -/
def makeMissingStub (symbol : List UInt8) (page copy : Option (BitVec 64)) :
    Option (StubProcess × BitVec 64) :=
  match p.stubs.lookup symbol with
  | some code => some (p, code)
  | none =>
    match page with
    | none => some (p, H.unsupportedDriverApi)
    | some code => do
      let p ← p.put (symbol ++ [0]) copy
      let p ← p.put (P.missingStub (copy.getD 0) H.missingDriverApiCalled) page
      return ({ p with stubs := (symbol, code) :: p.stubs }, code)

end StubProcess

inductive StubAction where
  | exportTable (tableName : List UInt8) (byteSize : ℕ) (copy : Option (BitVec 64))
    (pages : ℕ → Option (BitVec 64))
  | missing (symbol : List UInt8) (page copy : Option (BitVec 64))
  /-- The rest of the program writes to memory of its own. -/
  | write (a : BitVec 64) (bytes : List UInt8)

namespace StubProcess

variable {σ : Type} (P : StubPlatform σ) (H : StubHandlers)

def step (p : StubProcess) : StubAction → Option StubProcess
  | .exportTable tableName byteSize copy pages =>
    (p.makePrivateExportTable P H tableName byteSize copy pages).map Prod.fst
  | .missing symbol page copy => (p.makeMissingStub P H symbol page copy).map Prod.fst
  | .write a bytes =>
    if p.Free ⟨a, bytes.length⟩ then some { p with mem := p.mem.write a bytes } else none

def machine : Machine StubProcess StubAction where
  step := step P H

/-! ## What stays

A table is added under a name that is new, so it hides no other. Holding more is keeping what there
is. -/

structure Loaded (p : StubProcess) (a : BitVec 64) (bytes : List UInt8) : Prop where
  mem_used : ⟨a, bytes.length⟩ ∈ p.used
  read_eq : p.mem.read a bytes.length = bytes

/-- What the client holds is as the client has left it. -/
def Intact (p : StubProcess) (w : BitVec 64 → Option UInt8) : Prop :=
  ∀ r ∈ p.used, ∀ k < r.size,
    w (r.base + BitVec.ofNat 64 k) = some (p.mem (r.base + BitVec.ofNat 64 k))

/-- Nothing is lost from one state to the other. -/
structure Extends (p p' : StubProcess) : Prop where
  used : p.used ⊆ p'.used
  mem : ∀ r ∈ p.used, ∀ k < r.size,
    p'.mem (r.base + BitVec.ofNat 64 k) = p.mem (r.base + BitVec.ofNat 64 k)

variable {P H} {p p' p'' : StubProcess}

theorem Extends.refl (p : StubProcess) : p.Extends p := ⟨List.Subset.refl _, fun _ _ _ _ ↦ rfl⟩

theorem Extends.trans (h : p.Extends p') (h' : p'.Extends p'') : p.Extends p'' :=
  ⟨List.Subset.trans h.used h'.used, fun r hr k hk ↦
    (h'.mem r (h.used hr) k hk).trans (h.mem r hr k hk)⟩

theorem Loaded.extends {a : BitVec 64} {bytes : List UInt8} (h : p.Loaded a bytes)
    (hext : p.Extends p') : p'.Loaded a bytes :=
  ⟨hext.used h.mem_used,
    (ByteMemory.read_congr fun k hk ↦ hext.mem _ h.mem_used k hk).trans h.read_eq⟩

/-- What the client holds can be found wherever it is intact. -/
theorem Loaded.holds {a : BitVec 64} {bytes : List UInt8} (h : p.Loaded a bytes)
    {w : BitVec 64 → Option UInt8} (hw : p.Intact w) : Holds w a bytes := by
  intro k hk
  rw [hw _ h.mem_used k hk]
  have hread := h.read_eq
  have hbyte := List.getElem_of_eq hread (i := k) (by rwa [ByteMemory.length_read])
  simpa only [ByteMemory.read, List.getElem_map, List.getElem_range] using congrArg some hbyte

theorem extends_put {bytes : List UInt8} {answer : Option (BitVec 64)}
    (h : p.put bytes answer = some p') :
    p.Extends p' ∧ p'.tables = p.tables ∧ p'.stubs = p.stubs ∧
      ∀ a, answer = some a → p'.Loaded a bytes := by
  cases answer with
  | none =>
    obtain rfl := Option.some.inj h
    exact ⟨.refl _, rfl, rfl, fun _ h ↦ nomatch h⟩
  | some a =>
    rw [put] at h
    split at h
    · rename_i hfree
      obtain rfl := Option.some.inj h
      refine ⟨⟨List.subset_cons_self _ _, fun r hr k hk ↦ ?_⟩, rfl, rfl, fun a' ha' ↦ ?_⟩
      · exact (hfree.1 r hr).write p.mem rfl hk
      · obtain rfl := Option.some.inj ha'
        exact ⟨List.mem_cons_self, p.mem.read_write_self a bytes hfree.2⟩
    · cases h

/-- A pointer to a copy of a name, or the null pointer where there is none. -/
def Names (p : StubProcess) (a : BitVec 64) (name : List UInt8) : Prop :=
  a = 0 ∨ p.Loaded a (name ++ [0])

/-- The entry of a slot: a stub, or the function for what is not supported. -/
def ExportStub (P : StubPlatform σ) (H : StubHandlers) (p : StubProcess) (slot : ℕ)
    (tableName entry : BitVec 64) : Prop :=
  entry = H.unsupportedDriverApi ∨ p.Loaded entry
    (P.privateExportStub (BitVec.ofNat 32 slot) tableName H.privateExportSlotCalled)

/-- The tables and stubs of the client are what their names say. -/
structure Sound (P : StubPlatform σ) (H : StubHandlers) (p : StubProcess) : Prop where
  tables : ∀ name table, p.tables.lookup name = some table → ∃ tableName,
    p.Names tableName name ∧
    ∀ slot (h : slot < table.length), 0 < slot → p.ExportStub P H slot tableName table[slot]
  stubs : ∀ symbol code, p.stubs.lookup symbol = some code → ∃ name, p.Names name symbol ∧
    p.Loaded code (P.missingStub name H.missingDriverApiCalled)

theorem Names.extends {a : BitVec 64} {name : List UInt8} (h : p.Names a name)
    (hext : p.Extends p') : p'.Names a name :=
  h.imp_right (Loaded.extends · hext)

theorem ExportStub.extends {slot : ℕ} {tableName entry : BitVec 64}
    (h : p.ExportStub P H slot tableName entry) (hext : p.Extends p') :
    p'.ExportStub P H slot tableName entry :=
  h.imp_right (Loaded.extends · hext)

theorem Sound.extends (h : p.Sound P H) (hext : p.Extends p') (htables : p'.tables = p.tables)
    (hstubs : p'.stubs = p.stubs) : p'.Sound P H where
  tables name table hfound := by
    obtain ⟨tableName, hname, hslots⟩ := h.tables name table (htables ▸ hfound)
    exact ⟨tableName, hname.extends hext, fun slot hslot hpos ↦
      (hslots slot hslot hpos).extends hext⟩
  stubs symbol code hfound := by
    obtain ⟨name, hname, hcode⟩ := h.stubs symbol code (hstubs ▸ hfound)
    exact ⟨name, hname.extends hext, hcode.extends hext⟩

theorem names_put {name : List UInt8} {copy : Option (BitVec 64)}
    (h : p.put (name ++ [0]) copy = some p') : p'.Names (copy.getD 0) name := by
  cases copy with
  | none => exact .inl rfl
  | some a => exact .inr ((extends_put h).2.2.2 a rfl)

theorem makePrivateExportStub_spec {slot : ℕ} {tableName entry : BitVec 64}
    {page : Option (BitVec 64)}
    (h : p.makePrivateExportStub P H slot tableName page = some (p', entry)) :
    p.Extends p' ∧ p'.tables = p.tables ∧ p'.stubs = p.stubs ∧
      p'.ExportStub P H slot tableName entry := by
  obtain ⟨p₁, hput, hret⟩ := Option.bind_eq_some_iff.mp h
  obtain ⟨rfl, rfl⟩ := Prod.mk.inj (Option.some.inj hret)
  obtain ⟨hext, htables, hstubs, hloaded⟩ := extends_put hput
  refine ⟨hext, htables, hstubs, ?_⟩
  cases page with
  | none => exact .inl rfl
  | some a => exact .inr (hloaded a rfl)

theorem makePrivateExportStubs_spec {tableName : BitVec 64} {pages : ℕ → Option (BitVec 64)}
    {slots : List ℕ} {entries : List (BitVec 64)}
    (h : p.makePrivateExportStubs P H tableName pages slots = some (p', entries)) :
    p.Extends p' ∧ p'.tables = p.tables ∧ p'.stubs = p.stubs ∧
      List.Forall₂ (fun slot entry ↦ p'.ExportStub P H slot tableName entry) slots entries := by
  induction slots generalizing p entries with
  | nil =>
    obtain ⟨rfl, rfl⟩ := Prod.mk.inj (Option.some.inj h)
    exact ⟨.refl _, rfl, rfl, .nil⟩
  | cons slot slots ih =>
    obtain ⟨⟨p₁, entry⟩, hstub, hrest⟩ := Option.bind_eq_some_iff.mp h
    obtain ⟨⟨p₂, entries'⟩, hloop, hret⟩ := Option.bind_eq_some_iff.mp hrest
    obtain ⟨rfl, rfl⟩ := Prod.mk.inj (Option.some.inj hret)
    obtain ⟨hext₁, htables₁, hstubs₁, hentry⟩ := makePrivateExportStub_spec hstub
    obtain ⟨hext₂, htables₂, hstubs₂, hentries⟩ := ih hloop
    exact ⟨hext₁.trans hext₂, htables₂.trans htables₁, hstubs₂.trans hstubs₁,
      .cons (hentry.extends hext₂) hentries⟩

/-- What was there before is still there, and is found under its name. -/
structure Keeps (p p' : StubProcess) : Prop where
  held : p.Extends p'
  tables : ∀ name table, p.tables.lookup name = some table → p'.tables.lookup name = some table
  stubs : ∀ symbol code, p.stubs.lookup symbol = some code → p'.stubs.lookup symbol = some code

theorem Keeps.refl (p : StubProcess) : p.Keeps p := ⟨.refl p, fun _ _ h ↦ h, fun _ _ h ↦ h⟩

theorem Keeps.trans (h : p.Keeps p') (h' : p'.Keeps p'') : p.Keeps p'' :=
  ⟨h.held.trans h'.held, fun name table hfound ↦ h'.tables name table (h.tables name table hfound),
    fun symbol code hfound ↦ h'.stubs symbol code (h.stubs symbol code hfound)⟩

theorem lookup_cons_of_none {α β : Type} [BEq α] [LawfulBEq α] {l : List (α × β)} {a b : α}
    {x y : β} (hnew : l.lookup a = none) (hold : l.lookup b = some y) :
    ((a, x) :: l).lookup b = some y := by
  rw [List.lookup_cons]
  split
  · rename_i heq
    rw [eq_of_beq heq, hnew] at hold
    cases hold
  · exact hold

theorem Sound.addTable (h : p.Sound P H) {name : List UInt8} (table : List (BitVec 64))
    {tableName : BitVec 64} (hnew : p.tables.lookup name = none) (hname : p.Names tableName name)
    (hslots : ∀ slot (h : slot < table.length), 0 < slot →
      p.ExportStub P H slot tableName table[slot]) :
    Sound P H { p with tables := (name, table) :: p.tables } ∧
      p.Keeps { p with tables := (name, table) :: p.tables } := by
  have hext : p.Extends { p with tables := (name, table) :: p.tables } :=
    ⟨List.Subset.refl _, fun _ _ _ _ ↦ rfl⟩
  refine ⟨⟨fun name' table' hfound ↦ ?_, fun symbol code hfound ↦ ?_⟩,
    ⟨hext, fun _ _ ↦ lookup_cons_of_none hnew, fun _ _ hfound ↦ hfound⟩⟩
  · rw [List.lookup_cons] at hfound
    split at hfound
    · rename_i heq
      rw [eq_of_beq heq, ← Option.some.inj hfound]
      exact ⟨tableName, hname.extends hext, fun slot hslot hpos ↦
        (hslots slot hslot hpos).extends hext⟩
    · obtain ⟨tableName', hname', hslots'⟩ := h.tables name' table' hfound
      exact ⟨tableName', hname'.extends hext, fun slot hslot hpos ↦
        (hslots' slot hslot hpos).extends hext⟩
  · obtain ⟨name', hname', hcode⟩ := h.stubs symbol code hfound
    exact ⟨name', hname'.extends hext, hcode.extends hext⟩

theorem Sound.addStub (h : p.Sound P H) {symbol : List UInt8} {code name : BitVec 64}
    (hnew : p.stubs.lookup symbol = none) (hname : p.Names name symbol)
    (hcode : p.Loaded code (P.missingStub name H.missingDriverApiCalled)) :
    Sound P H { p with stubs := (symbol, code) :: p.stubs } ∧
      p.Keeps { p with stubs := (symbol, code) :: p.stubs } := by
  have hext : p.Extends { p with stubs := (symbol, code) :: p.stubs } :=
    ⟨List.Subset.refl _, fun _ _ _ _ ↦ rfl⟩
  refine ⟨⟨fun name' table hfound ↦ ?_, fun symbol' code' hfound ↦ ?_⟩,
    ⟨hext, fun _ _ hfound ↦ hfound, fun _ _ ↦ lookup_cons_of_none hnew⟩⟩
  · obtain ⟨tableName, hname', hslots⟩ := h.tables name' table hfound
    exact ⟨tableName, hname'.extends hext, fun slot hslot hpos ↦
      (hslots slot hslot hpos).extends hext⟩
  · rw [List.lookup_cons] at hfound
    split at hfound
    · rename_i heq
      rw [eq_of_beq heq, ← Option.some.inj hfound]
      exact ⟨name, hname.extends hext, hcode.extends hext⟩
    · obtain ⟨name', hname', hcode'⟩ := h.stubs symbol' code' hfound
      exact ⟨name', hname'.extends hext, hcode'.extends hext⟩

theorem keeps_of_extends (hext : p.Extends p') (htables : p'.tables = p.tables)
    (hstubs : p'.stubs = p.stubs) : p.Keeps p' :=
  ⟨hext, fun _ _ hfound ↦ htables ▸ hfound, fun _ _ hfound ↦ hstubs ▸ hfound⟩

theorem makePrivateExportTable_spec (hsound : p.Sound P H) {tableName : List UInt8} {byteSize : ℕ}
    {copy : Option (BitVec 64)} {pages : ℕ → Option (BitVec 64)} {table : List (BitVec 64)}
    (h : p.makePrivateExportTable P H tableName byteSize copy pages = some (p', table)) :
    p'.Sound P H ∧ p.Keeps p' := by
  unfold makePrivateExportTable at h
  split at h
  · obtain ⟨rfl, rfl⟩ := Prod.mk.inj (Option.some.inj h)
    exact ⟨hsound, .refl _⟩
  · rename_i hnew
    obtain ⟨p₁, hput, hrest⟩ := Option.bind_eq_some_iff.mp h
    obtain ⟨⟨p₂, stubs⟩, hloop, hret⟩ := Option.bind_eq_some_iff.mp hrest
    obtain ⟨rfl, -⟩ := Prod.mk.inj (Option.some.inj hret)
    obtain ⟨hext₁, htables₁, hstubs₁, -⟩ := extends_put hput
    obtain ⟨hext₂, htables₂, hstubs₂, hentries⟩ := makePrivateExportStubs_spec hloop
    have hext := hext₁.trans hext₂
    have htables := htables₂.trans htables₁
    have hstubs := hstubs₂.trans hstubs₁
    obtain ⟨hsound', hkeeps⟩ := (hsound.extends hext htables hstubs).addTable
      (if byteSize / 8 = 0 then [] else BitVec.ofNat 64 byteSize :: stubs)
      (htables ▸ hnew) ((names_put hput).extends hext₂) fun slot hslot hpos ↦ by
        by_cases hempty : byteSize / 8 = 0
        · simp only [hempty, if_true] at hslot
          exact absurd hslot (Nat.not_lt_zero _)
        · simp only [hempty, if_false]
          obtain ⟨slot, rfl⟩ := Nat.exists_eq_add_one_of_ne_zero hpos.ne'
          obtain ⟨hlength, hall⟩ := List.forall₂_iff_get.mp hentries
          have hstub : slot < stubs.length := by
            simpa only [hempty, if_false, List.length_cons, Nat.add_lt_add_iff_right] using hslot
          have hget := hall slot (hlength ▸ hstub) hstub
          rw [List.get_eq_getElem, List.getElem_range', Nat.one_mul, Nat.add_comm] at hget
          exact hget
    exact ⟨hsound', (keeps_of_extends hext htables hstubs).trans hkeeps⟩

theorem makeMissingStub_spec (hsound : p.Sound P H) {symbol : List UInt8}
    {page copy : Option (BitVec 64)} {code : BitVec 64}
    (h : p.makeMissingStub P H symbol page copy = some (p', code)) :
    p'.Sound P H ∧ p.Keeps p' := by
  unfold makeMissingStub at h
  split at h
  · obtain ⟨rfl, rfl⟩ := Prod.mk.inj (Option.some.inj h)
    exact ⟨hsound, .refl _⟩
  · rename_i hnew
    split at h
    · obtain ⟨rfl, rfl⟩ := Prod.mk.inj (Option.some.inj h)
      exact ⟨hsound, .refl _⟩
    · obtain ⟨p₁, hcopy, hrest⟩ := Option.bind_eq_some_iff.mp h
      obtain ⟨p₂, hput, hret⟩ := Option.bind_eq_some_iff.mp hrest
      obtain ⟨rfl, -⟩ := Prod.mk.inj (Option.some.inj hret)
      obtain ⟨hext₁, htables₁, hstubs₁, -⟩ := extends_put hcopy
      obtain ⟨hext₂, htables₂, hstubs₂, hloaded⟩ := extends_put hput
      have hext := hext₁.trans hext₂
      have htables := htables₂.trans htables₁
      have hstubs := hstubs₂.trans hstubs₁
      obtain ⟨hsound', hkeeps⟩ := (hsound.extends hext htables hstubs).addStub (hstubs ▸ hnew)
        ((names_put hcopy).extends hext₂) (hloaded _ rfl)
      exact ⟨hsound', (keeps_of_extends hext htables hstubs).trans hkeeps⟩

/-- Every step keeps the tables and stubs. -/
theorem Sound.step (hsound : p.Sound P H) {action : StubAction}
    (h : p.step P H action = some p') : p'.Sound P H ∧ p.Keeps p' := by
  cases action with
  | exportTable tableName byteSize copy pages =>
    obtain ⟨⟨_, table⟩, hmake, rfl⟩ := Option.map_eq_some_iff.mp h
    exact makePrivateExportTable_spec hsound hmake
  | missing symbol page copy =>
    obtain ⟨⟨_, code⟩, hmake, rfl⟩ := Option.map_eq_some_iff.mp h
    exact makeMissingStub_spec hsound hmake
  | write a bytes =>
    rw [StubProcess.step] at h
    split at h
    · rename_i hfree
      obtain rfl := Option.some.inj h
      have hext : p.Extends { p with mem := p.mem.write a bytes } :=
        ⟨List.Subset.refl _, fun r hr k hk ↦ (hfree r hr).write p.mem rfl hk⟩
      exact ⟨hsound.extends hext rfl rfl, keeps_of_extends hext rfl rfl⟩
    · cases h

theorem Sound.run (hsound : p.Sound P H) {actions : List StubAction}
    (h : (machine P H).run p actions = some p') : p'.Sound P H ∧ p.Keeps p' := by
  have hinv := (machine P H).run_invariant (I := fun q ↦ q.Sound P H ∧ p.Keeps q)
    (fun q action q' ⟨hq, hkeeps⟩ hstep ↦ by
      obtain ⟨hq', hkeeps'⟩ := hq.step hstep
      exact ⟨hq', hkeeps.trans hkeeps'⟩) ⟨hsound, .refl p⟩ h
  exact hinv

theorem sound_init (P : StubPlatform σ) (H : StubHandlers) (mem : ByteMemory) :
    Sound P H { mem := mem } := by
  constructor <;> intro _ _ h <;> cases h

/-! ## What the stubs do

An entry is called on a processor whose memory has the bytes that the client holds, wherever the
rest of the process has put anything. -/

/-- Where what the client holds is intact, calling `entry` is calling `target` so. -/
def CallsWith (P : StubPlatform σ) (p : StubProcess) (S : StackRegion) (entry target : BitVec 64)
    (arity arity' frame : ℕ) (extend : List (BitVec 64) → List (BitVec 64)) : Prop :=
  ∀ (Inv : (BitVec 64 → Option UInt8) → Prop) (room : ℕ)
    (F : List (BitVec 64) → (BitVec 64 → Option UInt8) → (BitVec 64 → Option UInt8) → BitVec 64 →
      Prop),
    (∀ w, Inv w → p.Intact w) → (P.convention S).Implements Inv target arity' room F →
    (P.convention S).Implements Inv entry arity (room + frame) fun args ↦ F (extend args)

theorem exportStub_callsWith {slot : ℕ} {tableName entry : BitVec 64} (S : StackRegion)
    (h : p.Loaded entry (P.privateExportStub (BitVec.ofNat 32 slot) tableName
      H.privateExportSlotCalled)) :
    p.CallsWith P S entry H.privateExportSlotCalled 6 8 P.frame fun args ↦
      (BitVec.ofNat 32 slot).setWidth 64 :: tableName :: args :=
  fun _ room _ hintact himplements ↦
    himplements.thunk (fun args hargs ↦ by rw [List.length_cons, List.length_cons, hargs])
      (P.privateExportStub_thunks S (fun w hw ↦ h.holds (hintact w hw)) room)

theorem missingStub_callsWith {name code : BitVec 64} (S : StackRegion)
    (h : p.Loaded code (P.missingStub name H.missingDriverApiCalled)) (arity : ℕ) :
    p.CallsWith P S code H.missingDriverApiCalled arity 1 0 fun _ ↦ [name] :=
  fun _ room _ hintact himplements ↦
    himplements.thunk (fun _ _ ↦ rfl)
      (P.missingStub_thunks S (fun w hw ↦ h.holds (hintact w hw)) arity room)

/-- The pointers that the client has handed out can be called, and stay so. -/
structure Callable (P : StubPlatform σ) (H : StubHandlers) (p : StubProcess) (S : StackRegion) :
    Prop where
  /-- A slot of a table leads to the handler, with the slot and the name of the table, unless there
  was no memory for its stub. -/
  tables : ∀ name table, p.tables.lookup name = some table → ∃ tableName, p.Names tableName name ∧
    ∀ slot (h : slot < table.length), 0 < slot → table[slot] = H.unsupportedDriverApi ∨
      p.CallsWith P S table[slot] H.privateExportSlotCalled 6 8 P.frame fun args ↦
        (BitVec.ofNat 32 slot).setWidth 64 :: tableName :: args
  /-- The stub of a missing symbol leads to its handler with the symbol, however it is called. -/
  stubs : ∀ symbol code, p.stubs.lookup symbol = some code → ∃ name, p.Names name symbol ∧
    ∀ arity, p.CallsWith P S code H.missingDriverApiCalled arity 1 0 fun _ ↦ [name]
  later : ∀ actions p', (machine P H).run p actions = some p' → p.Keeps p'

end StubProcess

end Lupine
