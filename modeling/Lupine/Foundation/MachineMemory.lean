import Lupine.Foundation.LittleEndian
import Mathlib.Data.List.GetD

/-!
# The memory of a machine

Memory is a table of bytes with 64-bit addresses, which wrap around. A procedure works in two kinds
of memory: the stack of its thread, of which the part below the stack pointer is its own, and the
rest, which is what the other parts of the program see of it. Code lies in the rest.

## Inside and outside

What is written lower on the stack leaves what is higher, and is not seen outside. Both are shown
for the eight bytes of a word, with the height above the base in place of the address, since heights
do not wrap.
-/

namespace Foundation

/-- A memory of bytes. -/
abbrev ByteMemory := BitVec 64 → UInt8

namespace ByteMemory

def read (m : ByteMemory) (a : BitVec 64) (n : ℕ) : List UInt8 :=
  (List.range n).map fun i ↦ m (a + BitVec.ofNat 64 i)

def write (m : ByteMemory) (a : BitVec 64) (bytes : List UInt8) : ByteMemory := fun x ↦
  bytes.getD (x - a).toNat (m x)

def word (m : ByteMemory) (a : BitVec 64) : BitVec 64 := BitVec.ofNat 64 (leValue (m.read a 8))

def writeWord (m : ByteMemory) (a v : BitVec 64) : ByteMemory := m.write a (leBytes 8 v.toNat)

variable (m : ByteMemory) (a : BitVec 64)

@[simp] theorem length_read (n : ℕ) : (m.read a n).length = n := by
  rw [read, List.length_map, List.length_range]

theorem read_add (n k : ℕ) : m.read a (n + k) = m.read a n ++ m.read (a + BitVec.ofNat 64 n) k := by
  rw [read, List.range_add, List.map_append, List.map_map]
  refine congrArg _ (List.map_congr_left fun i _ ↦ ?_)
  rw [Function.comp_apply, BitVec.ofNat_add, BitVec.add_assoc]

theorem write_of_le {bytes : List UInt8} {x : BitVec 64} (h : bytes.length ≤ (x - a).toNat) :
    m.write a bytes x = m x :=
  List.getD_eq_default _ _ h

theorem read_write_self (bytes : List UInt8) (h : bytes.length ≤ 2 ^ 64) :
    (m.write a bytes).read a bytes.length = bytes := by
  refine List.ext_getElem (length_read _ _ _) fun i hi hi' ↦ ?_
  have hoffset : (a + BitVec.ofNat 64 i - a).toNat = i := by
    rw [BitVec.add_comm, BitVec.add_sub_cancel, BitVec.toNat_ofNat]
    exact Nat.mod_eq_of_lt (by omega)
  simp only [read, List.getElem_map, List.getElem_range, write]
  rw [hoffset, List.getD_eq_getElem _ _ hi']

theorem read_congr {m m' : ByteMemory} {a : BitVec 64} {n : ℕ}
    (h : ∀ i < n, m (a + BitVec.ofNat 64 i) = m' (a + BitVec.ofNat 64 i)) :
    m.read a n = m'.read a n :=
  List.map_congr_left fun i hi ↦ h i (List.mem_range.mp hi)

@[simp] theorem word_writeWord_self (v : BitVec 64) : (m.writeWord a v).word a = v := by
  have hread := read_write_self m a (leBytes 8 v.toNat) (by rw [length_leBytes]; omega)
  rw [length_leBytes] at hread
  rw [word, writeWord, hread, leValue_leBytes (by omega), BitVec.ofNat_toNat, BitVec.setWidth_eq]

theorem writeWord_of_le {v x : BitVec 64} (h : 8 ≤ (x - a).toNat) : m.writeWord a v x = m x :=
  write_of_le m a (by rwa [length_leBytes])

theorem word_writeWord_of_le {a' v : BitVec 64}
    (h : ∀ i < 8, 8 ≤ (a' + BitVec.ofNat 64 i - a).toNat) :
    (m.writeWord a v).word a' = m.word a' := by
  rw [word, word, read_congr fun i hi ↦ writeWord_of_le m a (h i hi)]

end ByteMemory

/-- The memory of a stack: `size` bytes from `base` on. -/
structure StackRegion where
  base : BitVec 64
  size : ℕ
  size_le : size ≤ 2 ^ 64

namespace StackRegion

variable (S : StackRegion) {m : ByteMemory} {a : BitVec 64}

def height (x : BitVec 64) : ℕ := (x - S.base).toNat

def outside (m : ByteMemory) : BitVec 64 → Option UInt8 := fun x ↦
  if S.height x < S.size then none else some (m x)

variable {S}

theorem height_add {k : ℕ} (h : S.height a + k < 2 ^ 64) :
    S.height (a + BitVec.ofNat 64 k) = S.height a + k := by
  unfold height at h ⊢
  bv_omega

theorem height_sub {k : ℕ} (h : k ≤ S.height a) :
    S.height (a - BitVec.ofNat 64 k) = S.height a - k := by
  unfold height at h ⊢
  bv_omega

/-- What is written lower on the stack leaves what is higher. -/
theorem writeWord_of_height {v x : BitVec 64} (h : S.height a + 8 ≤ S.height x) :
    m.writeWord a v x = m x := by
  refine m.writeWord_of_le a ?_
  unfold height at h
  bv_omega

theorem outside_write {bytes : List UInt8} (h : S.height a + bytes.length ≤ S.size) :
    S.outside (m.write a bytes) = S.outside m := by
  funext x
  unfold outside
  split
  · rfl
  · rename_i hx
    rw [ByteMemory.write_of_le]
    have hsize := S.size_le
    unfold height at h hx
    bv_omega

end StackRegion

/-- Bytes that lie in memory. -/
def Holds (w : BitVec 64 → Option UInt8) (a : BitVec 64) (bytes : List UInt8) : Prop :=
  ∀ i (h : i < bytes.length), w (a + BitVec.ofNat 64 i) = some bytes[i]

theorem holds_append {w : BitVec 64 → Option UInt8} {a : BitVec 64} {xs ys : List UInt8} :
    Holds w a (xs ++ ys) ↔ Holds w a xs ∧ Holds w (a + BitVec.ofNat 64 xs.length) ys := by
  constructor
  · intro h
    refine ⟨fun i hi ↦ ?_, fun i hi ↦ ?_⟩
    · rw [h i (by rw [List.length_append]; omega), List.getElem_append_left hi]
    · have := h (xs.length + i) (by rw [List.length_append]; omega)
      rw [BitVec.ofNat_add, ← BitVec.add_assoc] at this
      rw [this, List.getElem_append_right (Nat.le_add_right _ _)]
      simp only [Nat.add_sub_cancel_left]
  · rintro ⟨hxs, hys⟩ i hi
    rw [List.length_append] at hi
    by_cases hlt : i < xs.length
    · rw [hxs i hlt, List.getElem_append_left hlt]
    · obtain ⟨k, rfl⟩ := Nat.exists_eq_add_of_le (Nat.le_of_not_lt hlt)
      rw [BitVec.ofNat_add, ← BitVec.add_assoc, hys k (by omega),
        List.getElem_append_right (Nat.le_add_right _ _)]
      simp only [Nat.add_sub_cancel_left]

/-- What lies outside of the stack is read from memory. -/
theorem read_of_holds {S : StackRegion} {m : ByteMemory} {a : BitVec 64} {bytes : List UInt8}
    (h : Holds (S.outside m) a bytes) : m.read a bytes.length = bytes := by
  refine List.ext_getElem (ByteMemory.length_read _ _ _) fun i hi hi' ↦ ?_
  have hbyte := h i hi'
  unfold StackRegion.outside at hbyte
  split at hbyte
  · cases hbyte
  · simpa only [ByteMemory.read, List.getElem_map, List.getElem_range] using Option.some.inj hbyte

end Foundation
