import Mathlib.Data.List.Basic
import Mathlib.Tactic.Ring

/-!
# Fixed-width little-endian words

A wire format that sends C integers sends their object representation, which on the supported
machines is little-endian. A word of `w` bytes is therefore a list of exactly `w` bytes, least
significant first, and reading it back is exact below `256 ^ w`.
-/

namespace Foundation

/-- The `w` low bytes of `n`, least significant first. -/
def leBytes : ℕ → ℕ → List UInt8
  | 0, _ => []
  | w + 1, n => UInt8.ofNat n :: leBytes w (n / 256)

/-- The number whose bytes, least significant first, are given. -/
def leValue : List UInt8 → ℕ
  | [] => 0
  | b :: bs => b.toNat + 256 * leValue bs

@[simp] theorem length_leBytes (w n : ℕ) : (leBytes w n).length = w := by
  induction w generalizing n with
  | zero => rfl
  | succ w ih => rw [leBytes, List.length_cons, ih]

theorem leValue_leBytes_mod (w n : ℕ) : leValue (leBytes w n) = n % 256 ^ w := by
  induction w generalizing n with
  | zero => rw [leBytes, leValue, pow_zero, Nat.mod_one]
  | succ w ih =>
    rw [leBytes, leValue, ih, pow_succ', Nat.mod_mul]
    rfl

/-- Words below `256 ^ w` survive the trip. -/
theorem leValue_leBytes {w n : ℕ} (h : n < 256 ^ w) : leValue (leBytes w n) = n := by
  rw [leValue_leBytes_mod, Nat.mod_eq_of_lt h]

theorem leBytes_leValue (bytes : List UInt8) : leBytes bytes.length (leValue bytes) = bytes := by
  induction bytes with
  | nil => rfl
  | cons b bs ih =>
    have hrest : (b.toNat + 256 * leValue bs) / 256 = leValue bs := by
      have hb := b.toNat_lt
      omega
    have hfirst : UInt8.ofNat (b.toNat + 256 * leValue bs) = b := by
      rw [← UInt8.toNat_inj, UInt8.toNat_ofNat', Nat.add_mul_mod_self_left]
      exact Nat.mod_eq_of_lt b.toNat_lt
    rw [List.length_cons, leValue, leBytes, hrest, ih, hfirst]

theorem leValue_lt (bytes : List UInt8) : leValue bytes < 256 ^ bytes.length := by
  induction bytes with
  | nil => exact Nat.one_pos
  | cons b bs ih =>
    rw [leValue, List.length_cons, pow_succ']
    have hb := b.toNat_lt
    omega

/-! ## Arrays of words

An array is its words one after the other, and can be read back word by word. -/

/-- An array of `n` words of `w` bytes, as it stands in memory. -/
def leWords (w : ℕ) : ℕ → List UInt8 → List ℕ
  | 0, _ => []
  | n + 1, bytes => leValue (bytes.take w) :: leWords w n (bytes.drop w)

theorem length_flatMap_leBytes (w : ℕ) (words : List ℕ) :
    (words.flatMap (leBytes w)).length = words.length * w := by
  induction words with
  | nil => rw [List.flatMap_nil, List.length_nil, List.length_nil, Nat.zero_mul]
  | cons n words ih =>
    rw [List.flatMap_cons, List.length_append, ih, length_leBytes, List.length_cons, Nat.succ_mul,
      Nat.add_comm]

theorem leWords_flatMap_leBytes {w : ℕ} {words : List ℕ} (h : ∀ n ∈ words, n < 256 ^ w) :
    leWords w words.length (words.flatMap (leBytes w)) = words := by
  induction words with
  | nil => rfl
  | cons n words ih =>
    obtain ⟨hn, hwords⟩ := List.forall_mem_cons.mp h
    rw [List.length_cons, leWords, List.flatMap_cons, List.take_left' (length_leBytes w n),
      List.drop_left' (length_leBytes w n), leValue_leBytes hn, ih hwords]

end Foundation
