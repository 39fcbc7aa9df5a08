import Mathlib.Algebra.Group.Nat.Defs
import Mathlib.Data.Nat.Log
import Mathlib.Data.List.TakeWhile

/-!
# Texts of C

A string is the list of its characters before the terminator. These are the functions of the C
library that look for a character, print a number in hexadecimal and read one back.

## Reading back

A number is printed in as many digits as are asked for, or in all that it has, and it is read back
whenever something that is no digit follows. The base is 16 throughout, and an `unsigned long` has
64 bits.
-/

namespace Foundation

/-! ## Looking for a character

What is found begins with the character, and what stands before has it nowhere. -/

/-- `strchr`: the text from the first occurrence on. -/
def strchr (c : Char) : List Char → Option (List Char)
  | [] => none
  | a :: rest => if a = c then some (a :: rest) else strchr c rest

theorem strchr_append {c : Char} {front : List Char} (rest : List Char) (h : c ∉ front) :
    strchr c (front ++ c :: rest) = some (c :: rest) := by
  induction front with
  | nil => exact if_pos rfl
  | cons a front ih =>
    rw [List.mem_cons, not_or] at h
    rw [List.cons_append, strchr, if_neg (Ne.symm h.1), ih h.2]

theorem exists_of_strchr {c : Char} {text suffix : List Char} (h : strchr c text = some suffix) :
    ∃ front rest, text = front ++ suffix ∧ suffix = c :: rest ∧ c ∉ front := by
  induction text with
  | nil => exact nomatch h
  | cons a text ih =>
    rw [strchr] at h
    split_ifs at h with hc
    · obtain rfl := Option.some_inj.mp h
      exact ⟨[], text, rfl, by rw [hc], List.not_mem_nil⟩
    · obtain ⟨front, rest, rfl, hsuffix, hfront⟩ := ih h
      refine ⟨a :: front, rest, rfl, hsuffix, ?_⟩
      rw [List.mem_cons, not_or]
      exact ⟨Ne.symm hc, hfront⟩

theorem takeWhile_append {c : Char} {front : List Char} (rest : List Char) (h : c ∉ front) :
    (front ++ c :: rest).takeWhile (· ≠ c) = front := by
  have hfront : ∀ a ∈ front, decide (a ≠ c) = true := by
    intro a ha
    exact decide_eq_true fun hac ↦ h (hac ▸ ha)
  rw [List.takeWhile_append_of_pos hfront, List.takeWhile_cons_of_neg (by simp), List.append_nil]

/-- `snprintf` of a text: what a buffer of that size holds of it before the terminator. -/
def snprintf (size : ℕ) (text : List Char) : List Char := text.take (size - 1)

theorem snprintf_of_length_lt {size : ℕ} {text : List Char} (h : text.length < size) :
    snprintf size text = text :=
  List.take_of_length_le (by omega)

/-! ## Hexadecimal numbers

The digits of a number spell it, up to those that are left off. -/

def hexValue (c : Char) : Option ℕ :=
  if 48 ≤ c.toNat ∧ c.toNat ≤ 57 then some (c.toNat - 48)
  else if 97 ≤ c.toNat ∧ c.toNat ≤ 102 then some (c.toNat - 87)
  else if 65 ≤ c.toNat ∧ c.toNat ≤ 70 then some (c.toNat - 55)
  else none

/-- A condition on the characters of a text is decided on the text, not on every character. -/
instance (priority := 2000) decidableBAllChar (text : List Char) (p : Char → Prop)
    [DecidablePred p] : Decidable (∀ c ∈ text, p c) :=
  List.decidableBAll p text

/-- `isxdigit`. -/
def isHex (c : Char) : Bool := (hexValue c).isSome

def hexDigit (value : ℕ) : Char := "0123456789abcdef".toList.getD value '0'

def hexNumber (digits : List Char) : ℕ :=
  digits.foldl (fun n c ↦ 16 * n + (hexValue c).getD 0) 0

def hexDigits : ℕ → ℕ → List Char
  | 0, _ => []
  | width + 1, n => hexDigits width (n / 16) ++ [hexDigit (n % 16)]

/-- The conversion `%0wx`: at least that many digits, and all there are. -/
def printHex (width n : ℕ) : List Char := hexDigits (max width (Nat.log 16 n + 1)) n

theorem hexValue_hexDigit : ∀ value < 16, hexValue (hexDigit value) = some value := by decide

theorem isHex_hexDigit {value : ℕ} (h : value < 16) : isHex (hexDigit value) = true := by
  rw [isHex, hexValue_hexDigit value h, Option.isSome_some]

@[simp] theorem length_hexDigits (width n : ℕ) : (hexDigits width n).length = width := by
  induction width generalizing n with
  | zero => rfl
  | succ width ih => rw [hexDigits, List.length_append, ih, List.length_singleton]

theorem isHex_of_mem_hexDigits {width n : ℕ} {c : Char} (h : c ∈ hexDigits width n) :
    isHex c = true := by
  induction width generalizing n with
  | zero => exact absurd h List.not_mem_nil
  | succ width ih =>
    rw [hexDigits, List.mem_append, List.mem_singleton] at h
    rcases h with h | rfl
    · exact ih h
    · exact isHex_hexDigit (Nat.mod_lt n (by decide))

theorem hexNumber_append_digit (digits : List Char) {value : ℕ} (h : value < 16) :
    hexNumber (digits ++ [hexDigit value]) = 16 * hexNumber digits + value := by
  rw [hexNumber, List.foldl_append, List.foldl_cons, List.foldl_nil, ← hexNumber,
    hexValue_hexDigit value h, Option.getD_some]

theorem hexNumber_hexDigits (width n : ℕ) : hexNumber (hexDigits width n) = n % 16 ^ width := by
  induction width generalizing n with
  | zero => rw [Nat.pow_zero, Nat.mod_one, hexDigits, hexNumber, List.foldl_nil]
  | succ width ih =>
    rw [hexDigits, hexNumber_append_digit _ (Nat.mod_lt n (by decide)), ih, Nat.pow_succ',
      Nat.mod_mul, Nat.add_comm]

theorem printHex_of_lt {width n : ℕ} (hwidth : width ≠ 0) (h : n < 16 ^ width) :
    printHex width n = hexDigits width n := by
  have hlog : Nat.log 16 n < width := Nat.log_lt_of_lt_pow' hwidth h
  rw [printHex, max_eq_left hlog]

/-! ## Reading a number

Space, a sign and the mark of the base are skipped; digits have none of these in front. -/

/-- `isspace`, in the locale of C. -/
def isSpace (c : Char) : Bool := c.toNat = 32 || (9 ≤ c.toNat && c.toNat ≤ 13)

/-- Whether a minus sign stands first, and what follows the sign. -/
def readSign (text : List Char) : Bool × List Char :=
  if text.head? = some '-' then (true, text.tail)
  else if text.head? = some '+' then (false, text.tail)
  else (false, text)

/-- A text without the `0x` that stands before a digit. -/
def skipHexMark (text : List Char) : List Char :=
  if text[0]? = some '0' ∧ (text[1]? = some 'x' ∨ text[1]? = some 'X') ∧
      text[2]?.any isHex = true then text.drop 2
  else text

/-- `strtoul` to the base 16: the number, and the text from the first other character. -/
def strtoul (text : List Char) : ℕ × List Char :=
  let (negative, body) := readSign (text.dropWhile isSpace)
  let digits := (skipHexMark body).takeWhile isHex
  if digits = [] then (0, text)
  else
    let number := hexNumber digits
    (if 2 ^ 64 ≤ number then 2 ^ 64 - 1
      else if negative then (2 ^ 64 - number) % 2 ^ 64 else number,
      (skipHexMark body).dropWhile isHex)

theorem le_toNat_of_isHex {c : Char} (h : isHex c = true) : 48 ≤ c.toNat := by
  rw [isHex, hexValue] at h
  split_ifs at h <;> first | omega | exact absurd h Bool.false_ne_true

theorem isSpace_eq_false {c : Char} (h : isHex c = true) : isSpace c = false := by
  have hle := le_toNat_of_isHex h
  simp only [isSpace, Bool.or_eq_false_iff, Bool.and_eq_false_iff, decide_eq_false_iff_not]
  omega

theorem ne_of_isHex {c d : Char} (h : isHex c = true) (hd : isHex d = false) : c ≠ d := by
  rintro rfl
  exact Bool.false_ne_true (hd.symm.trans h)

theorem readSign_of_isHex {c : Char} (rest : List Char) (h : isHex c = true) :
    readSign (c :: rest) = (false, c :: rest) := by
  have hminus : (c :: rest).head? ≠ some '-' := by
    simpa using ne_of_isHex h (by decide)
  have hplus : (c :: rest).head? ≠ some '+' := by
    simpa using ne_of_isHex h (by decide)
  rw [readSign, if_neg hminus, if_neg hplus]

theorem skipHexMark_of_ne {a x : Char} (rest : List Char) (hx : x ≠ 'x') (hX : x ≠ 'X') :
    skipHexMark (a :: x :: rest) = a :: x :: rest := by
  rw [skipHexMark, if_neg]
  simp [hx, hX]

/-- **Reading digits back.** A number that some other character ends is read up to there. -/
theorem strtoul_append {digits : List Char} {stop : Char} (rest : List Char) (hne : digits ≠ [])
    (hdigits : ∀ c ∈ digits, isHex c = true) (hstop : isHex stop = false) (hx : stop ≠ 'x')
    (hX : stop ≠ 'X') (hsmall : hexNumber digits < 2 ^ 64) :
    strtoul (digits ++ stop :: rest) = (hexNumber digits, stop :: rest) := by
  obtain ⟨c, digits, rfl⟩ := List.exists_cons_of_ne_nil hne
  have hc : isHex c = true := hdigits c List.mem_cons_self
  have hmark : skipHexMark (c :: (digits ++ stop :: rest)) = c :: (digits ++ stop :: rest) := by
    cases digits with
    | nil => exact skipHexMark_of_ne rest hx hX
    | cons a digits =>
      have ha : isHex a = true := hdigits a (by simp)
      exact skipHexMark_of_ne _ (ne_of_isHex ha (by decide)) (ne_of_isHex ha (by decide))
  have htake : (c :: (digits ++ stop :: rest)).takeWhile isHex = c :: digits := by
    rw [← List.cons_append, List.takeWhile_append_of_pos hdigits, List.takeWhile_cons_of_neg
      (by rw [hstop]; exact Bool.false_ne_true), List.append_nil]
  have hdrop : (c :: (digits ++ stop :: rest)).dropWhile isHex = stop :: rest := by
    rw [← List.cons_append, List.dropWhile_append_of_pos hdigits, List.dropWhile_cons_of_neg
      (by rw [hstop]; exact Bool.false_ne_true)]
  rw [strtoul, List.cons_append, List.dropWhile_cons_of_neg (by rw [isSpace_eq_false hc]; decide),
    readSign_of_isHex _ hc]
  simp only [hmark, htake, hdrop]
  rw [if_neg (List.cons_ne_nil _ _), if_neg (by omega), if_neg Bool.false_ne_true]

end Foundation
