import Mathlib.Data.List.Basic
import Mathlib.Order.Lattice

/-!
# Pipes

What is written to a pipe arrives in pieces, and where it is cut is not for the reader or the writer
to say: a read returns some of what is asked for, a write takes some of what is offered. Loops that
go on until everything is read or written do not depend on the pieces.
-/

namespace Foundation

variable {α : Type*}

/-- A read of so many items at most: some of the next piece, and nothing only at the end. -/
def readSome (n : ℕ) : List (List α) → List α × List (List α)
  | [] => ([], [])
  | [] :: pieces => readSome n pieces
  | (a :: piece) :: pieces => ((a :: piece).take n, (a :: piece).drop n :: pieces)

/-- Reads until so many items are there, with a bound for each read. -/
def readLoop (limit : ℕ) : ℕ → ℕ → List (List α) → Option (List α) × List (List α)
  | _, 0, pieces => (some [], pieces)
  | 0, _ + 1, pieces => (none, pieces)
  | fuel + 1, remaining + 1, pieces =>
    match readSome (min (remaining + 1) limit) pieces with
    | ([], pieces) => (none, pieces)
    | (a :: got, pieces) =>
      match readLoop limit fuel (remaining - got.length) pieces with
      | (some more, pieces) => (some (a :: got ++ more), pieces)
      | (none, pieces) => (none, pieces)

/-- Every read returns an item, so there are no more reads than items. -/
def readFull (limit size : ℕ) (pieces : List (List α)) : Option (List α) × List (List α) :=
  readLoop limit size size pieces

/-- What a read returns and what it leaves are what was there. -/
theorem readSome_append (n : ℕ) (pieces : List (List α)) :
    (readSome n pieces).1 ++ (readSome n pieces).2.flatten = pieces.flatten := by
  induction pieces with
  | nil => rfl
  | cons piece pieces ih =>
    rcases piece with - | ⟨a, piece⟩
    · exact ih
    · rw [readSome, List.flatten_cons, ← List.append_assoc, List.take_append_drop,
        List.flatten_cons]

theorem length_readSome_le (n : ℕ) (pieces : List (List α)) :
    (readSome n pieces).1.length ≤ n := by
  induction pieces with
  | nil => exact Nat.zero_le n
  | cons piece pieces ih =>
    rcases piece with - | ⟨a, piece⟩
    · exact ih
    · exact List.length_take_le _ _

theorem readSome_ne_nil {n : ℕ} {pieces : List (List α)} (hn : 0 < n) (h : pieces.flatten ≠ []) :
    (readSome n pieces).1 ≠ [] := by
  induction pieces with
  | nil => exact absurd rfl h
  | cons piece pieces ih =>
    rcases piece with - | ⟨a, piece⟩
    · exact ih h
    · obtain ⟨m, rfl⟩ := Nat.exists_eq_succ_of_ne_zero hn.ne'
      exact List.cons_ne_nil _ _

theorem readSome_one {pieces : List (List α)} {a : α} {items : List α}
    (h : pieces.flatten = a :: items) :
    ∃ rest, readSome 1 pieces = ([a], rest) ∧ rest.flatten = items := by
  have hne := readSome_ne_nil Nat.one_pos (h ▸ List.cons_ne_nil a items)
  have hle := length_readSome_le 1 pieces
  have happend := readSome_append 1 pieces
  rcases hread : readSome 1 pieces with ⟨- | ⟨b, - | ⟨c, got⟩⟩, rest⟩
  · exact absurd (congrArg Prod.fst hread) hne
  · rw [hread, h] at happend
    obtain ⟨rfl, hrest⟩ := List.cons.inj happend
    exact ⟨rest, rfl, hrest⟩
  · rw [hread] at hle
    exact absurd hle (by rw [List.length_cons, List.length_cons]; omega)

/-- **Reading does not depend on the pieces.** If there is enough, what is read is the front. -/
theorem readLoop_of_le {limit : ℕ} (hlimit : 0 < limit) {fuel size : ℕ} (hfuel : size ≤ fuel)
    {pieces : List (List α)} (hsize : size ≤ pieces.flatten.length) :
    ∃ rest, readLoop limit fuel size pieces = (some (pieces.flatten.take size), rest) ∧
      rest.flatten = pieces.flatten.drop size := by
  induction fuel generalizing size pieces with
  | zero =>
    obtain rfl : size = 0 := Nat.le_zero.mp hfuel
    exact ⟨pieces, rfl, rfl⟩
  | succ fuel ih =>
    rcases size with - | remaining
    · exact ⟨pieces, rfl, rfl⟩
    have hne : pieces.flatten ≠ [] := List.ne_nil_of_length_pos (Nat.zero_lt_of_lt hsize)
    have hmin : 0 < min (remaining + 1) limit := lt_min (Nat.succ_pos _) hlimit
    have hsome := readSome_ne_nil hmin hne
    have hle := length_readSome_le (min (remaining + 1) limit) pieces
    have happend := readSome_append (min (remaining + 1) limit) pieces
    rcases hread : readSome (min (remaining + 1) limit) pieces with ⟨- | ⟨a, got⟩, pieces'⟩
    · exact absurd (congrArg Prod.fst hread) hsome
    rw [hread] at hle happend
    simp only [List.length_cons] at hle happend
    have hgot : got.length ≤ remaining :=
      Nat.succ_le_succ_iff.mp (hle.trans (Nat.min_le_left _ _))
    have hrest : remaining - got.length ≤ pieces'.flatten.length := by
      have hlength := congrArg List.length happend
      rw [List.length_append, List.length_cons] at hlength
      omega
    obtain ⟨rest, hloop, hflat⟩ := ih (by omega : remaining - got.length ≤ fuel) hrest
    have hfront : pieces.flatten = a :: (got ++ pieces'.flatten) := happend.symm
    refine ⟨rest, ?_, ?_⟩
    · rw [readLoop, hread]
      simp only [hloop]
      rw [hfront, List.take_succ_cons, List.take_append, List.take_of_length_le hgot]
      rfl
    · rw [hflat, hfront, List.drop_succ_cons, List.drop_append, List.drop_of_length_le hgot,
        List.nil_append]

theorem readFull_of_le {limit size : ℕ} (hlimit : 0 < limit) {pieces : List (List α)}
    (hsize : size ≤ pieces.flatten.length) :
    ∃ rest, readFull limit size pieces = (some (pieces.flatten.take size), rest) ∧
      rest.flatten = pieces.flatten.drop size :=
  readLoop_of_le hlimit le_rfl hsize

theorem readFull_append {limit : ℕ} {front back : List α} (hlimit : 0 < limit ∨ front = [])
    {pieces : List (List α)} (hpieces : pieces.flatten = front ++ back) :
    ∃ rest, readFull limit front.length pieces = (some front, rest) ∧ rest.flatten = back := by
  rcases hlimit with hlimit | rfl
  · have hsize : front.length ≤ pieces.flatten.length := by
      rw [hpieces, List.length_append]
      exact Nat.le_add_right _ _
    obtain ⟨rest, hread, hrest⟩ := readFull_of_le hlimit hsize
    refine ⟨rest, ?_, ?_⟩
    · rw [hread, hpieces, List.take_left]
    · rw [hrest, hpieces, List.drop_left]
  · exact ⟨pieces, rfl, hpieces⟩

/-- What is in a pipe, cut into pieces of these sizes. -/
def cut : List ℕ → List α → List (List α)
  | [], items => [items]
  | n :: sizes, items => items.take n :: cut sizes (items.drop n)

theorem flatten_cut (sizes : List ℕ) (items : List α) : (cut sizes items).flatten = items := by
  induction sizes generalizing items with
  | nil => exact List.append_nil items
  | cons n sizes ih => rw [cut, List.flatten_cons, ih, List.take_append_drop]

/-! ## Writing

The list says what the next writes take. A writer that goes on until nothing is left has written all
of it. -/

/-- Writes until everything is taken, with what the writes take; when the list ends, the next write
takes the rest. A write that takes nothing is a failure. -/
def writeAll : List ℕ → List α → Option (List α)
  | _, [] => some []
  | [], data => some data
  | n :: accepted, a :: data =>
    if n = 0 then none
    else (writeAll accepted ((a :: data).drop n)).map fun more ↦ (a :: data).take n ++ more

/-- **Writing does not depend on the pieces.** -/
theorem writeAll_eq {accepted : List ℕ} {data written : List α}
    (h : writeAll accepted data = some written) : written = data := by
  induction accepted generalizing data written with
  | nil =>
    rcases data with - | ⟨a, data⟩
    · exact (Option.some.inj h).symm
    · exact (Option.some.inj h).symm
  | cons n accepted ih =>
    rcases data with - | ⟨a, data⟩
    · exact (Option.some.inj h).symm
    · rw [writeAll] at h
      split_ifs at h
      obtain ⟨more, hmore, rfl⟩ := Option.map_eq_some_iff.mp h
      rw [ih hmore, List.take_append_drop]

end Foundation
