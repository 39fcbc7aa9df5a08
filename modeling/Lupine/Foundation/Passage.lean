import Mathlib.Data.List.Infix

/-!
# First in, first out

Items arrive at a place where they may have to wait, and leave it again. Nothing is lost, doubled or
overtaken if what waited and what arrived is what left and what waits now. That is said of a single
act by an equation, and the equations of acts in a row are one equation.

Where the items that leave are put, they fill a buffer from its front.
-/

namespace Foundation

variable {α : Type*}

/-- Where `waiting` was, `arrived` has come in behind and `left` has gone out in front, and
`waiting'` is there now. -/
def Passes (waiting arrived left waiting' : List α) : Prop := waiting ++ arrived = left ++ waiting'

namespace Passes

variable {p q r a b x y : List α}

theorem refl (p : List α) : Passes p [] [] p := List.append_nil p

theorem arrive (p a : List α) : Passes p a [] (p ++ a) := rfl

theorem leave (x q : List α) : Passes (x ++ q) [] x q := List.append_nil _

/-- Where nothing waits, what arrives may leave at once. -/
theorem straight (a : List α) (n : ℕ) : Passes [] a (a.take n) (a.drop n) :=
  (List.take_append_drop n a).symm

theorem trans (h : Passes p a x q) (h' : Passes q b y r) : Passes p (a ++ b) (x ++ y) r := by
  unfold Passes at *
  rw [← List.append_assoc, h, List.append_assoc, h', List.append_assoc]

end Passes

/-! ## Filling a buffer -/

def store (buffer : List α) (offset : ℕ) (items : List α) : List α :=
  buffer.take offset ++ items ++ buffer.drop (offset + items.length)

/-- The front of the buffer holds the items, and behind them it is as it was. -/
def Filled (before items buffer : List α) : Prop := buffer = items ++ before.drop items.length

variable {before items buffer : List α}

theorem filled_nil (before : List α) : Filled before [] before := rfl

theorem Filled.store (h : Filled before items buffer) (more : List α) :
    Filled before (items ++ more) (store buffer items.length more) := by
  unfold Filled at *
  have hdrop : buffer.drop (items.length + more.length) =
      before.drop (items.length + more.length) := by
    rw [h, ← List.drop_drop, List.drop_left, List.drop_drop]
  rw [Foundation.store, hdrop, List.length_append, h, List.take_left]

theorem Filled.take_eq (h : Filled before items buffer) : buffer.take items.length = items := by
  rw [h, List.take_left]

end Foundation
