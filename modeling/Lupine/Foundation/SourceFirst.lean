import Mathlib.Data.List.Basic
import Mathlib.Data.List.Perm.Basic
import Mathlib.Tactic.Common

/-!
# Sources first

Items of a list may each name another item as their source, which has to stand in front of them.
One pass over the list, by index, brings it there: where the source of the item at hand comes later,
it is taken out and put in at the index of the item, and the walk goes on over the list as it is
then. Nothing is looked at twice except the item that was pushed one place back.

Up to the index every item has its source in front of it. This is kept because what is brought
forward has itself no source; without that the pass may leave one item in front of its source.
-/

namespace Foundation

variable {α κ : Type}

/-! ## Items in their places

Placed is relative to the keys that are known already, so that a list can be taken apart anywhere.
An item without a source may be brought forward, as may be known more than is needed. -/

section Placed

variable {key : α → κ} {source : α → Option κ} {keys known known' : List κ} {l l' : List α}

/-- After what is known, every item has its source in front of it, where there is one. -/
def Placed (key : α → κ) (source : α → Option κ) (keys : List κ) : List κ → List α → Prop
  | _, [] => True
  | known, x :: l =>
    (∀ s, source x = some s → s ∈ keys → s ∈ known) ∧
      Placed key source keys (known ++ [key x]) l

theorem placed_append : Placed key source keys known (l ++ l') ↔
    Placed key source keys known l ∧ Placed key source keys (known ++ l.map key) l' := by
  induction l generalizing known with
  | nil => rw [List.nil_append, List.map_nil, List.append_nil, Placed, true_and]
  | cons x l ih =>
    rw [List.cons_append, Placed, Placed, ih, List.map_cons, List.append_assoc,
      List.singleton_append, and_assoc]

theorem Placed.concat {y : α} (h : Placed key source keys [] l)
    (hy : ∀ s, source y = some s → s ∈ keys → s ∈ l.map key) :
    Placed key source keys [] (l ++ [y]) := placed_append.mpr ⟨h, hy, trivial⟩

theorem Placed.congr {keys' : List κ} (h : Placed key source keys known l)
    (hkeys : ∀ s, s ∈ keys' → s ∈ keys) : Placed key source keys' known l := by
  induction l generalizing known with
  | nil => trivial
  | cons x l ih => exact ⟨fun s hs hmem ↦ h.1 s hs (hkeys s hmem), ih h.2⟩

theorem Placed.mono (h : Placed key source keys known l) (hknown : known ⊆ known') :
    Placed key source keys known' l := by
  induction l generalizing known known' with
  | nil => trivial
  | cons x l ih =>
    have hnext : known ++ [key x] ⊆ known' ++ [key x] :=
      List.append_subset.mpr ⟨List.subset_append_of_subset_left _ hknown,
        List.subset_append_right _ _⟩
    exact ⟨fun s hs hmem ↦ hknown (h.1 s hs hmem), ih h.2 hnext⟩

/-- An item that has no source may be brought forward. -/
theorem Placed.forward {mid post : List α} {x y : α} (hy : source y = none)
    (h : Placed key source keys known (l ++ x :: (mid ++ y :: post))) :
    Placed key source keys known (l ++ y :: x :: (mid ++ post)) := by
  obtain ⟨hl, hrest⟩ := placed_append.mp h
  rw [← List.cons_append] at hrest
  obtain ⟨hmid, hpost⟩ := placed_append.mp hrest
  refine placed_append.mpr ⟨hl, fun s hs ↦ absurd (hy.symm.trans hs) (by simp), ?_⟩
  rw [← List.cons_append]
  refine placed_append.mpr ⟨hmid.mono (List.subset_append_left _ _), hpost.2.mono ?_⟩
  intro k hk
  simp only [List.mem_append, List.mem_singleton] at hk ⊢
  tauto

/-- Nothing that is a source has one. -/
def SourcesPlain (key : α → κ) (source : α → Option κ) (l : List α) : Prop :=
  ∀ x ∈ l, ∀ s, source x = some s → ∀ y ∈ l, key y = s → source y = none

theorem SourcesPlain.perm {l l' : List α} (h : SourcesPlain key source l) (hperm : l'.Perm l) :
    SourcesPlain key source l' :=
  fun x hx s hs y hy hkey ↦ h x (hperm.mem_iff.mp hx) s hs y (hperm.mem_iff.mp hy) hkey

theorem exists_first_of_mem_map {s : κ} {l : List α} (h : s ∈ l.map key) :
    ∃ mid y post, l = mid ++ y :: post ∧ s ∉ mid.map key ∧ key y = s := by
  obtain ⟨keys, keys', heq, hnot⟩ := List.eq_append_cons_of_mem h
  obtain ⟨mid, l', rfl, rfl, hl'⟩ := List.map_eq_append_iff.mp heq
  obtain ⟨y, post, rfl, hy, -⟩ := List.map_eq_cons_iff.mp hl'
  exact ⟨mid, y, post, rfl, hnot, hy⟩

end Placed

/-! ## The pass

A turn moves at most one item, so a pass is a permutation of the list. -/

/-- The item at one index is taken out and put in at another. -/
def moveItem (l : List α) (i j : ℕ) : List α :=
  match l[j]? with
  | none => l
  | some y => (l.eraseIdx j).insertIdx i y

variable [DecidableEq κ] (key : α → κ) (source : α → Option κ)

def sourceTurn (l : List α) (i : ℕ) : List α :=
  match l[i]?.bind source with
  | none => l
  | some s =>
    match l.findIdx? fun y ↦ key y = s with
    | none => l
    | some j => if i < j then moveItem l i j else l

def sourcesFirst (l : List α) : List α :=
  (List.range l.length).foldl (sourceTurn key source) l

theorem moveItem_perm {l : List α} {i j : ℕ} (h : i < j) : (moveItem l i j).Perm l := by
  rw [moveItem]
  rcases Nat.lt_or_ge j l.length with hj | hj
  · rw [List.getElem?_eq_getElem hj]
    have hle : i ≤ (l.eraseIdx j).length := by
      rw [List.length_eraseIdx_of_lt hj]
      omega
    exact (List.perm_insertIdx _ _ hle).trans (List.getElem_cons_eraseIdx_perm hj)
  · rw [List.getElem?_eq_none hj]

theorem sourceTurn_perm (l : List α) (i : ℕ) : (sourceTurn key source l i).Perm l := by
  rw [sourceTurn]
  split
  · rfl
  · split
    · rfl
    · split_ifs with h
      · exact moveItem_perm h
      · rfl

theorem foldl_sourceTurn_perm (indices : List ℕ) (l : List α) :
    (indices.foldl (sourceTurn key source) l).Perm l := by
  induction indices generalizing l with
  | nil => rfl
  | cons i indices ih => exact (ih _).trans (sourceTurn_perm key source l i)

theorem sourcesFirst_perm (l : List α) : (sourcesFirst key source l).Perm l :=
  foldl_sourceTurn_perm key source _ l

/-! ## One turn

An item stays where it is if it has no source, if its source was walked over, or if its source is
nowhere in the list. Otherwise the first item of that key is brought in front of it. -/

variable {key source}

theorem insertIdx_append_length (l l' : List α) (y : α) :
    (l ++ l').insertIdx l.length y = l ++ y :: l' := by
  induction l with
  | nil => exact List.insertIdx_zero
  | cons x l ih =>
    rw [List.cons_append, List.length_cons, List.insertIdx_succ_cons, ih]
    rfl

theorem moveItem_append (done mid post : List α) (x y : α) :
    moveItem (done ++ x :: (mid ++ y :: post)) done.length (done.length + 1 + mid.length)
      = done ++ y :: x :: (mid ++ post) := by
  have hsplit : done ++ x :: (mid ++ y :: post) = (done ++ x :: mid) ++ y :: post := by simp
  have hlen : done.length + 1 + mid.length = (done ++ x :: mid).length := by
    rw [List.length_append, List.length_cons]
    omega
  have herase : ((done ++ x :: mid) ++ y :: post).eraseIdx (done ++ x :: mid).length
      = done ++ x :: (mid ++ post) := by
    rw [List.eraseIdx_append_of_length_le (Nat.le_refl _), Nat.sub_self, List.eraseIdx_cons_zero]
    simp
  have hget : ((done ++ x :: mid) ++ y :: post)[(done ++ x :: mid).length]? = some y := by
    rw [List.getElem?_append_right (Nat.le_refl _), Nat.sub_self, List.getElem?_cons_zero]
  rw [moveItem, hsplit, hlen, hget]
  dsimp only
  rw [herase, insertIdx_append_length]

theorem getElem?_append_length (l l' : List α) (x : α) : (l ++ x :: l')[l.length]? = some x := by
  rw [List.getElem?_append_right (Nat.le_refl _), Nat.sub_self, List.getElem?_cons_zero]

theorem sourceTurn_of_mem {done todo : List α} {x : α}
    (h : ∀ s, source x = some s → s ∈ done.map key) :
    sourceTurn key source (done ++ x :: todo) done.length = done ++ x :: todo := by
  rw [sourceTurn, getElem?_append_length, Option.bind_some]
  rcases hs : source x with _ | s
  · rfl
  · obtain ⟨y, hy, hkey⟩ := List.mem_map.mp (h s hs)
    have hfound := List.findIdx?_eq_some_of_exists (p := fun y ↦ decide (key y = s))
      ⟨y, hy, decide_eq_true hkey⟩
    have hlt : List.findIdx (fun y ↦ decide (key y = s)) done < done.length :=
      List.findIdx_lt_length_of_exists ⟨y, hy, decide_eq_true hkey⟩
    dsimp only
    rw [List.findIdx?_append, hfound]
    exact if_neg (by omega)

theorem sourceTurn_of_not_mem {l : List α} {i : ℕ}
    (h : ∀ s, l[i]?.bind source = some s → s ∉ l.map key) : sourceTurn key source l i = l := by
  rw [sourceTurn]
  rcases hs : l[i]?.bind source with _ | s
  · rfl
  · have hnone : l.findIdx? (fun y ↦ decide (key y = s)) = none :=
      List.findIdx?_eq_none_iff.mpr fun y hy ↦
        decide_eq_false fun hkey ↦ h s hs (hkey ▸ List.mem_map_of_mem hy)
    dsimp only
    rw [hnone]

theorem sourceTurn_of_later {done mid post : List α} {x y : α} {s : κ} (hx : source x = some s)
    (hdone : s ∉ done.map key) (hself : key x ≠ s) (hmid : s ∉ mid.map key) (hy : key y = s) :
    sourceTurn key source (done ++ x :: (mid ++ y :: post)) done.length
      = done ++ y :: x :: (mid ++ post) := by
  have hfound : (done ++ x :: (mid ++ y :: post)).findIdx? (fun y ↦ decide (key y = s))
      = some (done.length + 1 + mid.length) := by
    have hnot : ∀ {l : List α}, s ∉ l.map key → l.findIdx? (fun y ↦ decide (key y = s)) = none :=
      fun hl ↦ List.findIdx?_eq_none_iff.mpr fun z hz ↦
        decide_eq_false fun hkey ↦ hl (hkey ▸ List.mem_map_of_mem hz)
    rw [List.findIdx?_append, hnot hdone, List.findIdx?_cons, decide_eq_false hself,
      List.findIdx?_append, hnot hmid, List.findIdx?_cons, decide_eq_true hy]
    simp only [Option.none_or, Bool.false_eq_true, if_false, if_true, Option.map_some, Nat.zero_add]
    exact congrArg some (by omega)
  rw [sourceTurn, getElem?_append_length, Option.bind_some, hx]
  dsimp only
  rw [hfound]
  dsimp only
  rw [if_pos (by omega), moveItem_append]

/-- One turn either leaves the list as it is, the item being in its place, or brings its source in
front of it. -/
theorem sourceTurn_cases {done todo : List α} {x : α}
    (hplain : SourcesPlain key source (done ++ x :: todo)) :
    (sourceTurn key source (done ++ x :: todo) done.length = done ++ x :: todo ∧
      ∀ s, source x = some s → s ∈ (done ++ x :: todo).map key → s ∈ done.map key) ∨
    ∃ mid y post, todo = mid ++ y :: post ∧ source x = some (key y) ∧
      sourceTurn key source (done ++ x :: todo) done.length = done ++ y :: x :: (mid ++ post) := by
  by_cases hmem : ∀ s, source x = some s → s ∈ done.map key
  · exact .inl ⟨sourceTurn_of_mem hmem, fun s hs _ ↦ hmem s hs⟩
  push Not at hmem
  obtain ⟨s, hx, hdone⟩ := hmem
  by_cases hs : s ∈ (done ++ x :: todo).map key
  · have hxmem : x ∈ done ++ x :: todo := List.mem_append_right _ List.mem_cons_self
    -- the item is not its own source
    have hself : key x ≠ s := fun hkey ↦ by
      have hnone := hplain x hxmem s hx x hxmem hkey
      rw [hx] at hnone
      exact absurd hnone (by simp)
    have htodo : s ∈ todo.map key := by
      rw [List.map_append, List.mem_append, List.map_cons, List.mem_cons] at hs
      rcases hs with hs | hs | hs
      · exact absurd hs hdone
      · exact absurd hs.symm hself
      · exact hs
    obtain ⟨mid, y, post, rfl, hmid, hy⟩ := exists_first_of_mem_map htodo
    exact .inr ⟨mid, y, post, rfl, hy ▸ hx, sourceTurn_of_later hx hdone hself hmid hy⟩
  · refine .inl ⟨sourceTurn_of_not_mem fun s' hs' ↦ ?_, fun s' hs' hmem ↦ ?_⟩
    · rw [getElem?_append_length, Option.bind_some, hx] at hs'
      exact Option.some.inj hs' ▸ hs
    · rw [hx] at hs'
      exact absurd (Option.some.inj hs' ▸ hmem) hs

/-! ## The walk

The walk goes on over the list as it is by then. What it brings forward has no source, which keeps
what was placed in its place, and also the places that another kind of source asks for. -/

/-- **One turn of the walk.** One more item has its place. -/
theorem sourceTurn_placed {done todo : List α} {x : α}
    (hplain : SourcesPlain key source (done ++ x :: todo))
    (h : Placed key source ((done ++ x :: todo).map key) [] done) :
    ∃ y todo', sourceTurn key source (done ++ x :: todo) done.length = done ++ y :: todo' ∧
      Placed key source ((done ++ x :: todo).map key) [] (done ++ [y]) := by
  rcases sourceTurn_cases hplain with ⟨heq, hplaced⟩ | ⟨mid, y, post, rfl, hx, heq⟩
  · exact ⟨x, todo, heq, h.concat hplaced⟩
  · refine ⟨y, x :: (mid ++ post), heq, h.concat fun s hs _ ↦ ?_⟩
    rw [hplain x (by simp) (key y) hx y (by simp) rfl] at hs
    exact absurd hs (by simp)

/-- What is brought forward leaves the places that another kind of source asks for, where it has
no such source itself. -/
theorem sourceTurn_keeps {other : α → Option κ} {l : List α} {keys : List κ}
    (hplain : SourcesPlain key source l)
    (hother : ∀ x ∈ l, ∀ y ∈ l, source x = some (key y) → other y = none)
    (h : Placed key other keys [] l) (i : ℕ) :
    Placed key other keys [] (sourceTurn key source l i) := by
  rcases Nat.lt_or_ge i l.length with hi | hi
  · obtain ⟨done, x, todo, rfl, rfl⟩ : ∃ done x todo, l = done ++ x :: todo ∧ done.length = i :=
      ⟨l.take i, l[i], l.drop (i + 1), by simp, by simp [Nat.le_of_lt hi]⟩
    rcases sourceTurn_cases hplain with ⟨heq, -⟩ | ⟨mid, y, post, rfl, hx, heq⟩
    · rwa [heq]
    · rw [heq]
      exact h.forward (hother x (by simp) y (by simp) hx)
  · rw [sourceTurn, List.getElem?_eq_none hi]
    exact h

theorem foldl_sourceTurn_placed (done todo : List α)
    (hplain : SourcesPlain key source (done ++ todo))
    (h : Placed key source ((done ++ todo).map key) [] done) :
    Placed key source ((done ++ todo).map key) []
      ((List.range' done.length todo.length).foldl (sourceTurn key source) (done ++ todo)) := by
  induction hn : todo.length generalizing done todo with
  | zero =>
    obtain rfl := List.length_eq_zero_iff.mp hn
    rw [List.append_nil] at h ⊢
    exact h
  | succ n ih =>
    obtain ⟨x, todo, rfl⟩ := List.exists_cons_of_length_eq_add_one hn
    obtain ⟨y, todo', heq, hplaced⟩ := sourceTurn_placed hplain h
    have hperm : (done ++ [y] ++ todo').Perm (done ++ x :: todo) := by
      rw [List.append_assoc, List.singleton_append, ← heq]
      exact sourceTurn_perm key source _ _
    have hkeys : ∀ s, s ∈ (done ++ [y] ++ todo').map key ↔ s ∈ (done ++ x :: todo).map key :=
      fun s ↦ (hperm.map key).mem_iff
    have hlength : todo'.length = n := by
      have hlen := hperm.length_eq
      simp only [List.length_append, List.length_cons, List.length_nil] at hlen hn
      omega
    have hrest := ih (done ++ [y]) todo' (hplain.perm hperm)
      (hplaced.congr fun s ↦ (hkeys s).mp) hlength
    rw [List.range'_succ, List.foldl_cons, heq]
    rw [List.length_append, List.length_singleton, List.append_assoc, List.singleton_append]
      at hrest
    exact hrest.congr fun s hs ↦ by simpa using (hkeys s).mpr hs

/-- **Sources first.** Every item has its source in front of it, where the list has one. -/
theorem sourcesFirst_placed {l : List α} (hplain : SourcesPlain key source l) :
    Placed key source (l.map key) [] (sourcesFirst key source l) := by
  have h := foldl_sourceTurn_placed [] l hplain trivial
  rwa [List.length_nil, ← List.range_eq_range', List.nil_append] at h

theorem sourcesFirst_keeps {other : α → Option κ} {l : List α} {keys : List κ}
    (hplain : SourcesPlain key source l)
    (hother : ∀ x ∈ l, ∀ y ∈ l, source x = some (key y) → other y = none)
    (h : Placed key other keys [] l) : Placed key other keys [] (sourcesFirst key source l) := by
  rw [sourcesFirst]
  generalize List.range l.length = indices
  induction indices generalizing l with
  | nil => exact h
  | cons i indices ih =>
    have hperm := sourceTurn_perm key source l i
    exact ih (hplain.perm hperm)
      (fun x hx y hy ↦ hother x (hperm.mem_iff.mp hx) y (hperm.mem_iff.mp hy))
      (sourceTurn_keeps hplain hother h i)

end Foundation
