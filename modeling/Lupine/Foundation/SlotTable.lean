import Mathlib.Data.List.Perm.Basic
import Mathlib.Data.List.Nodup

/-!
# Flat tables with holes

A table of fixed size is an array of slots, each with a number for its key; zero marks a slot that
is free. A search goes through the slots from the front, an entry is written into the first free
slot, and taking an entry out marks its slot free and leaves a hole. As long as no key is taken
twice, the order of the slots and the holes between them do not matter: up to a permutation, the
slots that are taken are a list that grows and shrinks by one.

The searches are about the first slot with a key. Where a key is taken once, that slot is the only
one, and what a search finds is what the list of taken slots has.
-/

namespace Foundation

variable {α β : Type*} (key : α → ℕ)

def taken (slots : List α) : List α := slots.filter fun s ↦ key s ≠ 0

def findSlot (slots : List α) (k : ℕ) : Option α := slots.find? fun s ↦ key s = k

def changeSlot (slots : List α) (k : ℕ) (f : α → α) : List α :=
  slots.replaceF fun s ↦ if key s = k then some (f s) else none

def fillSlot (slots : List α) (x : α) : List α := changeSlot key slots 0 fun _ ↦ x

/-- An entry written into the first slot that is free, unless its key comes up before one. -/
def rememberSlot (slots : List α) (x : α) : List α :=
  slots.replaceF fun s ↦ if key s = key x then some s else if key s = 0 then some x else none

variable {key} {slots l l' : List α} {k : ℕ} {a x : α}

theorem mem_taken : a ∈ taken key slots ↔ a ∈ slots ∧ key a ≠ 0 := by
  rw [taken, List.mem_filter, decide_eq_true_iff]

theorem taken_append : taken key (l ++ l') = taken key l ++ taken key l' := List.filter_append ..

theorem taken_cons_of_ne (h : key a ≠ 0) : taken key (a :: l) = a :: taken key l :=
  List.filter_cons_of_pos (decide_eq_true h)

theorem taken_cons_of_eq (h : key a = 0) : taken key (a :: l) = taken key l :=
  List.filter_cons_of_neg (by rw [decide_eq_true_iff]; exact fun hne ↦ hne h)

theorem taken_replicate (n : ℕ) (h : key a = 0) : taken key (List.replicate n a) = [] := by
  rw [List.eq_nil_iff_forall_not_mem]
  intro b hb
  obtain ⟨hmem, hne⟩ := mem_taken.mp hb
  exact hne (List.eq_of_mem_replicate hmem ▸ h)

theorem findSlot_cons (a : α) (l : List α) (k : ℕ) :
    findSlot key (a :: l) k = if key a = k then some a else findSlot key l k := by
  rw [findSlot, List.find?_cons]
  by_cases h : key a = k <;> simp [h, findSlot]

theorem changeSlot_cons (a : α) (l : List α) (k : ℕ) (f : α → α) :
    changeSlot key (a :: l) k f = if key a = k then f a :: l else a :: changeSlot key l k f := by
  rw [changeSlot, List.replaceF_cons]
  by_cases h : key a = k <;> simp [h, changeSlot]

theorem rememberSlot_cons (a : α) (l : List α) (x : α) :
    rememberSlot key (a :: l) x
      = if key a = key x then a :: l
        else if key a = 0 then x :: l
        else a :: rememberSlot key l x := by
  rw [rememberSlot, List.replaceF_cons]
  split_ifs <;> rfl

theorem key_of_findSlot (h : findSlot key slots k = some a) : key a = k := by
  have hdecide := List.find?_some h
  rwa [decide_eq_true_iff] at hdecide

theorem mem_of_findSlot (h : findSlot key slots k = some a) : a ∈ slots :=
  List.mem_of_find?_eq_some h

theorem findSlot_eq_none : findSlot key slots k = none ↔ ∀ s ∈ slots, key s ≠ k := by
  rw [findSlot, List.find?_eq_none]
  simp only [decide_eq_true_iff]

theorem changeSlot_split (h : findSlot key slots k = some a) :
    ∃ l l', slots = l ++ a :: l' ∧ ∀ f, changeSlot key slots k f = l ++ f a :: l' := by
  induction slots with
  | nil => exact (nomatch h)
  | cons s slots ih =>
    by_cases hs : key s = k
    · rw [findSlot_cons, if_pos hs] at h
      obtain rfl := Option.some.inj h
      refine ⟨[], slots, rfl, fun f ↦ ?_⟩
      rw [changeSlot_cons, if_pos hs]
      rfl
    · rw [findSlot_cons, if_neg hs] at h
      obtain ⟨l, l', rfl, hchange⟩ := ih h
      refine ⟨s :: l, l', rfl, fun f ↦ ?_⟩
      rw [changeSlot_cons, if_neg hs, hchange]
      rfl

theorem changeSlot_of_none (f : α → α) (h : findSlot key slots k = none) :
    changeSlot key slots k f = slots :=
  List.replaceF_of_forall_none fun s hs ↦ if_neg (findSlot_eq_none.mp h s hs)

/-- An entry whose key is in no slot goes to the first free one. -/
theorem rememberSlot_of_fresh (h : ∀ s ∈ slots, key s ≠ key x) :
    rememberSlot key slots x = fillSlot key slots x := by
  induction slots with
  | nil => rfl
  | cons s slots ih =>
    have hs : key s ≠ key x := h s List.mem_cons_self
    have htail := ih fun t ht ↦ h t (List.mem_cons_of_mem _ ht)
    rw [rememberSlot_cons, if_neg hs, fillSlot, changeSlot_cons, htail, fillSlot]

/-! ## What is taken after a change

A change is located by the slot it is made in: the slots around it stay. -/

/-- **An entry is added** when there is a free slot. -/
theorem taken_fillSlot (hfree : findSlot key slots 0 = some a) (hx : key x ≠ 0) :
    (taken key (fillSlot key slots x)).Perm (x :: taken key slots) := by
  obtain ⟨l, l', rfl, hchange⟩ := changeSlot_split hfree
  rw [fillSlot, hchange, taken_append, taken_append, taken_cons_of_ne hx,
    taken_cons_of_eq (key_of_findSlot hfree)]
  exact List.perm_middle

/-- **An entry is taken out.** -/
theorem taken_changeSlot_clear {f : α → α} (hfind : findSlot key slots k = some a) (hk : k ≠ 0)
    (hf : key (f a) = 0) : (taken key slots).Perm (a :: taken key (changeSlot key slots k f)) := by
  have ha : key a ≠ 0 := by rwa [key_of_findSlot hfind]
  obtain ⟨l, l', rfl, hchange⟩ := changeSlot_split hfind
  rw [hchange, taken_append, taken_append, taken_cons_of_ne ha, taken_cons_of_eq hf]
  exact List.perm_middle

theorem taken_changeSlot_free {f : α → α} (hfind : findSlot key slots 0 = some a)
    (hf : key (f a) = 0) : taken key (changeSlot key slots 0 f) = taken key slots := by
  obtain ⟨l, l', rfl, hchange⟩ := changeSlot_split hfind
  rw [hchange, taken_append, taken_append, taken_cons_of_eq hf,
    taken_cons_of_eq (key_of_findSlot hfind)]

theorem map_taken_changeSlot {f : α → α} {view : α → β} (hfind : findSlot key slots k = some a)
    (hf : key (f a) = key a) (hview : view (f a) = view a) :
    (taken key (changeSlot key slots k f)).map view = (taken key slots).map view := by
  obtain ⟨l, l', rfl, hchange⟩ := changeSlot_split hfind
  rw [hchange, taken_append, taken_append, List.map_append, List.map_append]
  by_cases h0 : key a = 0
  · rw [taken_cons_of_eq h0, taken_cons_of_eq (hf.trans h0)]
  · rw [taken_cons_of_ne h0, taken_cons_of_ne (hf.trans_ne h0), List.map_cons, List.map_cons, hview]

/-! ## Keys that are taken once

Then taking an entry out leaves exactly what has another key. -/

theorem taken_changeSlot_perm_filter {f : α → α} (hnodup : ((taken key slots).map key).Nodup)
    (hf : ∀ a, key (f a) = 0) :
    (taken key (changeSlot key slots k f)).Perm ((taken key slots).filter fun s ↦ key s ≠ k) := by
  cases hfind : findSlot key slots k with
  | none =>
    rw [changeSlot_of_none f hfind, List.filter_eq_self.mpr]
    intro s hs
    exact decide_eq_true (findSlot_eq_none.mp hfind s (mem_taken.mp hs).1)
  | some a =>
    by_cases hk : k = 0
    · subst hk
      rw [taken_changeSlot_free hfind (hf a), List.filter_eq_self.mpr]
      intro s hs
      exact decide_eq_true (mem_taken.mp hs).2
    · have hperm := taken_changeSlot_clear hfind hk (hf a)
      have hkeys := (hperm.map key).nodup_iff.mp hnodup
      rw [List.map_cons, List.nodup_cons, key_of_findSlot hfind] at hkeys
      have hself : (taken key (changeSlot key slots k f)).filter (fun s ↦ key s ≠ k)
          = taken key (changeSlot key slots k f) := by
        refine List.filter_eq_self.mpr fun s hs ↦ decide_eq_true fun heq ↦ ?_
        exact hkeys.1 (List.mem_map.mpr ⟨s, hs, heq⟩)
      have hfilter := hperm.filter fun s ↦ key s ≠ k
      rw [List.filter_cons_of_neg (by simp [key_of_findSlot hfind]), hself] at hfilter
      exact hfilter.symm

/-- **A search finds what the table has**, when no key is taken twice. -/
theorem findSlot_eq_some_iff (hnodup : ((taken key slots).map key).Nodup) (hk : k ≠ 0) :
    findSlot key slots k = some a ↔ a ∈ taken key slots ∧ key a = k := by
  constructor
  · intro h
    have hkey := key_of_findSlot h
    exact ⟨mem_taken.mpr ⟨mem_of_findSlot h, by rwa [hkey]⟩, hkey⟩
  · rintro ⟨hmem, hkey⟩
    cases hfind : findSlot key slots k with
    | none => exact absurd hkey (findSlot_eq_none.mp hfind a (mem_taken.mp hmem).1)
    | some b =>
      have hb : key b = k := key_of_findSlot hfind
      have hbmem : b ∈ taken key slots := mem_taken.mpr ⟨mem_of_findSlot hfind, by rwa [hb]⟩
      exact congrArg some (List.inj_on_of_nodup_map hnodup hbmem hmem (hb.trans hkey.symm))

end Foundation
