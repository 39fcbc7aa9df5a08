import Mathlib.Data.List.AList
import Mathlib.Logic.Function.Basic

/-!
# Caches

A cache keeps answers of something that may change, its source. It is coherent while each answer it
keeps, under a key that is looked up at all, is the one that the source would give now. A lookup
that asks the source only where nothing is kept then never differs from one that always asks.

The keys that are looked up are a condition of their own, because a source may have answers that
nobody asks for, and an entry under a key that is not looked up does no harm.
-/

namespace Foundation

variable {κ ν : Type*} [DecidableEq κ]

/-- Answers that are kept, by their keys. -/
abbrev Cache (κ ν : Type*) : Type _ := AList fun _ : κ ↦ ν

namespace Cache

/-- What is kept under the keys that are looked up is what the source would answer. -/
def Coherent (live : κ → Prop) (source : κ → Option ν) (cache : Cache κ ν) : Prop :=
  ∀ key value, live key → cache.lookup key = some value → source key = some value

/-- A lookup: the answer that is kept, or that of the source, which is kept from then on. A source
that has no answer leaves the cache as it is. -/
def readThrough (cache : Cache κ ν) (key : κ) (actual : Option ν) : Option ν × Cache κ ν :=
  match cache.lookup key with
  | some value => (some value, cache)
  | none =>
    match actual with
    | some value => (some value, cache.insert key value)
    | none => (none, cache)

variable {live : κ → Prop} {source : κ → Option ν} {cache : Cache κ ν}

theorem coherent_empty : Coherent live source (∅ : Cache κ ν) :=
  fun key _ _ h ↦ nomatch (AList.lookup_empty key).symm.trans h

theorem Coherent.insert (h : Coherent live source cache) {key : κ} {value : ν}
    (hvalue : live key → source key = some value) :
    Coherent live source (cache.insert key value) := by
  intro key' value' hlive hlookup
  rcases eq_or_ne key' key with rfl | hne
  · rw [AList.lookup_insert] at hlookup
    exact (hvalue hlive).trans hlookup
  · rw [AList.lookup_insert_ne hne] at hlookup
    exact h key' value' hlive hlookup

/-- **Lookups.** With a coherent cache a lookup answers as the source does, and leaves the cache
coherent. -/
theorem Coherent.readThrough (h : Coherent live source cache) (key : κ) (hlive : live key) :
    (cache.readThrough key (source key)).1 = source key ∧
      Coherent live source (cache.readThrough key (source key)).2 := by
  unfold Cache.readThrough
  cases hlookup : cache.lookup key with
  | some value => exact ⟨(h key value hlive hlookup).symm, h⟩
  | none =>
    cases hsource : source key with
    | some value => exact ⟨rfl, h.insert fun _ ↦ hsource⟩
    | none => exact ⟨rfl, h⟩

/-- **Sources with parts.** The source is spread over servers and each key is asked of one of them.
When one server changes and still gives the answers that are kept of it, the cache stays
coherent. -/
theorem Coherent.update {ι σ : Type*} [DecidableEq ι] (place : κ → ι) (get : σ → κ → Option ν)
    {servers : ι → σ} {i : ι} {server : σ}
    (h : Coherent live (fun key ↦ get (servers (place key)) key) cache)
    (hkeep : ∀ key ∈ cache, live key → place key = i → ∀ value,
      get (servers i) key = some value → get server key = some value) :
    Coherent live (fun key ↦ get (Function.update servers i server (place key)) key) cache := by
  intro key value hlive hlookup
  have hvalue := h key value hlive hlookup
  have hmem : key ∈ cache := AList.lookup_isSome.mp (Option.isSome_of_eq_some hlookup)
  dsimp only at hvalue ⊢
  rcases eq_or_ne (place key) i with heq | hne
  · rw [heq] at hvalue ⊢
    rw [Function.update_self]
    exact hkeep key hmem hlive heq value hvalue
  · rw [Function.update_of_ne hne]
    exact hvalue

end Cache

end Foundation
