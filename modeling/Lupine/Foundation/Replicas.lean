import Mathlib.Data.List.AList
import Lupine.Foundation.PointerTable

/-!
# Tables of replicas

A thing that exists at one site can be made again at others. A table keeps for each key a value,
from which the thing can be made, and the replicas by their sites. A key that is recorded again
gets a new value and keeps the replicas that were made of the old one.

Two things can go wrong when a handle is given out again: its own key may still have replicas made
of the old value, and the handle may be the replica of another key. `OnlyAt` and `NotReplica` say
that it is neither, and under them the table is right after the handle is recorded.
-/

namespace Foundation

/-- A value, and the replicas that were made of it. -/
structure Replicated (α ρ ν : Type*) where
  value : α
  replicas : AList (fun _ : ρ ↦ ν) := ∅

/-- The values and replicas by key. -/
abbrev ReplicaTable (κ α ρ ν : Type*) := AList fun _ : κ ↦ Replicated α ρ ν

namespace ReplicaTable

variable {κ α ρ ν : Type*} [DecidableEq κ] [DecidableEq ρ]
variable {table : ReplicaTable κ α ρ ν} {k k' : κ} {x : α} {r r' : ρ} {v v' : ν}

def value? (table : ReplicaTable κ α ρ ν) (k : κ) : Option α :=
  (table.lookup k).map (·.value)

def replica? (table : ReplicaTable κ α ρ ν) (k : κ) (r : ρ) : Option ν :=
  (table.lookup k).bind fun entry ↦ entry.replicas.lookup r

/-- The value of a key and its replica at one site. Other replicas of the key stay. -/
def record (table : ReplicaTable κ α ρ ν) (k : κ) (x : α) (r : ρ) (v : ν) : ReplicaTable κ α ρ ν :=
  let replicas := (table.lookup k).elim ∅ (·.replicas)
  table.insert k { value := x, replicas := replicas.insert r v }

def addReplica (table : ReplicaTable κ α ρ ν) (k : κ) (r : ρ) (v : ν) : ReplicaTable κ α ρ ν :=
  match table.lookup k with
  | none => table
  | some entry => table.insert k { entry with replicas := entry.replicas.insert r v }

/-- The key has no replica at another site. -/
def OnlyAt (table : ReplicaTable κ α ρ ν) (k : κ) (r : ρ) : Prop :=
  ∀ entry, table.lookup k = some entry → ∀ r' ∈ entry.replicas.keys, r' = r

instance : Decidable (table.OnlyAt k r) :=
  match h : table.lookup k with
  | none => isTrue fun _ hentry ↦ nomatch h.symm.trans hentry
  | some entry =>
    decidable_of_iff (∀ r' ∈ entry.replicas.keys, r' = r)
      ⟨fun hall _ hentry ↦ Option.some_inj.mp (h.symm.trans hentry) ▸ hall, fun hall ↦ hall entry h⟩

/-- The handle is at that site the replica of no other key. -/
def NotReplica (table : ReplicaTable κ α ρ ν) (k : κ) (r : ρ) (v : ν) : Prop :=
  ∀ k' ∈ table.keys, k' ≠ k → table.replica? k' r ≠ some v

instance [DecidableEq ν] : Decidable (table.NotReplica k r v) :=
  inferInstanceAs (Decidable (∀ k' ∈ table.keys, k' ≠ k → table.replica? k' r ≠ some v))

theorem isSome_of_replica? (h : table.replica? k r = some v) : (table.value? k).isSome := by
  obtain ⟨entry, hentry, -⟩ := Option.bind_eq_some_iff.mp h
  rw [value?, hentry]
  rfl

theorem OnlyAt.eq (h : table.OnlyAt k r) (hv : table.replica? k r' = some v) : r' = r := by
  obtain ⟨entry, hentry, hv⟩ := Option.bind_eq_some_iff.mp hv
  exact h entry hentry r' (mem_keys_of_lookup hv)

theorem NotReplica.eq (h : table.NotReplica k r v) (hv : table.replica? k' r = some v) :
    k' = k := by
  obtain ⟨entry, hentry, -⟩ := Option.bind_eq_some_iff.mp hv
  exact by_contra fun hne ↦ h k' (mem_keys_of_lookup hentry) hne hv

/-! ## Recording

Other keys stay as they are, and so do the replicas of the key at other sites. -/

@[simp] theorem value?_record_self (table : ReplicaTable κ α ρ ν) (k : κ) (x : α) (r : ρ) (v : ν) :
    (table.record k x r v).value? k = some x := by
  rw [value?, record, AList.lookup_insert]
  rfl

theorem value?_record_of_ne (h : k' ≠ k) : (table.record k x r v).value? k' = table.value? k' := by
  rw [value?, record, AList.lookup_insert_ne h, value?]

theorem replica?_record_of_ne (h : k' ≠ k) :
    (table.record k x r v).replica? k' r' = table.replica? k' r' := by
  rw [replica?, record, AList.lookup_insert_ne h, replica?]

theorem replica?_record_self : (table.record k x r v).replica? k r = some v := by
  rw [replica?, record, AList.lookup_insert, Option.bind_some, AList.lookup_insert]

theorem replica?_record_other (h : r' ≠ r) :
    (table.record k x r v).replica? k r' = table.replica? k r' := by
  rw [replica?, record, AList.lookup_insert, Option.bind_some, AList.lookup_insert_ne h, replica?]
  cases table.lookup k with
  | none => exact AList.lookup_empty r'
  | some entry => rfl

theorem replica?_record_eq_some : (table.record k x r v).replica? k' r' = some v' ↔
    (k' = k ∧ r' = r) ∧ v = v' ∨ ¬(k' = k ∧ r' = r) ∧ table.replica? k' r' = some v' := by
  by_cases hk : k' = k
  · obtain rfl := hk
    by_cases hr : r' = r
    · obtain rfl := hr
      rw [replica?_record_self]
      simp
    · rw [replica?_record_other hr]
      simp [hr]
  · rw [replica?_record_of_ne hk]
    simp [hk]

/-! ## One more replica

The value of a key is not touched. -/

theorem value?_addReplica : (table.addReplica k r v).value? k' = table.value? k' := by
  rw [addReplica]
  split
  · rfl
  · rename_i entry hentry
    rcases eq_or_ne k' k with rfl | hne
    · rw [value?, AList.lookup_insert, value?, hentry]
      rfl
    · rw [value?, AList.lookup_insert_ne hne, value?]

theorem replica?_addReplica_eq_some (h : (table.value? k).isSome) :
    (table.addReplica k r v).replica? k' r' = some v' ↔
      (k' = k ∧ r' = r) ∧ v = v' ∨ ¬(k' = k ∧ r' = r) ∧ table.replica? k' r' = some v' := by
  obtain ⟨entry, hentry⟩ := Option.isSome_iff_exists.mp (Option.isSome_map ▸ h)
  rw [addReplica, hentry]
  by_cases hk : k' = k
  · obtain rfl := hk
    rw [replica?, AList.lookup_insert, Option.bind_some, lookup_insert_eq_some, replica?, hentry,
      Option.bind_some]
    simp
  · rw [replica?, AList.lookup_insert_ne hk, replica?]
    simp [hk]

end ReplicaTable

end Foundation
