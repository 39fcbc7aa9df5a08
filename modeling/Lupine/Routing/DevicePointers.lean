import Lupine.Foundation.UniqueMatch
import Lupine.Foundation.WriteLog
import Lupine.Routing.Routes

/-!
# Owners of device pointers

Which route a device pointer belongs to is kept twice: by the exact pointer, and by the interval of
the allocation it was noted with. Lookups consult the exact pointers first, and then the intervals
in the order of an unordered map. A note names a route; a forgotten address leaves both tables.

The specification looks at the history of calls only. A pointer has an own note when a call about
it, the last one, noted a route; an allocation is live when the last call that noted or forgot an
allocation at its base noted one. The lookups answer an own note first, whatever allocation the
pointer lies in.

## Tables as logs

Each call comes to a note, and a note writes to the log of exact pointers, to that of the
allocations, or to both. A table holds the last write for each key, which is the whole connection to
the history; what the lookups answer is then read off the logs. Where intervals overlap, the
answer depends on the order of the map, so nothing is said there.
-/

namespace Lupine

open Foundation

/-! ## The tables

Both tables are keyed by a pointer, the second one by the base of the allocation. -/

/-- `lupine_deviceptr_allocation_record`. -/
structure DeviceptrAllocationRecord where
  base : CUdeviceptr := 0
  size : ℕ := 0
  routeId : ℤ := -2
  deriving DecidableEq, Repr

/-- The pointer lies in the interval. -/
def DeviceptrAllocationRecord.Covers (allocation : DeviceptrAllocationRecord) (ptr : CUdeviceptr) :
    Prop :=
  allocation.base ≤ ptr ∧ ptr - allocation.base < allocation.size

instance (allocation : DeviceptrAllocationRecord) (ptr : CUdeviceptr) :
    Decidable (allocation.Covers ptr) :=
  inferInstanceAs (Decidable (_ ∧ _))

/-- The test in the loop over the intervals. -/
def intervalHit (ptr : CUdeviceptr) (allocation : DeviceptrAllocationRecord) : Bool :=
  !(allocation.base == 0 || allocation.size == 0 || ptr < allocation.base) &&
    ptr - allocation.base < allocation.size

/-- `lupine_owners<CUdeviceptr>` and `lupine_deviceptr_allocations`. Nothing is kept for the null
pointer. -/
structure DeviceptrTables where
  owners : AList fun _ : CUdeviceptr ↦ ℤ := ∅
  allocations : AList fun _ : CUdeviceptr ↦ DeviceptrAllocationRecord := ∅
  owners_zero : owners.lookup 0 = none := by rfl
  base_ne_zero : ∀ ptr record, allocations.lookup ptr = some record → record.base ≠ 0 := by
    simp

namespace DeviceptrTables

variable (tables : DeviceptrTables) (client : Connections)

/-- `lupine_note_owner` and `lupine_note_owner_route` once they have a route identity. -/
def setOwner (ptr : CUdeviceptr) (hptr : ptr ≠ 0) (routeId : ℤ) : DeviceptrTables :=
  { tables with
    owners := tables.owners.insert ptr routeId
    owners_zero := (AList.lookup_insert_ne hptr.symm).trans tables.owners_zero }

/-- `lupine_note_deviceptr_allocation_owner_locked`. -/
def noteDeviceptrAllocationOwnerLocked (ptr : CUdeviceptr) (hptr : ptr ≠ 0) (size : ℕ)
    (routeId : ℤ) : DeviceptrTables where
  owners := tables.owners.insert ptr routeId
  allocations :=
    if size = 0 then tables.allocations.erase ptr
    else tables.allocations.insert ptr ⟨ptr, size, routeId⟩
  owners_zero := (AList.lookup_insert_ne hptr.symm).trans tables.owners_zero
  base_ne_zero := by
    intro ptr' record h
    split_ifs at h with hsize
    · rcases eq_or_ne ptr' ptr with rfl | hne
      · rw [AList.lookup_erase] at h
        exact nomatch h
      · exact tables.base_ne_zero ptr' record (by rwa [AList.lookup_erase_ne hne] at h)
    · rcases eq_or_ne ptr' ptr with rfl | hne
      · rw [AList.lookup_insert, Option.some_inj] at h
        exact h ▸ hptr
      · exact tables.base_ne_zero ptr' record (by rwa [AList.lookup_insert_ne hne] at h)

/-- `lupine_note_deviceptr_owner`. -/
def noteDeviceptrOwner (ptr : CUdeviceptr) (conn : Option Conn) : DeviceptrTables :=
  let index := connIndex client conn
  if h : ptr = 0 ∨ index < 0 then tables else tables.setOwner ptr (not_or.mp h).1 index

/-- `lupine_note_deviceptr_owner_route`. -/
def noteDeviceptrOwnerRoute (ptr : CUdeviceptr) (route : Route) : DeviceptrTables :=
  let routeId := routeIdentity client route
  if h : ptr = 0 ∨ routeId < -1 then tables else tables.setOwner ptr (not_or.mp h).1 routeId

/-- `lupine_note_deviceptr_allocation`. -/
def noteDeviceptrAllocation (ptr : CUdeviceptr) (size : ℕ) (conn : Option Conn) : DeviceptrTables :=
  let index := connIndex client conn
  if hptr : ptr = 0 then tables
  else if index < 0 then tables
  else tables.noteDeviceptrAllocationOwnerLocked ptr hptr size index

/-- `lupine_note_deviceptr_allocation_route`. -/
def noteDeviceptrAllocationRoute (ptr : CUdeviceptr) (size : ℕ) (route : Route) : DeviceptrTables :=
  if hptr : ptr = 0 then tables
  else if route.kind = .invalid then tables
  else if route.kind = .remote then tables.noteDeviceptrAllocation client ptr size route.conn
  else tables.noteDeviceptrAllocationOwnerLocked ptr hptr size (-1)

/-- `lupine_forget_deviceptr_owner`. -/
def forgetDeviceptrOwner (ptr : CUdeviceptr) : DeviceptrTables where
  owners := tables.owners.erase ptr
  allocations := tables.allocations.erase ptr
  owners_zero := by
    rcases eq_or_ne 0 ptr with rfl | hne
    · exact AList.lookup_erase _ _
    · exact (AList.lookup_erase_ne hne).trans tables.owners_zero
  base_ne_zero := by
    intro ptr' record h
    rcases eq_or_ne ptr' ptr with rfl | hne
    · rw [AList.lookup_erase] at h
      exact nomatch h
    · exact tables.base_ne_zero ptr' record (by rwa [AList.lookup_erase_ne hne] at h)

/-! ## The lookups

The three functions look in the same places and differ in what they make of the answer. -/

/-- `lupine_known_deviceptr_route_id`; the loop meets the intervals in the given order. -/
def knownDeviceptrRouteId (order : List DeviceptrAllocationRecord) (ptr : CUdeviceptr) : ℤ :=
  if ptr = 0 then -2
  else match tables.owners.lookup ptr with
    | some routeId => routeId
    | none =>
      match order.find? (intervalHit ptr) with
      | some allocation => allocation.routeId
      | none => -2

/-- `lupine_deviceptr_is_tracked`. -/
def deviceptrIsTracked (order : List DeviceptrAllocationRecord) (ptr : CUdeviceptr) : Bool :=
  (tables.owners.lookup ptr).isSome || (order.find? (intervalHit ptr)).isSome

/-- `lupine_route_for_deviceptr`; `fallback` is `lupine_route_for_default()`. -/
def routeForDeviceptr (fallback : Route) (order : List DeviceptrAllocationRecord)
    (ptr : CUdeviceptr) : Route :=
  match tables.owners.lookup ptr with
  | some routeId => routeFromIdentity client routeId
  | none =>
    match order.find? (intervalHit ptr) with
    | some allocation => routeFromIdentity client allocation.routeId
    | none => fallback

end DeviceptrTables

/-! ## Histories of calls

The connections that are open matter for the identity of a route. -/

inductive DeviceptrCall where
  | noteOwner (ptr : CUdeviceptr) (conn : Option Conn)
  | noteOwnerRoute (ptr : CUdeviceptr) (route : Route)
  | noteAllocation (ptr : CUdeviceptr) (size : ℕ) (conn : Option Conn)
  | noteAllocationRoute (ptr : CUdeviceptr) (size : ℕ) (route : Route)
  | forgetOwner (ptr : CUdeviceptr)
  deriving DecidableEq, Repr

def DeviceptrTables.apply (tables : DeviceptrTables) : Connections × DeviceptrCall → DeviceptrTables
  | (client, .noteOwner ptr conn) => tables.noteDeviceptrOwner client ptr conn
  | (client, .noteOwnerRoute ptr route) => tables.noteDeviceptrOwnerRoute client ptr route
  | (client, .noteAllocation ptr size conn) => tables.noteDeviceptrAllocation client ptr size conn
  | (client, .noteAllocationRoute ptr size route) =>
    tables.noteDeviceptrAllocationRoute client ptr size route
  | (_, .forgetOwner ptr) => tables.forgetDeviceptrOwner ptr

def deviceptrTables (history : List (Connections × DeviceptrCall)) : DeviceptrTables :=
  history.foldl DeviceptrTables.apply {}

/-! ## What the history says

A call is refused if it is about the null pointer, or its route has no identity that can be
noted. -/

/-- What a call that is not refused comes to. -/
inductive DeviceptrNote where
  | owner (ptr : CUdeviceptr) (routeId : ℤ)
  | allocation (ptr : CUdeviceptr) (size : ℕ) (routeId : ℤ)
  | forgotten (ptr : CUdeviceptr)
  deriving DecidableEq, Repr

/-- A note about the null pointer or with an identity below a bound is refused. -/
def acceptedNote (ptr : CUdeviceptr) (lowest routeId : ℤ) (note : DeviceptrNote) :
    Option DeviceptrNote :=
  if ptr = 0 ∨ routeId < lowest then none else some note

/-- What a call says. An allocation whose route is neither a server's nor invalid is the local
driver's. -/
def deviceptrNote : Connections × DeviceptrCall → Option DeviceptrNote
  | (client, .noteOwner ptr conn) =>
    acceptedNote ptr 0 (connIndex client conn) (.owner ptr (connIndex client conn))
  | (client, .noteOwnerRoute ptr route) =>
    acceptedNote ptr (-1) (routeIdentity client route) (.owner ptr (routeIdentity client route))
  | (client, .noteAllocation ptr size conn) =>
    acceptedNote ptr 0 (connIndex client conn) (.allocation ptr size (connIndex client conn))
  | (client, .noteAllocationRoute ptr size route) =>
    if route.kind = .remote then
      acceptedNote ptr 0 (connIndex client route.conn)
        (.allocation ptr size (connIndex client route.conn))
    else if route.kind = .invalid then none
    else acceptedNote ptr (-1) (-1) (.allocation ptr size (-1))
  | (_, .forgetOwner ptr) => some (.forgotten ptr)

/-- What a note says about its exact pointer. -/
def DeviceptrNote.ownerWrite : DeviceptrNote → CUdeviceptr × Option ℤ
  | owner ptr routeId => (ptr, some routeId)
  | allocation ptr _ routeId => (ptr, some routeId)
  | forgotten ptr => (ptr, none)

/-- What a note says about the allocation at a base. -/
def DeviceptrNote.allocationWrite :
    DeviceptrNote → Option (CUdeviceptr × Option DeviceptrAllocationRecord)
  | owner _ _ => none
  | allocation ptr size routeId =>
    some (ptr, if size = 0 then none else some ⟨ptr, size, routeId⟩)
  | forgotten ptr => some (ptr, none)

variable (history : List (Connections × DeviceptrCall))

def ownerLog : List (CUdeviceptr × Option ℤ) :=
  (history.filterMap deviceptrNote).map DeviceptrNote.ownerWrite

def allocationLog : List (CUdeviceptr × Option DeviceptrAllocationRecord) :=
  (history.filterMap deviceptrNote).filterMap DeviceptrNote.allocationWrite

/-- The route of the last note of a pointer since it was forgotten. -/
def ownNote (ptr : CUdeviceptr) : Option ℤ := (latest (ownerLog history) ptr).join

/-- The allocation last noted at a base since it was forgotten. -/
def liveAllocation (base : CUdeviceptr) : Option DeviceptrAllocationRecord :=
  (latest (allocationLog history) base).join

/-- No pointer lies in two live allocations. -/
def LiveDisjoint : Prop :=
  ∀ base base' allocation allocation' ptr, liveAllocation history base = some allocation →
    liveAllocation history base' = some allocation' → allocation.Covers ptr →
      allocation'.Covers ptr → base = base'

/-! ## The tables follow the history

A refused call changes nothing; any other is one write for each log. -/

variable {history} {tables : DeviceptrTables} {event : Connections × DeviceptrCall}

/-- The tables are as the history says. -/
structure Follows (tables : DeviceptrTables) (history : List (Connections × DeviceptrCall)) :
    Prop where
  owners : Recorded tables.owners (ownerLog history)
  allocations : Recorded tables.allocations (allocationLog history)

theorem ownerLog_concat (history : List (Connections × DeviceptrCall))
    (event : Connections × DeviceptrCall) :
    ownerLog (history ++ [event]) =
      ownerLog history ++ (deviceptrNote event).toList.map DeviceptrNote.ownerWrite := by
  rw [ownerLog, ownerLog, List.filterMap_append, List.map_append]
  cases h : deviceptrNote event <;> simp [h]

theorem allocationLog_concat (history : List (Connections × DeviceptrCall))
    (event : Connections × DeviceptrCall) :
    allocationLog (history ++ [event]) = allocationLog history ++
      (deviceptrNote event).toList.filterMap DeviceptrNote.allocationWrite := by
  rw [allocationLog, allocationLog, List.filterMap_append, List.filterMap_append]
  cases h : deviceptrNote event <;> simp [h]

namespace Follows

variable (h : Follows tables history)

include h

theorem refused (hnote : deviceptrNote event = none) : Follows tables (history ++ [event]) where
  owners := by
    rw [ownerLog_concat, hnote, Option.toList_none, List.map_nil, List.append_nil]
    exact h.owners
  allocations := by
    rw [allocationLog_concat, hnote, Option.toList_none, List.filterMap_nil, List.append_nil]
    exact h.allocations

theorem setOwner {ptr : CUdeviceptr} (hptr : ptr ≠ 0) {routeId : ℤ}
    (hnote : deviceptrNote event = some (.owner ptr routeId)) :
    Follows (tables.setOwner ptr hptr routeId) (history ++ [event]) where
  owners := by
    rw [ownerLog_concat, hnote]
    exact h.owners.insert ptr routeId
  allocations := by
    rw [allocationLog_concat, hnote]
    exact (List.append_nil _).symm ▸ h.allocations

theorem noteDeviceptrAllocationOwnerLocked {ptr : CUdeviceptr} (hptr : ptr ≠ 0) {size : ℕ}
    {routeId : ℤ} (hnote : deviceptrNote event = some (.allocation ptr size routeId)) :
    Follows (tables.noteDeviceptrAllocationOwnerLocked ptr hptr size routeId)
      (history ++ [event]) where
  owners := by
    rw [ownerLog_concat, hnote]
    exact h.owners.insert ptr routeId
  allocations := by
    rw [allocationLog_concat, hnote]
    simp only [DeviceptrTables.noteDeviceptrAllocationOwnerLocked, Option.toList_some,
      List.filterMap_cons, DeviceptrNote.allocationWrite, List.filterMap_nil]
    split_ifs with hsize
    · exact h.allocations.erase ptr
    · exact h.allocations.insert ptr ⟨ptr, size, routeId⟩

theorem forgetDeviceptrOwner {ptr : CUdeviceptr}
    (hnote : deviceptrNote event = some (.forgotten ptr)) :
    Follows (tables.forgetDeviceptrOwner ptr) (history ++ [event]) where
  owners := by
    rw [ownerLog_concat, hnote]
    exact h.owners.erase ptr
  allocations := by
    rw [allocationLog_concat, hnote]
    exact h.allocations.erase ptr

theorem noteDeviceptrAllocation {client : Connections} {ptr : CUdeviceptr} {size : ℕ}
    {conn : Option Conn}
    (hnote : deviceptrNote event = acceptedNote ptr 0 (connIndex client conn)
      (.allocation ptr size (connIndex client conn))) :
    Follows (tables.noteDeviceptrAllocation client ptr size conn) (history ++ [event]) := by
  rw [acceptedNote] at hnote
  simp only [DeviceptrTables.noteDeviceptrAllocation]
  split_ifs with hptr hindex
  · exact h.refused (by rw [hnote, if_pos (Or.inl hptr)])
  · exact h.refused (by rw [hnote, if_pos (Or.inr hindex)])
  · apply h.noteDeviceptrAllocationOwnerLocked hptr
    rw [hnote, if_neg (not_or.mpr ⟨hptr, hindex⟩)]

theorem apply (event : Connections × DeviceptrCall) :
    Follows (tables.apply event) (history ++ [event]) := by
  obtain ⟨client, call⟩ := event
  cases call with
  | noteOwner ptr conn =>
    simp only [DeviceptrTables.apply, DeviceptrTables.noteDeviceptrOwner]
    split_ifs with hrefused
    · exact h.refused (if_pos hrefused)
    · exact h.setOwner (not_or.mp hrefused).1 (if_neg hrefused)
  | noteOwnerRoute ptr route =>
    simp only [DeviceptrTables.apply, DeviceptrTables.noteDeviceptrOwnerRoute]
    split_ifs with hrefused
    · exact h.refused (if_pos hrefused)
    · exact h.setOwner (not_or.mp hrefused).1 (if_neg hrefused)
  | noteAllocation ptr size conn => exact h.noteDeviceptrAllocation rfl
  | noteAllocationRoute ptr size route =>
    simp only [DeviceptrTables.apply, DeviceptrTables.noteDeviceptrAllocationRoute]
    split_ifs with hptr hinvalid hremote
    · exact h.refused (by simp [deviceptrNote, acceptedNote, hptr])
    · exact h.refused (by simp [deviceptrNote, hinvalid])
    · exact h.noteDeviceptrAllocation (if_pos hremote)
    · exact h.noteDeviceptrAllocationOwnerLocked hptr
        (by simp [deviceptrNote, acceptedNote, hremote, hinvalid, hptr])
  | forgetOwner ptr => exact h.forgetDeviceptrOwner rfl

end Follows

/-- **The tables hold what the history says.** -/
theorem follows_deviceptrTables (history : List (Connections × DeviceptrCall)) :
    Follows (deviceptrTables history) history := by
  induction history using List.reverseRecOn with
  | nil => exact ⟨recorded_empty, recorded_empty⟩
  | append_singleton history event ih =>
    rw [deviceptrTables, List.foldl_append]
    exact ih.apply event

/-! ## The lookups answer the history

An own note is found first. Without one, the live allocation that has the pointer is the only
one. -/

theorem intervalHit_eq {allocation : DeviceptrAllocationRecord} {ptr : CUdeviceptr}
    (hbase : allocation.base ≠ 0) :
    intervalHit ptr allocation = decide (allocation.Covers ptr) := by
  rw [Bool.eq_iff_iff, decide_eq_true_iff, DeviceptrAllocationRecord.Covers]
  simp only [intervalHit, Bool.and_eq_true, Bool.not_eq_true', Bool.or_eq_false_iff,
    beq_eq_false_iff_ne, decide_eq_false_iff_not, decide_eq_true_iff]
  constructor
  · rintro ⟨⟨-, hle⟩, hlt⟩
    exact ⟨Nat.not_lt.mp hle, hlt⟩
  · rintro ⟨hle, hlt⟩
    exact ⟨⟨⟨hbase, Nat.ne_of_gt (Nat.zero_lt_of_lt hlt)⟩, Nat.not_lt.mpr hle⟩, hlt⟩

/-- All three lookups answer this identity. -/
structure DeviceptrAnswered (client : Connections) (fallback : Route)
    (order : List DeviceptrAllocationRecord) (tables : DeviceptrTables) (ptr : CUdeviceptr)
    (routeId : ℤ) : Prop where
  known : tables.knownDeviceptrRouteId order ptr = routeId
  route : tables.routeForDeviceptr client fallback order ptr = routeFromIdentity client routeId
  tracked : tables.deviceptrIsTracked order ptr = true

/-- None of the three lookups finds the pointer. -/
structure DeviceptrUnknown (client : Connections) (fallback : Route)
    (order : List DeviceptrAllocationRecord) (tables : DeviceptrTables) (ptr : CUdeviceptr) :
    Prop where
  known : tables.knownDeviceptrRouteId order ptr = -2
  route : tables.routeForDeviceptr client fallback order ptr = fallback
  tracked : tables.deviceptrIsTracked order ptr = false

section Lookups

variable {client : Connections} {fallback : Route} {order : List DeviceptrAllocationRecord}
  {ptr : CUdeviceptr} {routeId : ℤ}

theorem DeviceptrAnswered.of_owner (hptr : ptr ≠ 0)
    (howner : tables.owners.lookup ptr = some routeId) :
    DeviceptrAnswered client fallback order tables ptr routeId where
  known := by rw [DeviceptrTables.knownDeviceptrRouteId, if_neg hptr, howner]
  route := by rw [DeviceptrTables.routeForDeviceptr, howner]
  tracked := by rw [DeviceptrTables.deviceptrIsTracked, howner, Option.isSome_some, Bool.true_or]

theorem DeviceptrAnswered.of_interval {allocation : DeviceptrAllocationRecord} (hptr : ptr ≠ 0)
    (howner : tables.owners.lookup ptr = none)
    (hfind : order.find? (intervalHit ptr) = some allocation) :
    DeviceptrAnswered client fallback order tables ptr allocation.routeId where
  known := by rw [DeviceptrTables.knownDeviceptrRouteId, if_neg hptr, howner, hfind]
  route := by rw [DeviceptrTables.routeForDeviceptr, howner, hfind]
  tracked := by
    rw [DeviceptrTables.deviceptrIsTracked, hfind, Option.isSome_some, Bool.or_true]

theorem DeviceptrUnknown.of_none (howner : tables.owners.lookup ptr = none)
    (hfind : order.find? (intervalHit ptr) = none) :
    DeviceptrUnknown client fallback order tables ptr where
  known := by rw [DeviceptrTables.knownDeviceptrRouteId, howner, hfind, ite_self]
  route := by rw [DeviceptrTables.routeForDeviceptr, howner, hfind]
  tracked := by rw [DeviceptrTables.deviceptrIsTracked, howner, hfind]; rfl

end Lookups

theorem ownNote_zero (history : List (Connections × DeviceptrCall)) : ownNote history 0 = none :=
  ((follows_deviceptrTables history).owners 0).symm.trans (deviceptrTables history).owners_zero

/-- A live allocation is not at the null pointer. -/
theorem base_ne_zero_of_liveAllocation {base : CUdeviceptr} {allocation : DeviceptrAllocationRecord}
    (hlive : liveAllocation history base = some allocation) : allocation.base ≠ 0 :=
  (deviceptrTables history).base_ne_zero base allocation
    (((follows_deviceptrTables history).allocations base).trans hlive)

/-- **Lookups of device pointers.** A pointer with an own note answers that note; another pointer in
a live allocation answers its route; any other pointer is unknown to all three lookups. -/
theorem deviceptr_lookups_answer_history (history : List (Connections × DeviceptrCall))
    (hdisjoint : LiveDisjoint history) (order : List DeviceptrAllocationRecord)
    (horder : Iterates order (deviceptrTables history).allocations) (client : Connections)
    (fallback : Route) (ptr : CUdeviceptr) :
    (∀ routeId, ownNote history ptr = some routeId →
      DeviceptrAnswered client fallback order (deviceptrTables history) ptr routeId) ∧
    (ownNote history ptr = none → ∀ base allocation,
      liveAllocation history base = some allocation → allocation.Covers ptr →
        DeviceptrAnswered client fallback order (deviceptrTables history) ptr allocation.routeId) ∧
    (ownNote history ptr = none →
      (∀ base allocation, liveAllocation history base = some allocation → ¬allocation.Covers ptr) →
        DeviceptrUnknown client fallback order (deviceptrTables history) ptr) := by
  have hfollows := follows_deviceptrTables history
  have howner : (deviceptrTables history).owners.lookup ptr = ownNote history ptr :=
    hfollows.owners ptr
  -- the base of a live allocation is not null, so the lookup tests just the interval
  have hhit : ∀ base allocation,
      (deviceptrTables history).allocations.lookup base = some allocation →
      intervalHit ptr allocation = decide (allocation.Covers ptr) := fun base allocation hlookup ↦
    intervalHit_eq ((deviceptrTables history).base_ne_zero base allocation hlookup)
  refine ⟨?_, ?_, ?_⟩
  -- the exact pointer comes first in all three lookups
  · intro routeId hnote
    refine DeviceptrAnswered.of_owner ?_ (howner.trans hnote)
    rintro rfl
    rw [ownNote_zero] at hnote
    exact nomatch hnote
  · intro hnote base allocation hlive hcovers
    have hlookup := (hfollows.allocations base).trans hlive
    have hbase := base_ne_zero_of_liveAllocation hlive
    have hptr : ptr ≠ 0 := Nat.ne_of_gt (Nat.lt_of_lt_of_le (Nat.pos_of_ne_zero hbase) hcovers.1)
    apply DeviceptrAnswered.of_interval hptr (howner.trans hnote)
    apply horder.find?_eq_some hlookup
    · rw [hhit base allocation hlookup]
      exact decide_eq_true hcovers
    -- the order of the map does not matter: no other live allocation covers the pointer
    · intro base' allocation' hlookup' hhit'
      rw [hhit base' allocation' hlookup', decide_eq_true_iff] at hhit'
      have hlive' : liveAllocation history base' = some allocation' :=
        (hfollows.allocations base').symm.trans hlookup'
      have heq := hdisjoint base base' allocation allocation' ptr hlive hlive' hcovers hhit'
      rw [heq, hlive'] at hlive
      exact Option.some.inj hlive
  · intro hnote hnone
    apply DeviceptrUnknown.of_none (howner.trans hnote)
    apply horder.find?_eq_none
    intro base allocation hlookup
    rw [hhit base allocation hlookup]
    exact decide_eq_false (hnone base allocation ((hfollows.allocations base).symm.trans hlookup))

/-- Allocations at a single base are disjoint. -/
theorem liveDisjoint_of_base {base : CUdeviceptr}
    (h : ∀ entry ∈ allocationLog history, entry.1 = base) : LiveDisjoint history := by
  have hbase : ∀ b allocation, liveAllocation history b = some allocation → b = base := by
    intro b allocation hlive
    exact h _ (mem_of_latest (Option.join_eq_some_iff.mp hlive))
  intro b b' allocation allocation' _ hlive hlive' _ _
  rw [hbase b allocation hlive, hbase b' allocation' hlive']

/-- An address that was freed and is another server's now. -/
theorem deviceptr_lookups_answer_history_reused :
    DeviceptrAnswered (.ofSize 2) localRoute [⟨0x1000, 0x1000, 1⟩]
      (deviceptrTables [(.ofSize 2, .noteAllocation 0x1000 0x800 (some ⟨0⟩)),
        (.ofSize 2, .forgetOwner 0x1000), (.ofSize 2, .noteAllocation 0x1000 0x1000 (some ⟨1⟩))])
      0x1fff 1 := by
  have hanswered := (deviceptr_lookups_answer_history
    [(.ofSize 2, .noteAllocation 0x1000 0x800 (some ⟨0⟩)), (.ofSize 2, .forgetOwner 0x1000),
      (.ofSize 2, .noteAllocation 0x1000 0x1000 (some ⟨1⟩))]
    (@liveDisjoint_of_base _ 0x1000 (by decide)) [⟨0x1000, 0x1000, 1⟩] (List.Perm.refl _)
    (.ofSize 2) localRoute 0x1fff).2.1
  exact hanswered (by decide) 0x1000 ⟨0x1000, 0x1000, 1⟩ (by decide) (by decide)

/-- **An owner inside an allocation.** A note of an owner alone, for an address inside a live
allocation of another server, is what lookups of that address answer. -/
theorem owner_inside_allocation_answers_itself :
    ¬∀ history : List (Connections × DeviceptrCall), LiveDisjoint history →
      ∀ order, Iterates order (deviceptrTables history).allocations →
        ∀ client fallback base allocation ptr, liveAllocation history base = some allocation →
          allocation.Covers ptr →
            DeviceptrAnswered client fallback order (deviceptrTables history) ptr
              allocation.routeId := by
  intro hclaim
  have hanswered := hclaim [(.ofSize 2, .noteAllocation 0x1000 0x1000 (some ⟨0⟩)),
      (.ofSize 2, .noteOwner 0x1800 (some ⟨1⟩))]
    (@liveDisjoint_of_base _ 0x1000 (by decide)) [⟨0x1000, 0x1000, 0⟩] (List.Perm.refl _)
    (.ofSize 2) localRoute 0x1000 ⟨0x1000, 0x1000, 0⟩ 0x1800 (by decide) (by decide)
  exact absurd hanswered.known (by decide)

end Lupine
