import Mathlib.Data.List.Basic
import Mathlib.Data.List.Infix
import Mathlib.Tactic.Common
import Lupine.Foundation.Machine

/-!
# Device handles of NVML

The NVML client makes one list of the devices of this machine and of all servers. A handle that the
program gets is the address of an element of that list, and a call on a handle goes to where the
element says, with the handle that the server returned. The list is a vector: every init clears it,
and the next call fills it again, in place when it fits into the memory that the vector has.

A handle that is no address in the list falls back to the first connection and is sent as it is.

## Event sets

Event sets are created on the first connection, and their handles are sent as they are with devices
of any. An event that a set reports names its device by the handle of the server, and the program
gets the event as it came: a handle that is no address in the list, nor ever will be but by chance.

## The record of messages

For every handle that is sent to a server the state keeps what the handle of the program denoted.
The handles that were given out since NVML was last brought up are kept with their devices, wherever
the program got them. The counter of inits is a number here; the wrap of the `int` it is in the
source is left out, since it takes 2^31 inits without a shutdown.

## What a handle is worth

The vector keeps its memory as long as what is pushed fits, so an address that was given out stays
the address of the entry with its number. `Stable` says that this entry is still that of the device
the handle was given out for. It lasts as long as enumerations agree, and a message that is sent for
such a handle has the handle of the server.
-/

open Foundation

namespace Lupine

/-! ## The table

The state has the vector with its memory, and what no vector has: the handles that were given out,
each with its device, and the messages that were sent. -/

/-- A device, by the handle that its own NVML has for it. -/
inductive NvmlDevice where
  | onHost (handle : ℕ)
  | onServer (server handle : ℕ)
  deriving DecidableEq, Repr

/-- `lupine_nvml_remote_device`, without the label. -/
structure NvmlSlot where
  isLocal : Bool := false
  localDevice : ℕ := 0
  connIndex : ℕ := 0
  remoteIndex : ℕ := 0
  remoteDevice : ℕ := 0
  deriving DecidableEq, Repr

def NvmlSlot.device (entry : NvmlSlot) : NvmlDevice :=
  if entry.isLocal then .onHost entry.localDevice else .onServer entry.connIndex entry.remoteDevice

/-- `sizeof(lupine_nvml_remote_device)`. -/
def nvmlEntryBytes : ℕ := 64

/-- What an enumeration meets: the handles of the local library; for each server the handles that it
returns, and whether it does so to the end; and the memory that a vector gets if it has to grow. -/
structure NvmlEnumeration where
  locals : List ℕ := []
  servers : List (List ℕ × Bool) := []
  address : ℕ := 64
  capacity : ℕ := 0
  address_pos : 0 < address := by decide

/-- What is sent to a server: the value of a device handle with the devices that the program's
handle denoted, and the value of an event set with the servers that have a set of that value. -/
structure NvmlMessage where
  server : ℕ
  device : Option (ℕ × List NvmlDevice) := none
  set : Option (ℕ × List ℕ) := none
  deriving DecidableEq, Repr

structure NvmlClient where
  /-- `init_refcount`. -/
  refcount : ℕ := 0
  /-- `nconns`; there is none unless `connected`. -/
  conns : ℕ := 0
  /-- `devices_ready`. -/
  ready : Bool := false
  /-- `devices`, and the memory that it keeps. -/
  entries : List NvmlSlot := []
  base : ℕ := 0
  capacity : ℕ := 0
  /-- The entries of the last enumeration that succeeded. -/
  enumerated : List NvmlSlot := []
  /-- The handles given out since NVML was brought up. -/
  given : List (ℕ × NvmlDevice) := []
  /-- The event sets that exist, with their servers. -/
  sets : List (ℕ × ℕ) := []
  sent : List NvmlMessage := []
  deriving DecidableEq, Repr

/-! ## Enumerating

A server that stops in the middle leaves what it returned before that, and the enumeration fails. -/

def serverEntries (server : ℕ) (handles : List ℕ) : List NvmlSlot :=
  handles.zipIdx.map fun h ↦ ⟨false, 0, server, h.2, h.1⟩

/-- The loop of `ensure_devices` over the connections: what is pushed, and whether it ends. -/
def enumerateServers (answers : List (List ℕ × Bool)) : ℕ → ℕ → List NvmlSlot × Bool
  | _, 0 => ([], true)
  | i, n + 1 =>
    match answers[i]? with
    | some (handles, true) =>
      let (entries, ok) := enumerateServers answers (i + 1) n
      (serverEntries i handles ++ entries, ok)
    | some (handles, false) => (serverEntries i handles, false)
    | none => ([], false)

/-- All that `ensure_devices` pushes. -/
def NvmlEnumeration.pushed (e : NvmlEnumeration) (conns : ℕ) : List NvmlSlot × Bool :=
  let (entries, ok) := enumerateServers e.servers 0 conns
  (e.locals.map (fun h ↦ ⟨true, h, 0, 0, 0⟩) ++ entries, ok)

namespace NvmlClient

variable (st : NvmlClient) (e : NvmlEnumeration)

/-- The memory of the vector once so many entries were pushed. -/
def grow (n : ℕ) : NvmlClient :=
  if n ≤ st.capacity then st else { st with base := e.address, capacity := max n e.capacity }

/-- `ensure_devices`. -/
def ensureDevices : NvmlClient × Bool :=
  if st.refcount = 0 ∨ st.conns = 0 then (st, false)
  else if st.ready then (st, true)
  else
    let (pushed, ok) := e.pushed st.conns
    let grown := st.grow e pushed.length
    if ok then ({ grown with entries := pushed, ready := true, enumerated := pushed }, true)
    else ({ grown with entries := [] }, false)

def addressOf (i : ℕ) : ℕ := st.base + i * nvmlEntryBytes

/-- `mapped_device`. -/
def mappedDevice (handle : ℕ) : Option NvmlSlot :=
  if handle = 0 ∨ st.entries = [] then none
  else if handle < st.base ∨ st.base + st.entries.length * nvmlEntryBytes ≤ handle ∨
      (handle - st.base) % nvmlEntryBytes ≠ 0 then none
  else st.entries[(handle - st.base) / nvmlEntryBytes]?

/-! ## Looking devices up

A handle that is given to the program is the address of an entry. -/

def give (i : ℕ) : NvmlClient :=
  match st.entries[i]? with
  | some entry => { st with given := (st.addressOf i, entry.device) :: st.given }
  | none => st

/-- `nvmlDeviceGetHandleByIndex_v2`. -/
def deviceGetHandleByIndex (index : ℕ) : NvmlClient :=
  let (st, ok) := st.ensureDevices e
  if ok then st.give index else st

/-- `map_local_device`. -/
def mapLocalDevice (handle : ℕ) : NvmlClient :=
  let (st, ok) := st.ensureDevices e
  if ok then
    match st.entries.findIdx? fun c ↦ c.isLocal ∧ c.localDevice = handle with
    | some i => st.give i
    | none => st
  else st

/-- The loop of `lookup_device_on_all_connections`, with the answer of every server. -/
def lookupServers (answers : List (Option ℕ)) : ℕ → ℕ → NvmlClient
  | _, 0 => st
  | i, n + 1 =>
    match (answers[i]?).join with
    | some remote =>
      match st.entries.findIdx? fun c ↦ c.connIndex = i ∧ c.remoteDevice = remote with
      | some index => st.give index
      | none => lookupServers answers (i + 1) n
    | none => lookupServers answers (i + 1) n

/-- `lookup_device_on_all_connections`. -/
def lookupDeviceOnAllConnections (answers : List (Option ℕ)) : NvmlClient :=
  let (st, ok) := st.ensureDevices e
  if ok then st.lookupServers answers 0 st.conns else st

/-- A lookup by UUID or serial number: the local library is asked first. -/
def deviceGetHandleByName (localAnswer : Option ℕ) (answers : List (Option ℕ)) : NvmlClient :=
  match localAnswer with
  | some handle => st.mapLocalDevice e handle
  | none => st.lookupDeviceOnAllConnections e answers

/-! ## Calling a device

The message that is recorded has the value that was sent and the devices that the program's handle
denoted. -/

def send (message : NvmlMessage) : NvmlClient := { st with sent := message :: st.sent }

def denoted (handle : ℕ) : List NvmlDevice :=
  (st.given.filter fun g ↦ g.1 = handle).map Prod.snd

/-- The servers that have an event set of that value. -/
def setOwners (set : ℕ) : List ℕ := (st.sets.filter fun s ↦ s.2 = set).map Prod.fst

/-- `connection_for_device`: the server, and the handle that it is sent. -/
def connectionForDevice (handle : ℕ) : NvmlClient × Option (ℕ × ℕ) :=
  let (st, ok) := st.ensureDevices e
  if ok then
    if st.entries = [] then (st, none)
    else
      match st.mappedDevice handle with
      | none => (st, some (0, handle))
      | some entry =>
        (st,
          if entry.connIndex < st.conns then some (entry.connIndex, entry.remoteDevice) else none)
  else (st, none)

/-- A function on a device: a local one is answered here, any other is sent on. -/
def callDevice (e' : NvmlEnumeration) (handle : ℕ) : NvmlClient :=
  let (st, ok) := st.ensureDevices e
  let isLocal := ok && (st.mappedDevice handle).any NvmlSlot.isLocal
  if isLocal then st
  else
    match st.connectionForDevice e' handle with
    | (st, some (server, value)) => st.send { server, device := some (value, st.denoted handle) }
    | (st, none) => st

/-- The search of `nvmlDeviceGetHandleByPciBusId_v2` for a virtual domain: the devices of one
connection are asked in turn, each over its own handle. -/
def searchPci (target : ℕ) (found : ℕ → Bool) : NvmlClient → ℕ → ℕ → NvmlClient
  | st, _, 0 => st
  | st, i, n + 1 =>
    match st.entries[i]? with
    | some entry =>
      if entry.isLocal ∨ entry.connIndex ≠ target then searchPci target found st (i + 1) n
      else
        let asked :=
          if entry.connIndex < st.conns then
            st.send ⟨entry.connIndex, some (entry.remoteDevice, [entry.device]), none⟩
          else st
        if found i then asked.give i else searchPci target found asked (i + 1) n
    | none => st

/-- `nvmlDeviceGetHandleByPciBusId_v2`, for a virtual domain. -/
def deviceGetHandleByPciBusId (target : ℕ) (found : ℕ → Bool) : NvmlClient :=
  let (st, ok) := st.ensureDevices e
  if ok then searchPci target found st 0 st.entries.length else st

/-! ## Event sets -/

/-- `connection`: the first server. -/
def connection : Option ℕ := if 0 < st.refcount ∧ 0 < st.conns then some 0 else none

/-- `call_event_set_create`, with the set that the server returns. -/
def callEventSetCreate (answer : Option ℕ) : NvmlClient :=
  match st.connection, answer with
  | some server, some set => { st with sets := (server, set) :: st.sets }
  | _, _ => st

/-- The request of `call_event_set_wait` and of `call_event_set_free`. -/
def sendSet (set : ℕ) : NvmlClient :=
  match st.connection with
  | some server => st.send { server, set := some (set, st.setOwners set) }
  | none => st

/-- `call_event_set_wait`, with the `device` of the event that the server answers with, null when
there is none, or without an answer. -/
def callEventSetWait (set : ℕ) (answer : Option ℕ) : NvmlClient :=
  match st.connection, answer with
  | some server, some device =>
    if device = 0 then st.sendSet set
    else { st.sendSet set with given := (device, .onServer server device) :: st.given }
  | _, _ => st.sendSet set

/-- `call_event_set_free`. -/
def callEventSetFree (set : ℕ) : NvmlClient :=
  { st.sendSet set with sets := st.sets.filter fun s ↦ s.2 ≠ set }

/-- `call_device_register_events`. -/
def callDeviceRegisterEvents (handle set : ℕ) : NvmlClient :=
  match st.connectionForDevice e handle with
  | (st, some (server, value)) =>
    st.send ⟨server, some (value, st.denoted handle), some (set, st.setOwners set)⟩
  | (st, none) => st

/-! ## Init and shutdown -/

/-- `nvmlInit_v2`, which opens so many connections if there are none. -/
def init (conns : ℕ) : NvmlClient :=
  let conns := if st.conns = 0 then conns else st.conns
  if conns = 0 then st
  else { st with refcount := st.refcount + 1, conns, ready := false, entries := [] }

/-- `nvmlShutdown`. The last one closes the connections, and the servers' processes end. -/
def shutdown : NvmlClient :=
  if st.refcount = 0 then st
  else if st.refcount = 1 then
    { st with refcount := 0, conns := 0, ready := false, entries := [], given := [], sets := [] }
  else { st with refcount := st.refcount - 1 }

end NvmlClient

/-! ## The machine -/

inductive NvmlCall where
  | init (conns : ℕ)
  | shutdown
  | handleByIndex (e : NvmlEnumeration) (index : ℕ)
  | handleByName (e : NvmlEnumeration) (localAnswer : Option ℕ) (answers : List (Option ℕ))
  | handleByPciBusId (e : NvmlEnumeration) (target : ℕ) (found : ℕ → Bool)
  | device (e e' : NvmlEnumeration) (handle : ℕ)
  | eventSetCreate (answer : Option ℕ)
  | eventSetWait (set : ℕ) (answer : Option ℕ)
  | eventSetFree (set : ℕ)
  | registerEvents (e : NvmlEnumeration) (handle set : ℕ)

def NvmlClient.apply (st : NvmlClient) : NvmlCall → NvmlClient
  | .init conns => st.init conns
  | .shutdown => st.shutdown
  | .handleByIndex e index => st.deviceGetHandleByIndex e index
  | .handleByName e localAnswer answers => st.deviceGetHandleByName e localAnswer answers
  | .handleByPciBusId e target found => st.deviceGetHandleByPciBusId e target found
  | .device e e' handle => st.callDevice e e' handle
  | .eventSetCreate answer => st.callEventSetCreate answer
  | .eventSetWait set answer => st.callEventSetWait set answer
  | .eventSetFree set => st.callEventSetFree set
  | .registerEvents e handle set => st.callDeviceRegisterEvents e handle set

def nvmlShim : Machine NvmlClient NvmlCall where
  step st call := some (st.apply call)

/-! ## What is right -/

/-- A handle that is sent is the server's own, for what the program's handle denotes. -/
structure NvmlMessage.Right (message : NvmlMessage) : Prop where
  device : ∀ d ∈ message.device, NvmlDevice.onServer message.server d.1 ∈ d.2
  set : ∀ s ∈ message.set, message.server ∈ s.2

/-- A handle that was given out is the address of the entry of its device. -/
def NvmlClient.Stable (st : NvmlClient) : Prop :=
  st.ready = true → ∀ g ∈ st.given, ∃ entry ∈ st.mappedDevice g.1, entry.device = g.2

/-! ## When it goes well

The condition is on the state before the call. Handles have to be known, which those of an event are
not. -/

/-- An enumeration while handles are out finds the devices that were found before, or fails on the
way. -/
def NvmlClient.Finds (st : NvmlClient) (e : NvmlEnumeration) : Prop :=
  st.given ≠ [] → st.ready = false →
    (e.pushed st.conns).1 <+: st.enumerated ∧
      ((e.pushed st.conns).2 = true → (e.pushed st.conns).1 = st.enumerated)

def NvmlDevice.isHost : NvmlDevice → Bool
  | onHost _ => true
  | onServer .. => false

def NvmlDevice.isOn (server : ℕ) : NvmlDevice → Bool
  | onHost _ => false
  | onServer server' _ => server' = server

/-- A device that the handle was given out for. -/
def NvmlClient.Denotes (st : NvmlClient) (handle : ℕ) (p : NvmlDevice → Bool) : Prop :=
  ∃ d ∈ st.denoted handle, p d = true

/-- Calls are made with handles that were given out, event sets are used where they were created
and report no event, and enumerations agree. -/
def NvmlCall.Known (st : NvmlClient) : NvmlCall → Prop
  | init _ | shutdown | eventSetCreate _ => True
  | handleByIndex e _ | handleByName e .. | handleByPciBusId e .. => st.Finds e
  | device e e' handle => st.Finds e ∧ (st.ensureDevices e).1.Finds e' ∧
    (((st.ensureDevices e).1.ensureDevices e').2 = true →
      st.denoted handle ≠ [] ∧
        (st.Denotes handle NvmlDevice.isHost → (st.ensureDevices e).2 = true))
  | eventSetWait set answer => 0 < st.refcount → 0 ∈ st.setOwners set ∧ ∀ d ∈ answer, d = 0
  | eventSetFree set => 0 < st.refcount → 0 ∈ st.setOwners set
  | registerEvents e handle set => st.Finds e ∧
    ((st.ensureDevices e).2 = true → 0 ∈ st.setOwners set ∧ st.Denotes handle (NvmlDevice.isOn 0))

instance (st : NvmlClient) (e : NvmlEnumeration) : Decidable (st.Finds e) :=
  inferInstanceAs (Decidable (_ → _ → _ ∧ _))

instance (st : NvmlClient) (handle : ℕ) (p : NvmlDevice → Bool) :
    Decidable (st.Denotes handle p) := inferInstanceAs (Decidable (∃ d ∈ _, _))

instance (st : NvmlClient) : ∀ call : NvmlCall, Decidable (call.Known st)
  | .init _ | .shutdown | .eventSetCreate _ => inferInstanceAs (Decidable True)
  | .handleByIndex .. | .handleByName .. | .handleByPciBusId .. =>
    inferInstanceAs (Decidable (NvmlClient.Finds ..))
  | .device .. => inferInstanceAs (Decidable (_ ∧ _ ∧ (_ → _ ∧ (_ → _))))
  | .eventSetWait .. => inferInstanceAs (Decidable (_ → _ ∧ ∀ _ ∈ _, _))
  | .eventSetFree _ => inferInstanceAs (Decidable (_ → _))
  | .registerEvents .. => inferInstanceAs (Decidable (_ ∧ (_ → _ ∧ _)))

/-! ## The invariant

The handles given out are addresses of what the last enumeration found, and the address of an entry
is mapped to it. -/

namespace NvmlClient

variable {st : NvmlClient} {e : NvmlEnumeration} {i : ℕ} {handle : ℕ} {entry : NvmlSlot}

/-- The table is in the memory that the vector keeps, and the handles given out are addresses of the
devices that the last enumeration found. -/
structure Sound (st : NvmlClient) : Prop where
  connected : 0 < st.refcount → 0 < st.conns
  empty : st.ready = false → st.entries = []
  enumerated : st.ready = true → st.enumerated = st.entries
  capacity : st.entries.length ≤ st.capacity
  base : 0 < st.capacity → 0 < st.base
  fits : st.given ≠ [] → st.enumerated.length ≤ st.capacity
  given : ∀ g ∈ st.given, ∃ i entry, st.enumerated[i]? = some entry ∧ st.addressOf i = g.1 ∧
    entry.device = g.2
  sent : ∀ message ∈ st.sent, message.Right

theorem mem_denoted {d : NvmlDevice} : d ∈ st.denoted handle ↔ (handle, d) ∈ st.given := by
  rw [denoted, List.mem_map]
  constructor
  · rintro ⟨g, hg, rfl⟩
    obtain ⟨hmem, hkey⟩ := List.mem_filter.mp hg
    obtain rfl := of_decide_eq_true hkey
    exact hmem
  · exact fun h ↦ ⟨_, List.mem_filter.mpr ⟨h, decide_eq_true rfl⟩, rfl⟩

theorem mappedDevice_addressOf (hbase : 0 < st.base) (hentry : st.entries[i]? = some entry) :
    st.mappedDevice (st.addressOf i) = some entry := by
  have hi : i < st.entries.length := (List.getElem?_eq_some_iff.mp hentry).1
  have hne : st.entries ≠ [] := List.ne_nil_of_length_pos (Nat.zero_lt_of_lt hi)
  have hbytes : 0 < nvmlEntryBytes := by decide
  have hoffset : st.addressOf i - st.base = i * nvmlEntryBytes := Nat.add_sub_cancel_left ..
  have hend : st.addressOf i < st.base + st.entries.length * nvmlEntryBytes :=
    Nat.add_lt_add_left (Nat.mul_lt_mul_of_pos_right hi hbytes) _
  have hbegin : st.base ≤ st.addressOf i := Nat.le_add_right ..
  rw [mappedDevice, if_neg, if_neg, hoffset, Nat.mul_div_cancel _ hbytes, hentry]
  · rw [hoffset, Nat.mul_mod_left]
    omega
  · rintro (hzero | hnil)
    · omega
    · exact hne hnil

/-- A handle that was given out is mapped to the entry of its device. -/
theorem Sound.mapped (h : st.Sound) (hready : st.ready = true) {d : NvmlDevice}
    (hgiven : (handle, d) ∈ st.given) :
    ∃ entry, st.mappedDevice handle = some entry ∧ entry.device = d := by
  obtain ⟨i, entry, hentry, haddress, hdevice⟩ := h.given _ hgiven
  rw [h.enumerated hready] at hentry
  have hpos : 0 < st.entries.length :=
    Nat.zero_lt_of_lt (List.getElem?_eq_some_iff.mp hentry).1
  have hbase := h.base (Nat.lt_of_lt_of_le hpos h.capacity)
  obtain rfl : st.addressOf i = handle := haddress
  exact ⟨entry, mappedDevice_addressOf hbase hentry, hdevice⟩

theorem Sound.stable (h : st.Sound) : st.Stable := by
  intro hready g hg
  exact h.mapped hready hg

/-! ### Enumerating

The vector does not grow while handles are out, so its memory stays where it is. -/

theorem grow_of_le {n : ℕ} (h : n ≤ st.capacity) : st.grow e n = st := if_pos h

theorem sound_grow_capacity (st : NvmlClient) (e : NvmlEnumeration) (n : ℕ) :
    n ≤ (st.grow e n).capacity := by
  by_cases h : n ≤ st.capacity
  · rwa [grow_of_le h]
  · rw [grow, if_neg h]
    exact Nat.le_max_left ..

theorem grow_base (h : st.Sound) (e : NvmlEnumeration) (n : ℕ) :
    0 < (st.grow e n).capacity → 0 < (st.grow e n).base := by
  by_cases hn : n ≤ st.capacity
  · rw [grow_of_le hn]
    exact h.base
  · rw [grow, if_neg hn]
    exact fun _ ↦ e.address_pos

theorem ensureDevices_frame (st : NvmlClient) (e : NvmlEnumeration) :
    (st.ensureDevices e).1.given = st.given ∧ (st.ensureDevices e).1.sent = st.sent ∧
      (st.ensureDevices e).1.sets = st.sets ∧ (st.ensureDevices e).1.refcount = st.refcount ∧
      (st.ensureDevices e).1.conns = st.conns := by
  have hgrow : ∀ n, (st.grow e n).given = st.given ∧ (st.grow e n).sent = st.sent ∧
      (st.grow e n).sets = st.sets ∧ (st.grow e n).refcount = st.refcount ∧
      (st.grow e n).conns = st.conns := by
    intro n
    rw [grow]
    split_ifs <;> exact ⟨rfl, rfl, rfl, rfl, rfl⟩
  rw [ensureDevices]
  split_ifs
  · exact ⟨rfl, rfl, rfl, rfl, rfl⟩
  · exact ⟨rfl, rfl, rfl, rfl, rfl⟩
  · simp only
    split_ifs <;> exact hgrow _

theorem ready_of_ensureDevices (h : (st.ensureDevices e).2 = true) :
    (st.ensureDevices e).1.ready = true := by
  rw [ensureDevices] at h ⊢
  by_cases hdown : st.refcount = 0 ∨ st.conns = 0
  · rw [if_pos hdown] at h
    exact (nomatch h)
  by_cases hready : st.ready = true
  · rw [if_neg hdown, if_pos hready]
    exact hready
  rw [if_neg hdown, if_neg hready] at h ⊢
  simp only at h ⊢
  split_ifs at h ⊢
  rfl

theorem Sound.ensureDevices (h : st.Sound) (hfinds : st.Finds e) :
    (st.ensureDevices e).1.Sound := by
  obtain ⟨hgiven, hsent, -, hrefs, hconns⟩ := ensureDevices_frame st e
  by_cases hdown : st.refcount = 0 ∨ st.conns = 0
  · rw [NvmlClient.ensureDevices, if_pos hdown]
    exact h
  by_cases hready : st.ready = true
  · rw [NvmlClient.ensureDevices, if_neg hdown, if_pos hready]
    exact h
  have hnot : st.ready = false := eq_false_of_ne_true hready
  have heq : st.ensureDevices e =
      if (e.pushed st.conns).2 then
        ({ st.grow e (e.pushed st.conns).1.length with
          entries := (e.pushed st.conns).1, ready := true
          enumerated := (e.pushed st.conns).1 }, true)
      else ({ st.grow e (e.pushed st.conns).1.length with entries := [] }, false) := by
    rw [NvmlClient.ensureDevices, if_neg hdown, if_neg hready]
  -- With handles out, what is pushed fits where the table was.
  have hplace : st.given ≠ [] → st.grow e (e.pushed st.conns).1.length = st := fun hne ↦
    grow_of_le ((hfinds hne hnot).1.length_le.trans (h.fits hne))
  have hgrowReady : (st.grow e (e.pushed st.conns).1.length).ready = st.ready := by
    rw [grow]
    split_ifs <;> rfl
  have hgrowEnumerated : (st.grow e (e.pushed st.conns).1.length).enumerated = st.enumerated := by
    rw [grow]
    split_ifs <;> rfl
  constructor
  · rw [hrefs, hconns]
    exact h.connected
  · rw [heq]
    split_ifs
    · exact fun hfalse ↦ (nomatch hfalse)
    · exact fun _ ↦ rfl
  · rw [heq]
    split_ifs
    · exact fun _ ↦ rfl
    · intro htrue
      exact absurd (hgrowReady.symm.trans htrue) hready
  · rw [heq]
    split_ifs
    · exact sound_grow_capacity ..
    · exact Nat.zero_le _
  · rw [heq]
    split_ifs <;> exact grow_base h e _
  · rw [hgiven]
    intro hne
    rw [heq]
    split_ifs with hok
    · exact sound_grow_capacity ..
    · simp only
      rw [hplace hne]
      exact h.fits hne
  · rw [hgiven]
    intro g hg
    have hne := List.ne_nil_of_mem hg
    obtain ⟨i, entry, hentry, haddress, hdevice⟩ := h.given g hg
    refine ⟨i, entry, ?_, ?_, hdevice⟩
    · rw [heq]
      split_ifs with hok
      · rw [← (hfinds hne hnot).2 hok] at hentry
        exact hentry
      · exact (congrArg (fun l : List NvmlSlot ↦ l[i]?) hgrowEnumerated).trans hentry
    · have hbase : (st.ensureDevices e).1.base = st.base := by
        rw [heq]
        have hgrow := congrArg NvmlClient.base (hplace hne)
        split_ifs <;> exact hgrow
      rw [addressOf, hbase]
      exact haddress
  · rw [hsent]
    exact h.sent

/-! ### Looking devices up

An entry of a server is sent under the handle that the server returned. The search for a PCI id asks
every entry over its own handle. -/

theorem Sound.give (h : st.Sound) (hready : st.ready = true) (i : ℕ) : (st.give i).Sound := by
  rw [NvmlClient.give]
  cases hentry : st.entries[i]? with
  | none => exact h
  | some entry =>
    refine ⟨h.connected, h.empty, h.enumerated, h.capacity, h.base, fun _ ↦ ?_, ?_, h.sent⟩
    · show st.enumerated.length ≤ st.capacity
      rw [h.enumerated hready]
      exact h.capacity
    · intro g hg
      rcases List.mem_cons.mp hg with rfl | hg
      · exact ⟨i, entry, (h.enumerated hready).symm ▸ hentry, rfl, rfl⟩
      · exact h.given g hg

theorem Sound.send (h : st.Sound) {message : NvmlMessage} (hright : message.Right) :
    (st.send message).Sound := by
  refine ⟨h.connected, h.empty, h.enumerated, h.capacity, h.base, h.fits, h.given, ?_⟩
  intro m hm
  rcases List.mem_cons.mp hm with rfl | hm
  · exact hright
  · exact h.sent m hm

/-- After an enumeration that succeeds, something is done with a table that is ready. -/
theorem Sound.afterEnsure (h : st.Sound) (hfinds : st.Finds e) {f : NvmlClient → NvmlClient}
    (hf : ∀ st : NvmlClient, st.Sound → st.ready = true → (f st).Sound) :
    (if (st.ensureDevices e).2 then f (st.ensureDevices e).1
      else (st.ensureDevices e).1).Sound := by
  split_ifs with hok
  · exact hf _ (h.ensureDevices hfinds) (ready_of_ensureDevices hok)
  · exact h.ensureDevices hfinds

theorem lookupServers_cases (st : NvmlClient) (answers : List (Option ℕ)) (i n : ℕ) :
    st.lookupServers answers i n = st ∨ ∃ k, st.lookupServers answers i n = st.give k := by
  induction n generalizing i with
  | zero => exact Or.inl rfl
  | succ n ih =>
    rw [lookupServers]
    split
    · split
      · next index _ => exact Or.inr ⟨index, rfl⟩
      · exact ih (i + 1)
    · exact ih (i + 1)

theorem Sound.lookupDeviceOnAllConnections (h : st.Sound) (hfinds : st.Finds e)
    (answers : List (Option ℕ)) : (st.lookupDeviceOnAllConnections e answers).Sound := by
  refine h.afterEnsure (f := fun st ↦ st.lookupServers answers 0 st.conns) hfinds
    fun st hst hready ↦ ?_
  rcases lookupServers_cases st answers 0 st.conns with hsame | ⟨k, hgive⟩
  · simp only [hsame]
    exact hst
  · simp only [hgive]
    exact hst.give hready k

theorem Sound.mapLocalDevice (h : st.Sound) (hfinds : st.Finds e) (handle : ℕ) :
    (st.mapLocalDevice e handle).Sound := by
  refine h.afterEnsure (f := fun st ↦
    match st.entries.findIdx? fun c ↦ c.isLocal ∧ c.localDevice = handle with
    | some i => st.give i
    | none => st) hfinds fun st hst hready ↦ ?_
  split
  · exact hst.give hready _
  · exact hst

theorem Sound.deviceGetHandleByName (h : st.Sound) (hfinds : st.Finds e)
    (localAnswer : Option ℕ) (answers : List (Option ℕ)) :
    (st.deviceGetHandleByName e localAnswer answers).Sound := by
  cases localAnswer with
  | none => exact h.lookupDeviceOnAllConnections hfinds answers
  | some handle => exact h.mapLocalDevice hfinds handle

/-- An entry of a server is sent under the handle that the server returned. -/
theorem right_of_entry (hremote : entry.isLocal = false) {devices : List NvmlDevice}
    (hmem : entry.device ∈ devices) :
    NvmlDevice.onServer entry.connIndex entry.remoteDevice ∈ devices := by
  rw [NvmlSlot.device, hremote] at hmem
  exact hmem

theorem right_of_asked (hremote : ¬entry.isLocal = true) :
    NvmlMessage.Right ⟨entry.connIndex, some (entry.remoteDevice, [entry.device]), none⟩ := by
  constructor
  · intro d hd
    obtain rfl := Option.some.inj hd
    exact right_of_entry (eq_false_of_ne_true hremote) (List.mem_singleton_self _)
  · exact fun s hs ↦ (nomatch hs)

theorem Sound.searchPci (target : ℕ) (found : ℕ → Bool) (n : ℕ) :
    ∀ (st : NvmlClient) (i : ℕ), st.Sound → st.ready = true →
      (NvmlClient.searchPci target found st i n).Sound := by
  induction n with
  | zero => exact fun st i hst _ ↦ hst
  | succ n ih =>
    intro st i hst hready
    rw [NvmlClient.searchPci]
    split
    · next entry hentry =>
      split_ifs with hskip hconn hfound hfound
      · exact ih st (i + 1) hst hready
      all_goals
        have hright := right_of_asked (not_or.mp hskip).1
      · exact (hst.send hright).give hready i
      · exact ih _ (i + 1) (hst.send hright) hready
      · exact hst.give hready i
      · exact ih st (i + 1) hst hready
    · exact hst

/-! ### Calling a device

Nothing is sent unless there is a table. -/

theorem ensured_of_connectionForDevice {target : ℕ × ℕ}
    (hsome : (st.connectionForDevice e handle).2 = some target) :
    (st.ensureDevices e).2 = true := by
  by_contra hok
  rw [NvmlClient.connectionForDevice] at hsome
  simp only [eq_false_of_ne_true hok] at hsome
  exact (nomatch hsome)

theorem Sound.connectionForDevice (h : st.Sound) (hfinds : st.Finds e) {server value : ℕ}
    {d : NvmlDevice} (hgiven : d ∈ st.denoted handle)
    (hsome : (st.connectionForDevice e handle).2 = some (server, value)) :
    ∃ entry : NvmlSlot, entry.device = d ∧ server = entry.connIndex ∧
      value = entry.remoteDevice := by
  have hok := ensured_of_connectionForDevice hsome
  obtain ⟨hframe, -⟩ := ensureDevices_frame st e
  obtain ⟨entry, hmapped, hdevice⟩ := (h.ensureDevices hfinds).mapped (ready_of_ensureDevices hok)
    (hframe.symm ▸ mem_denoted.mp hgiven : (handle, d) ∈ (st.ensureDevices e).1.given)
  refine ⟨entry, hdevice, ?_⟩
  rw [NvmlClient.connectionForDevice] at hsome
  simp only [hok, if_true, hmapped] at hsome
  split_ifs at hsome
  obtain ⟨rfl, rfl⟩ := Prod.mk.inj (Option.some.inj hsome)
  exact ⟨rfl, rfl⟩

theorem connectionForDevice_fst (st : NvmlClient) (e : NvmlEnumeration) (handle : ℕ) :
    (st.connectionForDevice e handle).1 = (st.ensureDevices e).1 := by
  rw [connectionForDevice]
  simp only
  split_ifs
  · rfl
  · split <;> rfl
  · rfl

theorem isHost_device : NvmlDevice.isHost entry.device = entry.isLocal := by
  by_cases hlocal : entry.isLocal = true
  · rw [NvmlSlot.device, if_pos hlocal, hlocal]
    rfl
  · rw [NvmlSlot.device, if_neg hlocal, eq_false_of_ne_true hlocal]
    rfl

theorem denoted_ensureDevices (st : NvmlClient) (e : NvmlEnumeration) (handle : ℕ) :
    (st.ensureDevices e).1.denoted handle = st.denoted handle := by
  rw [denoted, (ensureDevices_frame st e).1, denoted]

theorem Sound.callDevice (h : st.Sound) {e' : NvmlEnumeration}
    (hknown : NvmlCall.Known st (.device e e' handle)) : (st.callDevice e e' handle).Sound := by
  obtain ⟨hfinds, hfinds', hsends⟩ := hknown
  have hsound := h.ensureDevices hfinds
  have hsound' := hsound.ensureDevices hfinds'
  have hfst := connectionForDevice_fst (st.ensureDevices e).1 e' handle
  rw [NvmlClient.callDevice]
  simp only
  split_ifs with hlocal
  · exact hsound
  split
  · next st' server value heq =>
    rw [heq] at hfst
    obtain rfl : st' = ((st.ensureDevices e).1.ensureDevices e').1 := hfst
    have hsome := congrArg Prod.snd heq
    obtain ⟨hne, hhost⟩ := hsends (ensured_of_connectionForDevice hsome)
    obtain ⟨d, hd⟩ := List.exists_mem_of_ne_nil _ hne
    have hd' : d ∈ (st.ensureDevices e).1.denoted handle := by rwa [denoted_ensureDevices]
    obtain ⟨entry, hdevice, rfl, rfl⟩ := hsound.connectionForDevice hfinds' hd' hsome
    have hremote : entry.isLocal = false := by
      -- A device of this machine was found local before the connection was looked for.
      by_contra hcontra
      have hdhost : NvmlDevice.isHost d = true := by
        rw [← hdevice, isHost_device]
        exact eq_true_of_ne_false hcontra
      have hok := hhost ⟨d, hd, hdhost⟩
      obtain ⟨entry', hmapped, hdevice'⟩ :=
        hsound.mapped (ready_of_ensureDevices hok) (mem_denoted.mp hd')
      rw [← hdevice', isHost_device] at hdhost
      rw [hok, hmapped, Option.any_some, hdhost] at hlocal
      exact hlocal rfl
    refine hsound'.send ⟨?_, fun s hs ↦ (nomatch hs)⟩
    intro p hp
    obtain rfl := Option.some.inj hp
    refine right_of_entry hremote ?_
    rwa [denoted_ensureDevices, hdevice]
  · next st' heq =>
    rw [heq] at hfst
    obtain rfl : st' = ((st.ensureDevices e).1.ensureDevices e').1 := hfst
    exact hsound'

theorem mem_setOwners {set server : ℕ} : server ∈ st.setOwners set ↔ (server, set) ∈ st.sets := by
  rw [setOwners, List.mem_map]
  constructor
  · rintro ⟨s, hs, rfl⟩
    obtain ⟨hmem, hkey⟩ := List.mem_filter.mp hs
    obtain rfl := of_decide_eq_true hkey
    exact hmem
  · exact fun h ↦ ⟨_, List.mem_filter.mpr ⟨h, decide_eq_true rfl⟩, rfl⟩

theorem connIndex_of_isOn {server : ℕ} (h : NvmlDevice.isOn server entry.device = true) :
    entry.isLocal = false ∧ entry.connIndex = server := by
  rw [NvmlSlot.device] at h
  split_ifs at h with hlocal
  · exact (nomatch h)
  · exact ⟨eq_false_of_ne_true hlocal, of_decide_eq_true h⟩

theorem Sound.callDeviceRegisterEvents (h : st.Sound) {set : ℕ}
    (hknown : NvmlCall.Known st (.registerEvents e handle set)) :
    (st.callDeviceRegisterEvents e handle set).Sound := by
  obtain ⟨hfinds, hsends⟩ := hknown
  have hsound := h.ensureDevices hfinds
  obtain ⟨-, -, hsets, -⟩ := ensureDevices_frame st e
  have hfst := connectionForDevice_fst st e handle
  rw [NvmlClient.callDeviceRegisterEvents]
  split
  · next st' server value heq =>
    rw [heq] at hfst
    obtain rfl : st' = (st.ensureDevices e).1 := hfst
    have hsome := congrArg Prod.snd heq
    obtain ⟨hset, d, hd, hon⟩ := hsends (ensured_of_connectionForDevice hsome)
    obtain ⟨entry, hdevice, rfl, rfl⟩ := h.connectionForDevice hfinds hd hsome
    obtain ⟨hremote, hzero⟩ := connIndex_of_isOn (hdevice.symm ▸ hon)
    refine hsound.send ⟨?_, ?_⟩
    · intro p hp
      obtain rfl := Option.some.inj hp
      refine right_of_entry hremote ?_
      rwa [denoted_ensureDevices, hdevice]
    · intro p hp
      obtain rfl := Option.some.inj hp
      rw [mem_setOwners, hsets]
      exact hzero.symm ▸ mem_setOwners.mp hset
  · next st' heq =>
    rw [heq] at hfst
    obtain rfl : st' = (st.ensureDevices e).1 := hfst
    exact hsound

/-! ### Event sets, init and shutdown -/

theorem Sound.withSets (h : st.Sound) (sets : List (ℕ × ℕ)) :
    ({ st with sets } : NvmlClient).Sound :=
  ⟨h.connected, h.empty, h.enumerated, h.capacity, h.base, h.fits, h.given, h.sent⟩

theorem Sound.sendSet (h : st.Sound) {set : ℕ}
    (hset : 0 < st.refcount → 0 ∈ st.setOwners set) : (st.sendSet set).Sound := by
  rw [NvmlClient.sendSet]
  split
  · next server hconnection =>
    rw [NvmlClient.connection] at hconnection
    split_ifs at hconnection with hup
    obtain rfl := Option.some.inj hconnection
    refine h.send ⟨fun d hd ↦ (nomatch hd), fun p hp ↦ ?_⟩
    obtain rfl := Option.some.inj hp
    exact hset hup.1
  · exact h

theorem Sound.callEventSetWait (h : st.Sound) {set : ℕ} {answer : Option ℕ}
    (hset : 0 < st.refcount → 0 ∈ st.setOwners set ∧ ∀ d ∈ answer, d = 0) :
    (st.callEventSetWait set answer).Sound := by
  have hsend : (st.sendSet set).Sound := h.sendSet fun hup ↦ (hset hup).1
  unfold NvmlClient.callEventSetWait
  split
  · next server device hconnection =>
    rw [NvmlClient.connection] at hconnection
    split_ifs at hconnection with hup
    rwa [if_pos ((hset hup.1).2 device rfl)]
  · exact hsend

theorem Sound.callEventSetCreate (h : st.Sound) (answer : Option ℕ) :
    (st.callEventSetCreate answer).Sound := by
  unfold NvmlClient.callEventSetCreate
  split
  · exact h.withSets _
  · exact h

theorem Sound.init (h : st.Sound) (conns : ℕ) : (st.init conns).Sound := by
  have hdown : ∀ conns : ℕ, conns ≠ 0 → NvmlClient.Sound
      { st with refcount := st.refcount + 1, conns, ready := false, entries := [] } :=
    fun conns hconns ↦ ⟨fun _ ↦ Nat.pos_of_ne_zero hconns, fun _ ↦ rfl,
      fun hready ↦ (nomatch hready), Nat.zero_le _, h.base, h.fits, h.given, h.sent⟩
  show NvmlClient.Sound (if (if st.conns = 0 then conns else st.conns) = 0 then st else _)
  by_cases hzero : (if st.conns = 0 then conns else st.conns) = 0
  · rwa [if_pos hzero]
  · rw [if_neg hzero]
    exact hdown _ hzero

theorem Sound.shutdown (h : st.Sound) : st.shutdown.Sound := by
  rw [NvmlClient.shutdown]
  split_ifs with hzero hone
  · exact h
  · exact ⟨fun hpos ↦ absurd hpos (Nat.lt_irrefl 0), fun _ ↦ rfl, fun hready ↦ (nomatch hready),
      Nat.zero_le _, h.base, fun hne ↦ absurd rfl hne, fun g hg ↦ (nomatch hg), h.sent⟩
  · exact ⟨fun _ ↦ h.connected (Nat.pos_of_ne_zero hzero), h.empty, h.enumerated, h.capacity,
      h.base, h.fits, h.given, h.sent⟩

theorem Sound.apply (h : st.Sound) {call : NvmlCall} (hknown : call.Known st) :
    (st.apply call).Sound := by
  rcases call with conns | - | ⟨e, index⟩ | ⟨e, localAnswer, answers⟩ | ⟨e, target, found⟩ |
    ⟨e, e', handle⟩ | answer | ⟨set, answer⟩ | set | ⟨e, handle, set⟩
  · exact h.init conns
  · exact h.shutdown
  · exact h.afterEnsure (f := fun st ↦ st.give index) hknown fun st hst hready ↦
      hst.give hready index
  · exact h.deviceGetHandleByName hknown localAnswer answers
  · exact h.afterEnsure (f := fun st ↦ NvmlClient.searchPci target found st 0 st.entries.length)
      hknown fun st hst hready ↦ Sound.searchPci target found _ st 0 hst hready
  · exact h.callDevice hknown
  · exact h.callEventSetCreate answer
  · exact h.callEventSetWait hknown
  · exact (h.sendSet hknown).withSets _
  · exact h.callDeviceRegisterEvents hknown

theorem sound_init : ({} : NvmlClient).Sound :=
  ⟨fun hpos ↦ absurd hpos (by decide), fun _ ↦ rfl, fun hready ↦ (nomatch hready), le_rfl,
    fun hpos ↦ absurd hpos (by decide), fun hne ↦ absurd rfl hne, fun g hg ↦ (nomatch hg),
    fun m hm ↦ (nomatch hm)⟩

end NvmlClient

/-! ## The runs -/

/-- **Every handle that is sent is the server's own**, for the object that the program's handle
denotes, and a handle that was given out keeps its device, when the program uses the handles it was
given where they belong, enumerations agree and no event is reported. -/
theorem nvml_handles_own {calls : List NvmlCall} {st : NvmlClient}
    (hrun : (nvmlShim.restrict fun st call ↦ call.Known st).run {} calls = some st) :
    (∀ message ∈ st.sent, message.Right) ∧ st.Stable := by
  have hsound : st.Sound := by
    refine Machine.run_invariant _ ?_ NvmlClient.sound_init hrun
    intro st call st' hst hstep
    obtain ⟨hknown, hstep⟩ := Machine.step_restrict.mp hstep
    exact Option.some.inj hstep ▸ hst.apply hknown
  exact ⟨hsound.sent, hsound.stable⟩

/-- A pool of one local device and two servers, with a nested init between two calls. -/
theorem nvml_handles_own_nestedInit :
    let e : NvmlEnumeration := { locals := [9], servers := [([5], true), ([5, 6], true)] }
    ∃ st : NvmlClient, (nvmlShim.restrict fun st call ↦ call.Known st).run {}
      [.init 2, .handleByIndex e 0, .handleByIndex e 3, .handleByName e none [none, some 5],
        .device e e 256, .device e e 64, .init 2, .device e e 192, .eventSetCreate (some 7),
        .handleByIndex e 1, .registerEvents e 128 7, .eventSetWait 7 (some 0), .shutdown]
        = some st ∧
      (∀ message ∈ st.sent, message.Right) ∧ st.Stable := by
  intro e
  refine (Option.isSome_iff_exists.mp ?_).imp fun st hrun ↦ ⟨hrun, nvml_handles_own hrun⟩
  decide +kernel

/-- A device of the second server is registered with an event set of the first, and a handle that
was never given out is sent to the first server as it is. An event gives out the server's handle,
which denotes no entry. -/
theorem foreign_handles_sent :
    let e : NvmlEnumeration := { servers := [([5], true), ([5], true)] }
    (∃ st : NvmlClient, nvmlShim.run {}
      [.init 2, .handleByIndex e 1, .eventSetCreate (some 7), .registerEvents e 128 7,
        .device e e 1000] = some st ∧
      (∃ message ∈ st.sent, message.server = 1 ∧ ¬message.Right) ∧
      ∃ message ∈ st.sent, message.device = some (1000, []) ∧ ¬message.Right) ∧
    ∃ st : NvmlClient, nvmlShim.run {}
      [.init 2, .handleByIndex e 0, .eventSetCreate (some 7), .registerEvents e 64 7,
        .eventSetWait 7 (some 5)] = some st ∧ ¬st.Stable := by
  intro e
  constructor
  · refine ⟨_, rfl, ⟨⟨1, some (5, [.onServer 1 5]), some (7, [0])⟩, by decide +kernel, rfl,
      fun h ↦ ?_⟩, ⟨⟨0, some (1000, []), none⟩, by decide +kernel, rfl, fun h ↦ ?_⟩⟩
    · exact absurd (h.set _ rfl) (by decide)
    · exact absurd (h.device _ rfl) (by decide)
  · have hgiven : (nvmlShim.run {}
        [.init 2, .handleByIndex e 0, .eventSetCreate (some 7), .registerEvents e 64 7,
          .eventSetWait 7 (some 5)]).any fun st ↦
            st.ready && decide ((5, .onServer 0 5) ∈ st.given) && st.mappedDevice 5 == none := by
      decide +kernel
    obtain ⟨st, hrun, hst⟩ := (Option.any_eq_true _ _).mp hgiven
    rw [Bool.and_eq_true, Bool.and_eq_true, decide_eq_true_eq, beq_iff_eq] at hst
    obtain ⟨⟨hready, hmem⟩, hunmapped⟩ := hst
    refine ⟨st, hrun, fun hstable ↦ ?_⟩
    obtain ⟨entry, hentry, -⟩ := hstable hready _ hmem
    rw [hunmapped] at hentry
    exact nomatch hentry

end Lupine
