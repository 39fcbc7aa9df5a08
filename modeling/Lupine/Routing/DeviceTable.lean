import Lupine.Foundation.Gather
import Lupine.Foundation.UniqueMatch
import Lupine.Routing.Routes
import Lupine.Transport.Framing

/-!
# The device table

The client shows the devices of the local driver and of every server under one range of ordinals.
The table behind them is built once, by asking the local driver and then each server in turn; local
devices that cannot be had are left out, a remote query that fails ends the construction. Four
functions look the table up, two from the ordinal and two back to it.

A `CUdevice` is an `int`: a handle of one driver, or an ordinal. A handle means something to its own
driver only; equal handles of two servers are different devices.

## Enumeration and table

The enumeration is the list that the table should be: the local devices that can be had, then those
of each server. The construction gives this list or fails with the result of the query that failed.
The lookups are then shown to be inverse for every table in which no device comes twice and whose
length is an `int`, and the enumeration is such a table when drivers name their devices apart.
-/

namespace Lupine

open Foundation

/-! ## Construction

A server that could not be asked is like one that answers with an error. The functions return the
table together with the result. -/

/-- `CUDA_ERROR_INVALID_DEVICE`. -/
def errorInvalidDevice : CUresult := .error 101

/-- `lupine_device_entry`; `isLocal` is `local`. -/
structure DeviceEntry where
  isLocal : Bool := false
  localDevice : ℤ := -1
  connIndex : ℕ := 0
  remoteDevice : ℤ := 0
  deriving DecidableEq, Repr

def localEntry (device : ℤ) : DeviceEntry := { isLocal := true, localDevice := device }

def remoteEntry (index : ℕ) (device : ℤ) : DeviceEntry :=
  { isLocal := false, connIndex := index, remoteDevice := device }

/-- What a driver answers to `cuDeviceGetCount` and, for each ordinal, to `cuDeviceGet`. For a
server the result of a query that could not be sent or answered is `CUDA_ERROR_DEVICE_UNAVAILABLE`
as well. -/
structure DeviceAnswers where
  countResult : CUresult
  count : ℤ
  getResult : ℕ → CUresult
  device : ℕ → ℤ

/-- What the construction meets: the local driver, if its functions are there, the result of its
`cuInit`, and the servers behind the open connections. When `rpc_open` fails there are none. -/
structure DeviceWorld where
  client : Connections := {}
  localFunctions : Bool := true
  localInit : CUresult := .success
  localAnswers : DeviceAnswers
  serverAnswers : ℕ → DeviceAnswers

/-- `lupine_device_table` with `lupine_device_table_ready`. -/
structure DeviceTable where
  devices : List DeviceEntry := []
  ready : Bool := false
  deriving DecidableEq, Repr

namespace DeviceWorld

variable (world : DeviceWorld)

/-- The first half of `lupine_ensure_device_table`. -/
def localDevices : List DeviceEntry :=
  if world.localFunctions = true ∧ world.localInit = .success ∧
      world.localAnswers.countResult = .success ∧ 0 < world.localAnswers.count then
    ((List.range world.localAnswers.count.toNat).filter fun ordinal ↦
      world.localAnswers.getResult ordinal = .success).map fun ordinal ↦
        localEntry (world.localAnswers.device ordinal)
  else []

/-- The body of the loop over the ordinals of one server. -/
def serverDevice (index ordinal : ℕ) : Except CUresult (List DeviceEntry) :=
  if (world.serverAnswers index).getResult ordinal ≠ .success then
    .error ((world.serverAnswers index).getResult ordinal)
  else .ok [remoteEntry index ((world.serverAnswers index).device ordinal)]

def serverDevices (index : ℕ) : Except CUresult (List DeviceEntry) :=
  if (world.serverAnswers index).countResult ≠ .success then
    .error (world.serverAnswers index).countResult
  else gather (world.serverDevice index) (List.range (world.serverAnswers index).count.toNat) []

/-- `lupine_ensure_device_table`. -/
def ensureDeviceTable (table : DeviceTable) : CUresult × DeviceTable :=
  if table.ready then (.success, table)
  else
    match gather world.serverDevices (List.range world.client.conns.length) world.localDevices with
    | .error result => (result, { devices := [], ready := false })
    | .ok [] => (.errorDeviceUnavailable, { devices := [], ready := false })
    | .ok devices => (.success, { devices := devices, ready := true })

end DeviceWorld

/-! ## Lookups

Each begins with `lupine_ensure_device_table`, whose result and table they are given. -/

variable (client : Connections) (ensured : CUresult × DeviceTable)

/-- `lupine_virtual_device_count`. -/
def virtualDeviceCount : Except CUresult ℤ :=
  if ensured.1 ≠ .success then .error ensured.1
  else .ok (staticCastInt ensured.2.devices.length)

/-- `lupine_virtual_device_for_ordinal`. -/
def virtualDeviceForOrdinal (ordinal : ℤ) : Except CUresult ℤ :=
  if ensured.1 ≠ .success then .error ensured.1
  else if ordinal < 0 ∨ staticCastInt ensured.2.devices.length ≤ ordinal then
    .error errorInvalidDevice
  else .ok ordinal

/-- `lupine_route_for_device`, with the device that is left in the argument. -/
def routeForDevice (device : ℤ) : Route × ℤ :=
  if ensured.1 ≠ .success then (⟨.invalid, none⟩, device)
  else if device < 0 ∨ staticCastInt ensured.2.devices.length ≤ device then
    (⟨.unknownDevice, none⟩, device)
  else
    let mapped := ensured.2.devices.getD device.toNat {}
    if mapped.isLocal then (localRoute, mapped.localDevice)
    else (remoteRouteForConn (rpcClientGetConnection client mapped.connIndex), mapped.remoteDevice)

/-- `lupine_translate_device_for_conn`. -/
def translateDeviceForConn (conn : Option Conn) (device : ℤ) : Option ℤ :=
  if conn = none ∨ ensured.1 ≠ .success then none
  else if connIndex client conn < 0 then none
  else if device < 0 ∨ staticCastInt ensured.2.devices.length ≤ device then none
  else
    let mapped := ensured.2.devices.getD device.toNat {}
    if mapped.isLocal ∨ (mapped.connIndex : ℤ) ≠ connIndex client conn then none
    else some mapped.remoteDevice

/-- The test in the loop of `lupine_virtual_device_for_route`. -/
def deviceMatches (route : Route) (routeDevice : ℤ) (candidate : DeviceEntry) : Bool :=
  if route.kind = .localDriver then candidate.isLocal && candidate.localDevice == routeDevice
  else !candidate.isLocal && (candidate.connIndex : ℤ) == connIndex client route.conn &&
    candidate.remoteDevice == routeDevice

/-- `lupine_virtual_device_for_route`. -/
def virtualDeviceForRoute (table : DeviceTable) (route : Route) (routeDevice : ℤ) :
    ℤ :=
  if route.kind = .remote ∧ connIndex client route.conn < 0 then -1
  else if route.kind ≠ .remote ∧ route.kind ≠ .localDriver then -1
  else
    match table.devices.findIdx? (deviceMatches client route routeDevice) with
    | some i => staticCastInt i
    | none => -1

/-- `lupine_local_device_for_remote`. -/
def localDeviceForRemote (conn : Option Conn) (remoteDevice : ℤ) : ℤ :=
  if conn = none ∨ ensured.1 ≠ .success then -1
  else virtualDeviceForRoute client ensured.2 (remoteRouteForConn conn) remoteDevice

/-! ## The enumeration

A device that is enumerated comes from the local driver or a connected server, and its place in the
list of that driver is its ordinal there, so none comes twice. -/

namespace DeviceWorld

variable (world : DeviceWorld)

def serverEnumeration (index : ℕ) : List DeviceEntry :=
  (List.range (world.serverAnswers index).count.toNat).map fun ordinal ↦
    remoteEntry index ((world.serverAnswers index).device ordinal)

/-- The local devices and then the devices of each server. -/
def enumeration : List DeviceEntry :=
  world.localDevices ++ (List.range world.client.conns.length).flatMap world.serverEnumeration

/-- A query of a server fails. -/
def QueryFails : Prop :=
  ∃ index < world.client.conns.length, (world.serverAnswers index).countResult ≠ .success ∨
    ∃ ordinal < (world.serverAnswers index).count.toNat,
      (world.serverAnswers index).getResult ordinal ≠ .success

/-- Drivers name their devices by different handles. -/
structure HandlesDistinct : Prop where
  ofLocal : ∀ ordinal ordinal', ordinal < world.localAnswers.count.toNat →
    ordinal' < world.localAnswers.count.toNat →
      world.localAnswers.device ordinal = world.localAnswers.device ordinal' → ordinal = ordinal'
  ofServer : ∀ index < world.client.conns.length, ∀ ordinal ordinal',
    ordinal < (world.serverAnswers index).count.toNat →
      ordinal' < (world.serverAnswers index).count.toNat →
        (world.serverAnswers index).device ordinal = (world.serverAnswers index).device ordinal' →
          ordinal = ordinal'

variable {world}

theorem serverDevice_eq_ok {index ordinal : ℕ}
    (h : (world.serverAnswers index).getResult ordinal = .success) :
    world.serverDevice index ordinal =
      .ok [remoteEntry index ((world.serverAnswers index).device ordinal)] :=
  if_neg (not_not_intro h)

theorem serverDevice_eq_error {index ordinal : ℕ}
    (h : (world.serverAnswers index).getResult ordinal ≠ .success) :
    world.serverDevice index ordinal = .error ((world.serverAnswers index).getResult ordinal) :=
  if_pos h

theorem serverDevices_eq_ok {index : ℕ}
    (hcount : (world.serverAnswers index).countResult = .success)
    (hget : ∀ ordinal < (world.serverAnswers index).count.toNat,
      (world.serverAnswers index).getResult ordinal = .success) :
    world.serverDevices index = .ok (world.serverEnumeration index) := by
  rw [serverDevices, if_neg (not_not_intro hcount),
    gather_eq_ok fun ordinal hmem ↦ serverDevice_eq_ok (hget ordinal (List.mem_range.mp hmem)),
    List.nil_append, serverEnumeration, List.map_eq_flatMap]

theorem serverDevices_eq_error {index : ℕ}
    (h : (world.serverAnswers index).countResult ≠ .success ∨
      ∃ ordinal < (world.serverAnswers index).count.toNat,
        (world.serverAnswers index).getResult ordinal ≠ .success) :
    ∃ result, world.serverDevices index = .error result := by
  rw [serverDevices]
  split_ifs with hcount
  · exact ⟨_, rfl⟩
  · obtain ⟨ordinal, hlt, hget⟩ := h.resolve_left hcount
    obtain ⟨_, -, result, -, hgather⟩ := gather_eq_error []
      (List.mem_range.mpr hlt) (serverDevice_eq_error hget)
    exact ⟨result, hgather⟩

/-- What ends the construction is the result of a query that failed. -/
theorem ne_success_of_serverDevices {index : ℕ} {result : CUresult}
    (h : world.serverDevices index = .error result) : result ≠ .success := by
  rw [serverDevices] at h
  split_ifs at h with hcount
  · exact Except.error.inj h ▸ hcount
  · by_cases hget : ∃ ordinal < (world.serverAnswers index).count.toNat,
        (world.serverAnswers index).getResult ordinal ≠ .success
    · obtain ⟨ordinal, hlt, hget⟩ := hget
      obtain ⟨ordinal', -, result', hbody, hgather⟩ := gather_eq_error []
        (List.mem_range.mpr hlt) (serverDevice_eq_error hget)
      rw [h, Except.error.injEq] at hgather
      rw [serverDevice] at hbody
      split_ifs at hbody with hfailed
      exact hgather.symm ▸ Except.error.inj hbody ▸ hfailed
    · push Not at hget
      rw [gather_eq_ok fun ordinal hmem ↦
        serverDevice_eq_ok (hget ordinal (List.mem_range.mp hmem))] at h
      exact nomatch h

/-- **Failed construction.** A failing remote query leaves the table empty and not ready. -/
theorem ensureDeviceTable_of_queryFails {table : DeviceTable} (hready : table.ready = false)
    (hfails : world.QueryFails) :
    (world.ensureDeviceTable table).1 ≠ .success ∧ (world.ensureDeviceTable table).2 = {} := by
  obtain ⟨index, hindex, hserver⟩ := hfails
  obtain ⟨result, hresult⟩ := serverDevices_eq_error hserver
  obtain ⟨index', -, result', hbody, hgather⟩ := gather_eq_error world.localDevices
    (List.mem_range.mpr hindex) hresult
  rw [ensureDeviceTable, hready, if_neg Bool.false_ne_true, hgather]
  exact ⟨ne_success_of_serverDevices hbody, rfl⟩

theorem ensureDeviceTable_of_not_queryFails {table : DeviceTable} (hready : table.ready = false)
    (hanswer : ¬world.QueryFails) :
    world.ensureDeviceTable table = if world.enumeration = [] then (.errorDeviceUnavailable, {})
      else (.success, { devices := world.enumeration, ready := true }) := by
  have hservers : ∀ index ∈ List.range world.client.conns.length,
      world.serverDevices index = .ok (world.serverEnumeration index) := by
    intro index hmem
    apply serverDevices_eq_ok
    · by_contra hcount
      exact hanswer ⟨index, List.mem_range.mp hmem, Or.inl hcount⟩
    · intro ordinal hlt
      by_contra hget
      exact hanswer ⟨index, List.mem_range.mp hmem, Or.inr ⟨ordinal, hlt, hget⟩⟩
  rw [ensureDeviceTable, hready, if_neg Bool.false_ne_true, gather_eq_ok hservers, ← enumeration]
  cases world.enumeration <;> rfl

/-! ## Handles and entries

An entry has the index of its server, and a route is known if it is local or has such an index. -/

theorem mem_localDevices {entry : DeviceEntry} (h : entry ∈ world.localDevices) :
    entry = localEntry entry.localDevice := by
  rw [localDevices] at h
  split_ifs at h
  · obtain ⟨ordinal, -, rfl⟩ := List.mem_map.mp h
    rfl
  · exact nomatch h

theorem mem_serverEnumeration {index : ℕ} {entry : DeviceEntry}
    (h : entry ∈ world.serverEnumeration index) : entry = remoteEntry index entry.remoteDevice := by
  obtain ⟨ordinal, -, rfl⟩ := List.mem_map.mp h
  rfl

theorem mem_enumeration {entry : DeviceEntry} (h : entry ∈ world.enumeration) :
    entry = localEntry entry.localDevice ∨ entry.connIndex < world.client.conns.length ∧
      entry = remoteEntry entry.connIndex entry.remoteDevice := by
  rcases List.mem_append.mp h with h | h
  · exact Or.inl (mem_localDevices h)
  · obtain ⟨index, hindex, hmem⟩ := List.mem_flatMap.mp h
    have hentry := mem_serverEnumeration hmem
    have hconn : entry.connIndex = index := congrArg DeviceEntry.connIndex hentry
    exact Or.inr ⟨hconn ▸ List.mem_range.mp hindex, hconn ▸ hentry⟩

variable (hdistinct : world.HandlesDistinct)

include hdistinct

theorem nodup_localDevices : world.localDevices.Nodup := by
  rw [localDevices]
  split_ifs with h
  · apply List.Nodup.map_on _ (List.nodup_range.filter _)
    intro ordinal hordinal ordinal' hordinal' heq
    exact hdistinct.ofLocal ordinal ordinal' (List.mem_range.mp (List.mem_filter.mp hordinal).1)
      (List.mem_range.mp (List.mem_filter.mp hordinal').1) (congrArg DeviceEntry.localDevice heq)
  · exact List.nodup_nil

theorem nodup_serverEnumeration {index : ℕ} (hindex : index < world.client.conns.length) :
    (world.serverEnumeration index).Nodup := by
  apply List.Nodup.map_on _ List.nodup_range
  intro ordinal hordinal ordinal' hordinal' heq
  exact hdistinct.ofServer index hindex ordinal ordinal' (List.mem_range.mp hordinal)
    (List.mem_range.mp hordinal') (congrArg DeviceEntry.remoteDevice heq)

theorem nodup_enumeration : world.enumeration.Nodup := by
  apply List.Nodup.append (nodup_localDevices hdistinct)
  · rw [List.nodup_flatMap]
    refine ⟨fun index hmem ↦ nodup_serverEnumeration hdistinct (List.mem_range.mp hmem), ?_⟩
    apply List.nodup_range.imp
    intro index index' hne entry hmem hmem'
    have hentry := mem_serverEnumeration hmem
    have hentry' := mem_serverEnumeration hmem'
    exact hne (congrArg DeviceEntry.connIndex (hentry.symm.trans hentry'))
  · intro entry hmem hmem'
    obtain ⟨index, -, hserver⟩ := List.mem_flatMap.mp hmem'
    have hlocal := congrArg DeviceEntry.isLocal (mem_localDevices hmem)
    have hremote := congrArg DeviceEntry.isLocal (mem_serverEnumeration hserver)
    exact Bool.false_ne_true (hremote.symm.trans hlocal)

end DeviceWorld

/-! ## There and back

In a well-formed table an entry matches exactly the route and the handle it is the entry of. The
test in the loops therefore finds one ordinal, and the device of that ordinal is the one that was
asked for. -/

section Built

variable {client : Connections} {table : DeviceTable} {entry : DeviceEntry}

/-- The entry that a route and a handle name. -/
def entryOf (client : Connections) (route : Route) (routeDevice : ℤ) : DeviceEntry :=
  if route.kind = .localDriver then localEntry routeDevice
  else remoteEntry (connIndex client route.conn).toNat routeDevice

/-- The route and the handle of an entry. -/
def routeOfEntry (client : Connections) (entry : DeviceEntry) : Route × ℤ :=
  if entry.isLocal then (localRoute, entry.localDevice)
  else (remoteRouteForConn (rpcClientGetConnection client entry.connIndex), entry.remoteDevice)

/-- A route of the local driver, or with the index of an open connection. -/
def NamesDriver (client : Connections) (route : Route) : Prop :=
  route.kind = .localDriver ∨ route.kind = .remote ∧ 0 ≤ connIndex client route.conn

/-- The local route, or the route of an open connection. -/
def KnownRoute (client : Connections) (route : Route) : Prop :=
  route = localRoute ∨
    ∃ index, rpcClientGetConnection client index = route.conn ∧ route.conn ≠ none ∧
      route.kind = .remote

theorem KnownRoute.namesDriver {client : Connections} {route : Route}
    (hroute : KnownRoute client route) :
    NamesDriver client route := by
  rcases hroute with rfl | ⟨index, hget, hconn, hkind⟩
  · exact Or.inl rfl
  · obtain ⟨conn, hconn⟩ := Option.ne_none_iff_exists'.mp hconn
    rw [hconn] at hget
    refine Or.inr ⟨hkind, ?_⟩
    rw [hconn, connIndex_of_get hget]
    exact Int.natCast_nonneg index

/-- A table that holds devices of the local driver and of connected servers, each once, and few
enough for an `int`. -/
structure WellFormedTable (client : Connections) (table : DeviceTable) : Prop where
  entries : ∀ entry ∈ table.devices, entry = localEntry entry.localDevice ∨
    entry.connIndex < client.conns.length ∧ entry = remoteEntry entry.connIndex entry.remoteDevice
  nodup : table.devices.Nodup
  small : table.devices.length < 2 ^ 31

variable (h : WellFormedTable client table)

include h

theorem WellFormedTable.length_eq :
    staticCastInt table.devices.length = table.devices.length :=
  staticCastInt_of_lt h.small

/-- In a well-formed table an entry matches what it is the entry of. -/
theorem WellFormedTable.deviceMatches_iff {route : Route} {routeDevice : ℤ}
    (hroute : NamesDriver client route) (hentry : entry ∈ table.devices) :
    deviceMatches client route routeDevice entry = true ↔
      entry = entryOf client route routeDevice := by
  rcases h.entries entry hentry with hlocal | ⟨-, hremote⟩
  · rw [hlocal, deviceMatches, entryOf]
    split_ifs with hkind
    · simp [localEntry]
    · simp [localEntry, remoteEntry]
  · rw [hremote, deviceMatches, entryOf]
    split_ifs with hkind
    · simp [localEntry, remoteEntry]
    · have hindex := (hroute.resolve_left hkind).2
      simp only [remoteEntry, Bool.not_false, Bool.true_and, Bool.and_eq_true, beq_iff_eq,
        DeviceEntry.mk.injEq, true_and]
      constructor
      · rintro ⟨hconn, hdevice⟩
        exact ⟨by omega, hdevice⟩
      · rintro ⟨hconn, hdevice⟩
        exact ⟨by omega, hdevice⟩

theorem WellFormedTable.virtualDeviceForRoute_eq {route : Route} {routeDevice : ℤ} {i : ℕ}
    (hroute : NamesDriver client route)
    (hi : table.devices[i]? = some (entryOf client route routeDevice)) :
    virtualDeviceForRoute client table route routeDevice = i := by
  have hlt : i < table.devices.length := (List.getElem?_eq_some_iff.mp hi).1
  have hfind : table.devices.findIdx? (deviceMatches client route routeDevice) = some i := by
    apply findIdx?_eq_some_of_unique hi
    · exact (h.deviceMatches_iff hroute (List.mem_of_getElem? hi)).mpr rfl
    · intro j entry hj hmatch
      rw [(h.deviceMatches_iff hroute (List.mem_of_getElem? hj)).mp hmatch, ← hi] at hj
      exact (List.getElem?_inj hlt h.nodup |>.mp hj.symm).symm
  rw [virtualDeviceForRoute, hfind]
  rcases hroute with hlocal | ⟨hremote, hindex⟩
  · rw [hlocal, if_neg (by simp), if_neg (by simp)]
    exact staticCastInt_of_lt (hlt.trans h.small)
  · rw [hremote, if_neg (by omega), if_neg (by simp)]
    exact staticCastInt_of_lt (hlt.trans h.small)

theorem WellFormedTable.getElem?_of_virtualDeviceForRoute {route : Route} {routeDevice : ℤ}
    (hvirtual : 0 ≤ virtualDeviceForRoute client table route routeDevice) :
    NamesDriver client route ∧
      table.devices[(virtualDeviceForRoute client table route routeDevice).toNat]? =
        some (entryOf client route routeDevice) := by
  rw [virtualDeviceForRoute] at hvirtual ⊢
  split_ifs at hvirtual ⊢ with hindex hkind
  · exact absurd hvirtual (by decide)
  · exact absurd hvirtual (by decide)
  · have hroute : NamesDriver client route := by
      rw [NamesDriver]
      by_cases hlocal : route.kind = .localDriver
      · exact Or.inl hlocal
      · have hremote : route.kind = .remote := by tauto
        exact Or.inr ⟨hremote, not_lt.mp fun hlt ↦ hindex ⟨hremote, hlt⟩⟩
    refine ⟨hroute, ?_⟩
    cases hfind : table.devices.findIdx? (deviceMatches client route routeDevice) with
    | none =>
      rw [hfind] at hvirtual
      exact absurd hvirtual (by decide)
    | some i =>
      obtain ⟨hlt, hmatch, -⟩ := List.findIdx?_eq_some_iff_getElem.mp hfind
      have hcast : staticCastInt i = i := staticCastInt_of_lt (hlt.trans h.small)
      simp only [hcast, Int.toNat_natCast]
      rw [List.getElem?_eq_getElem hlt,
        (h.deviceMatches_iff hroute (List.getElem_mem hlt)).mp hmatch]

theorem WellFormedTable.routeForDevice_eq {i : ℕ} (hi : table.devices[i]? = some entry) :
    routeForDevice client (.success, table) i = routeOfEntry client entry := by
  have hlt : i < table.devices.length := (List.getElem?_eq_some_iff.mp hi).1
  rw [routeForDevice, if_neg (not_not_intro rfl), if_neg, List.getD_eq_getElem?_getD]
  · simp only [Int.toNat_natCast, hi, Option.getD_some, routeOfEntry]
  · rw [h.length_eq]
    omega

theorem WellFormedTable.translateDeviceForConn_eq_some {conn : Conn} {device handle : ℤ} :
    translateDeviceForConn client (.success, table) (some conn) device = some handle ↔
      0 ≤ connIndex client (some conn) ∧ 0 ≤ device ∧
        table.devices[device.toNat]? =
          some (remoteEntry (connIndex client (some conn)).toNat handle) := by
  rw [translateDeviceForConn, h.length_eq, if_neg (by simp)]
  split_ifs with hindex hdevice
  · simp [hindex]
  · constructor
    · exact fun hnone ↦ nomatch hnone
    · rintro ⟨-, hpos, hget⟩
      have hlt := (List.getElem?_eq_some_iff.mp hget).1
      omega
  · have hlt : device.toNat < table.devices.length := by omega
    have hget := List.getElem?_eq_getElem hlt
    simp only [List.getD_eq_getElem?_getD, hget, Option.getD_some]
    rw [Option.some_inj]
    rcases h.entries _ (List.getElem_mem hlt) with hlocal | ⟨-, hremote⟩
    · rw [hlocal]
      simp [localEntry, remoteEntry]
    · rw [hremote]
      simp only [remoteEntry, Bool.false_eq_true, false_or, DeviceEntry.mk.injEq, true_and]
      split_ifs with hconn
      · simp only [false_iff]
        omega
      · simp only [Option.some_inj]
        omega

end Built

theorem KnownRoute.routeOfEntry_entryOf {client : Connections} {route : Route}
    (hroute : KnownRoute client route) (handle : ℤ) :
    routeOfEntry client (entryOf client route handle) = (route, handle) := by
  rcases hroute with rfl | ⟨index, hget, hconn, hkind⟩
  · rfl
  · obtain ⟨kind, conn⟩ := route
    obtain ⟨conn, rfl⟩ := Option.ne_none_iff_exists'.mp hconn
    obtain rfl : kind = .remote := hkind
    rw [entryOf, if_neg (by simp), connIndex_of_get hget, Int.toNat_natCast, routeOfEntry,
      if_neg (by simp [remoteEntry])]
    simp only [remoteEntry, hget, remoteRouteForConn]

/-- The ordinals number the devices of an enumeration, and the lookups from and to them are inverse
to each other. -/
structure NumbersDevices (client : Connections) (ensured : CUresult × DeviceTable)
    (enumeration : List DeviceEntry) : Prop where
  nodup : enumeration.Nodup
  count : virtualDeviceCount ensured = .ok (enumeration.length : ℤ)
  ordinal : ∀ ordinal, virtualDeviceForOrdinal ensured ordinal =
    if 0 ≤ ordinal ∧ ordinal < enumeration.length then .ok ordinal else .error errorInvalidDevice
  route_for : ∀ (i : ℕ) entry, enumeration[i]? = some entry →
    routeForDevice client ensured i = routeOfEntry client entry
  virtual_of_route : ∀ device : ℤ, 0 ≤ device → device < enumeration.length →
    virtualDeviceForRoute client ensured.2 (routeForDevice client ensured device).1
      (routeForDevice client ensured device).2 = device
  route_of_virtual : ∀ route handle, KnownRoute client route →
    0 ≤ virtualDeviceForRoute client ensured.2 route handle →
      routeForDevice client ensured (virtualDeviceForRoute client ensured.2 route handle) =
        (route, handle)
  translate_of_route : ∀ device conn handle,
    routeForDevice client ensured device = (⟨.remote, some conn⟩, handle) →
      translateDeviceForConn client ensured (some conn) device = some handle
  local_of_translate : ∀ device conn handle,
    translateDeviceForConn client ensured (some conn) device = some handle →
      localDeviceForRemote client ensured (some conn) handle = device
  translate_of_local : ∀ conn handle, 0 ≤ localDeviceForRemote client ensured (some conn) handle →
    translateDeviceForConn client ensured (some conn)
      (localDeviceForRemote client ensured (some conn) handle) = some handle

namespace WellFormedTable

variable {client : Connections} {table : DeviceTable} (h : WellFormedTable client table)

include h

theorem virtualDeviceForOrdinal_eq (ordinal : ℤ) :
    virtualDeviceForOrdinal (.success, table) ordinal =
      if 0 ≤ ordinal ∧ ordinal < table.devices.length then .ok ordinal
      else .error errorInvalidDevice := by
  rw [virtualDeviceForOrdinal, if_neg (not_not_intro rfl), h.length_eq]
  split_ifs with hrange hvalid hvalid
  · omega
  · rfl
  · rfl
  · omega

theorem entryOf_routeOfEntry {entry : DeviceEntry} (hmem : entry ∈ table.devices) :
    KnownRoute client (routeOfEntry client entry).1 ∧
      entryOf client (routeOfEntry client entry).1 (routeOfEntry client entry).2 = entry := by
  rcases h.entries entry hmem with hlocal | ⟨hlt, hremote⟩
  · rw [hlocal]
    exact ⟨Or.inl rfl, rfl⟩
  · obtain ⟨conn, hconn⟩ := exists_connection hlt
    rw [hremote, routeOfEntry, if_neg (by simp [remoteEntry])]
    simp only [remoteEntry, hconn, remoteRouteForConn]
    refine ⟨Or.inr ⟨_, hconn, by simp, rfl⟩, ?_⟩
    rw [entryOf, if_neg (by simp), connIndex_of_get hconn, Int.toNat_natCast]
    rfl

/-- **There and back.** The lookups in a well-formed table are inverse to each other. -/
theorem numbersDevices : NumbersDevices client (.success, table) table.devices where
  nodup := h.nodup
  count := by rw [virtualDeviceCount, if_neg (not_not_intro rfl), h.length_eq]
  ordinal := h.virtualDeviceForOrdinal_eq
  route_for i entry hi := h.routeForDevice_eq hi
  virtual_of_route := by
    intro device hpos hlt
    obtain ⟨i, rfl⟩ := Int.eq_ofNat_of_zero_le hpos
    have hi := List.getElem?_eq_getElem (Int.ofNat_lt.mp hlt)
    obtain ⟨hknown, hentry⟩ := h.entryOf_routeOfEntry (List.getElem_mem (Int.ofNat_lt.mp hlt))
    rw [h.routeForDevice_eq hi]
    exact h.virtualDeviceForRoute_eq hknown.namesDriver (hi.trans (congrArg some hentry.symm))
  route_of_virtual := by
    intro route handle hknown hvirtual
    obtain ⟨-, hget⟩ := h.getElem?_of_virtualDeviceForRoute hvirtual
    have hroute := h.routeForDevice_eq hget
    rwa [Int.toNat_of_nonneg hvirtual, hknown.routeOfEntry_entryOf] at hroute
  translate_of_route := by
    intro device conn handle hroute
    -- an ordinal out of range has no route to a connection
    have hrange : 0 ≤ device ∧ device < table.devices.length := by
      by_contra hout
      rw [routeForDevice, if_neg (not_not_intro rfl), h.length_eq, if_pos (by omega)] at hroute
      exact absurd (congrArg (fun r ↦ r.1.kind) hroute) (by simp)
    obtain ⟨i, rfl⟩ := Int.eq_ofNat_of_zero_le hrange.1
    have hlt := Int.ofNat_lt.mp hrange.2
    have hi := List.getElem?_eq_getElem hlt
    obtain ⟨hknown, hentry⟩ := h.entryOf_routeOfEntry (List.getElem_mem hlt)
    rw [h.routeForDevice_eq hi] at hroute
    rw [hroute] at hknown hentry
    rw [h.translateDeviceForConn_eq_some]
    have hindex := (hknown.namesDriver.resolve_left (by simp)).2
    refine ⟨hindex, hrange.1, ?_⟩
    rw [Int.toNat_natCast, hi, ← hentry, entryOf, if_neg (by simp)]
  local_of_translate := by
    intro device conn handle htranslate
    obtain ⟨hindex, hpos, hget⟩ := h.translateDeviceForConn_eq_some.mp htranslate
    obtain ⟨i, rfl⟩ := Int.eq_ofNat_of_zero_le hpos
    rw [localDeviceForRemote, if_neg (by simp)]
    exact h.virtualDeviceForRoute_eq (Or.inr ⟨rfl, hindex⟩) hget
  translate_of_local := by
    intro conn handle hvirtual
    rw [localDeviceForRemote, if_neg (by simp)] at hvirtual ⊢
    obtain ⟨hroute, hget⟩ := h.getElem?_of_virtualDeviceForRoute hvirtual
    exact h.translateDeviceForConn_eq_some.mpr
      ⟨(hroute.resolve_left (by simp [remoteRouteForConn])).2, hvirtual, hget⟩

end WellFormedTable

/-! ## The table that is built

Up to the size it is well formed by construction. -/

variable {world : DeviceWorld}

theorem DeviceWorld.wellFormedTable (hdistinct : world.HandlesDistinct)
    (hsmall : world.enumeration.length < 2 ^ 31) :
    WellFormedTable world.client { devices := world.enumeration, ready := true } where
  entries _ hmem := DeviceWorld.mem_enumeration hmem
  nodup := DeviceWorld.nodup_enumeration hdistinct
  small := hsmall

/-- **The device table.** When a remote query fails the table is left empty and not ready. When the
construction succeeds and an `int` can count the devices, the virtual ordinals number the local
devices and then those of each server, and the two directions of lookup are inverse. -/
theorem ensureDeviceTable_numbersDevices (world : DeviceWorld) (table : DeviceTable)
    (hready : table.ready = false) :
    (world.QueryFails → (world.ensureDeviceTable table).1 ≠ .success ∧
      (world.ensureDeviceTable table).2 = {}) ∧
    ((world.ensureDeviceTable table).1 = .success → world.HandlesDistinct →
      world.enumeration.length < 2 ^ 31 →
        (world.ensureDeviceTable table).2 = { devices := world.enumeration, ready := true } ∧
        NumbersDevices world.client (world.ensureDeviceTable table) world.enumeration) := by
  refine ⟨fun hfails ↦ DeviceWorld.ensureDeviceTable_of_queryFails hready hfails, ?_⟩
  intro hsuccess hdistinct hsmall
  have hanswer : ¬world.QueryFails := fun hfails ↦
    (DeviceWorld.ensureDeviceTable_of_queryFails hready hfails).1 hsuccess
  have hbuilt := DeviceWorld.ensureDeviceTable_of_not_queryFails hready hanswer
  rw [hbuilt] at hsuccess ⊢
  split_ifs at hsuccess ⊢
  exact ⟨rfl, (DeviceWorld.wellFormedTable hdistinct hsmall).numbersDevices⟩

/-- A driver with that many devices, named by their ordinals. -/
def DeviceAnswers.ofCount (count : ℕ) : DeviceAnswers :=
  ⟨.success, count, fun _ ↦ .success, fun ordinal ↦ ordinal⟩

/-- A local driver and two servers whose drivers name their devices by their ordinals. -/
def twoServers (localCount serverCount : ℕ) : DeviceWorld where
  client := .ofSize 2
  localAnswers := .ofCount localCount
  serverAnswers _ := .ofCount serverCount

theorem handlesDistinct_twoServers (localCount serverCount : ℕ) :
    (twoServers localCount serverCount).HandlesDistinct where
  ofLocal _ _ _ _ := Int.ofNat.inj
  ofServer _ _ _ _ _ _ := Int.ofNat.inj

/-- A local device and two servers with the same handles. -/
theorem ensureDeviceTable_numbersDevices_twoServers :
    NumbersDevices (.ofSize 2) ((twoServers 1 2).ensureDeviceTable {})
      [localEntry 0, remoteEntry 0 0, remoteEntry 0 1, remoteEntry 1 0, remoteEntry 1 1] :=
  ((ensureDeviceTable_numbersDevices (twoServers 1 2) {} rfl).2 (by decide)
    (handlesDistinct_twoServers 1 2) (by decide)).2

/-- Two servers with 2^30 devices each. -/
def crowdedWorld : DeviceWorld := twoServers 0 (2 ^ 30)

theorem length_enumeration_crowdedWorld : crowdedWorld.enumeration.length = 2 ^ 31 := by
  rw [DeviceWorld.enumeration, DeviceWorld.localDevices, if_neg (by decide), List.nil_append,
    List.length_flatMap]
  simp [crowdedWorld, twoServers, DeviceWorld.serverEnumeration, DeviceAnswers.ofCount,
    Connections.ofSize]

/-- **More devices than an `int` counts.** With 2^31 devices in all, no ordinal has a route. -/
theorem crowded_table_numbers_no_device :
    ¬∀ (world : DeviceWorld) (table : DeviceTable), table.ready = false →
      (world.ensureDeviceTable table).1 = .success → world.HandlesDistinct →
        NumbersDevices world.client (world.ensureDeviceTable table) world.enumeration := by
  intro hclaim
  have hlength := length_enumeration_crowdedWorld
  have hanswer : ¬crowdedWorld.QueryFails := by
    rintro ⟨index, -, hcount | ⟨ordinal, -, hget⟩⟩
    · exact hcount rfl
    · exact hget rfl
  have hready : ({} : DeviceTable).ready = false := rfl
  have hbuilt := DeviceWorld.ensureDeviceTable_of_not_queryFails hready hanswer
  have hne : crowdedWorld.enumeration ≠ [] := fun hnil ↦ by simp [hnil] at hlength
  rw [if_neg hne] at hbuilt
  have hnumbers := hclaim crowdedWorld {} rfl (congrArg Prod.fst hbuilt)
    (handlesDistinct_twoServers 0 (2 ^ 30))
  have hcount := hnumbers.count
  rw [hbuilt, virtualDeviceCount, if_neg (not_not_intro rfl), hlength] at hcount
  exact absurd (Except.ok.inj hcount) (by decide)

end Lupine
