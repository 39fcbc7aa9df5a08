import Lupine.Foundation.Text
import Lupine.Routing.DeviceTable

/-!
# PCI identities

Two servers may have devices under one PCI bus id. The client therefore gives a device of a server
an id of its own: the domain is replaced by 0x1000 plus the index of the server, the rest is kept.
The CUDA shim and the NVML shim each do so when they answer with an id, and each undo it when they
look a device up.

## Without a server

The two shims differ when no server can be reached. The CUDA shim has a table of the local devices
then. The NVML shim opens the connections before it looks at its table, and `nvmlInit` fails when
there is none, so that every call is refused.

## What is assumed

The tables are those that the shims build when they enumerate the devices. What the driver and the
NVML library of each machine answer is a parameter, about which `Documented` says what their
documentation does: the form of an id, its length, and that a device is found by its id.

## What decides

The text of a virtual id is longer than that of a physical one, since its domain has eight digits.
The lookup keeps the caller's text in a buffer and compares what stands behind the first colon, so
it finds the first device of the server with that suffix, provided the buffer held all of it. The
two statements about one device, `Documented.found_iff` and `nvmlDeviceGetPciInfo_remote`, give
everything that is said about a pool.
-/

namespace Lupine

open Foundation

/-! ## Bus ids

The parser is that of the documented format, which the ids of both libraries have. -/

/-- The numbers of a PCI bus id; `slot` is its bus, its device and its function. -/
structure PciAddress where
  domain : ℕ
  slot : ℕ × ℕ × ℕ
  deriving DecidableEq, Repr

def hexField (text : List Char) : Option ℕ :=
  if text ≠ [] ∧ ∀ c ∈ text, isHex c = true then some (hexNumber text) else none

/-- What `:[bus]:[device].[function]` spells. -/
def parseSlot (suffix : List Char) : Option (ℕ × ℕ × ℕ) := do
  let rest ← strchr ':' suffix.tail
  let dot ← strchr '.' rest.tail
  let bus ← hexField (suffix.tail.takeWhile (· ≠ ':'))
  let device ← hexField (rest.tail.takeWhile (· ≠ '.'))
  let function ← hexField dot.tail
  some (bus, device, function)

/-- What `[domain]:[bus]:[device].[function]` spells, the format of both libraries. -/
def parseBusId (text : List Char) : Option PciAddress := do
  let suffix ← strchr ':' text
  let domain ← hexField (text.takeWhile (· ≠ ':'))
  let slot ← parseSlot suffix
  some ⟨domain, slot⟩

/-! ## The pool

A device is known by the server it belongs to and its handles there. Both shims enumerate the
devices in one order, so an entry of either table is a function of the device. -/

/-- `nvmlReturn_t`, other than success. -/
inductive NvmlReturn where
  | errorNotFound
  | errorUninitialized
  | errorUnknown
  | error (code : ℕ)
  deriving DecidableEq, Repr

/-- `nvmlPciInfo_t`, as far as the shim reads it. -/
structure PciInfo where
  busId : List Char
  domain : ℕ
  bus : ℕ
  device : ℕ
  deriving DecidableEq, Repr

/-- What the CUDA driver and the NVML library of one machine answer, by the handles of that
machine. A function that the machine lacks answers with an error. -/
structure PciDriver where
  getPCIBusId : ℤ → ℤ → Except CUresult (List Char)
  getByPCIBusId : List Char → Except CUresult ℤ
  getPciInfo : ℕ → Except NvmlReturn PciInfo
  getHandleByPciBusId : List Char → Except NvmlReturn ℕ

/-- A device: the server it belongs to, or none when it is local, its `CUdevice` and its
`nvmlDevice_t` there, where it sits in that machine, and how the two libraries say so. -/
structure PoolDevice where
  server : Option ℕ
  handle : ℤ
  nvmlHandle : ℕ
  address : PciAddress
  busId : List Char
  pciInfo : PciInfo

/-- `lupine_nvml_remote_device`; `isLocal` is `local`. -/
structure NvmlEntry where
  isLocal : Bool := false
  localDevice : ℕ := 0
  connIndex : ℕ := 0
  remoteDevice : ℕ := 0
  deriving DecidableEq, Repr

namespace PoolDevice

/-- The entry of the device in the table of the CUDA shim. -/
def cudaEntry (device : PoolDevice) : DeviceEntry :=
  match device.server with
  | none => localEntry device.handle
  | some index => remoteEntry index device.handle

/-- The entry of the device in the table of the NVML shim. -/
def nvmlEntry (device : PoolDevice) : NvmlEntry :=
  match device.server with
  | none => { isLocal := true, localDevice := device.nvmlHandle }
  | some index => { connIndex := index, remoteDevice := device.nvmlHandle }

end PoolDevice

/-- The devices in the order in which both shims enumerate them, and the answers of the local
machine and of each server. The NVML shim names a device by the address of its entry in an array
that begins at `base`. -/
structure PciPool where
  client : Connections := {}
  devices : List PoolDevice := []
  drivers : Option ℕ → PciDriver
  base : ℕ := 8
  entrySize : ℕ := 64

/-! ## The identity of a server's device -/

/-- `0x1000u + static_cast<unsigned int>(lupine_route_identity(route))`. -/
def virtualDomain (identity : ℤ) : ℕ := ((0x1000 + identity) % 2 ^ 32).toNat

/-- What `cuDeviceGetPCIBusId` makes of the text that a server left in a buffer of that length. -/
def virtualizeBusId (identity len : ℤ) (text : List Char) : List Char :=
  match strchr ':' text with
  | none => text
  | some separator =>
    if 0 < len then
      snprintf len.toNat (printHex 8 (virtualDomain identity) ++ snprintf 24 separator)
    else text

/-- The test with which both lookups begin: a text whose domain no machine is expected to have, with
the domain and the text from the first colon on. -/
def syntheticId (text : List Char) : Option (ℕ × List Char) :=
  match strchr ':' text with
  | none => none
  | some separator =>
    if (strtoul text).2 = separator ∧ 0x1000 ≤ (strtoul text).1 then
      some ((strtoul text).1, separator)
    else none

namespace PciPool

variable (pool : PciPool)

/-! ## The CUDA shim -/

/-- `lupine_device_table`. -/
def table : DeviceTable := { devices := pool.devices.map PoolDevice.cudaEntry, ready := true }

/-- The driver that a route leads to, unless there is no connection. -/
def driverOn (route : Route) : Option PciDriver :=
  if route.kind = .localDriver then some (pool.drivers none)
  else if route.kind = .remote then
    route.conn.map fun conn ↦ pool.drivers (some conn.logicalIndex.toNat)
  else none

def cuDeviceGetPCIBusId (len device : ℤ) : Except CUresult (List Char) :=
  let (route, routeDevice) := routeForDevice pool.client (.success, pool.table) device
  if route.kind = .unknownDevice then .error errorInvalidDevice
  else
    match pool.driverOn route with
    | none => .error .errorDeviceUnavailable
    | some driver =>
      match driver.getPCIBusId len routeDevice with
      | .error result => .error result
      | .ok text =>
        if route.kind = .localDriver then .ok text
        else .ok (virtualizeBusId (routeIdentity pool.client route) len text)

/-- The test in the loop of `cuDeviceGetByPCIBusId` over the ordinals. -/
def isCandidate (target : ℤ) (separator : List Char) (ordinal : ℕ) : Bool :=
  if routeIdentity pool.client (routeForDevice pool.client (.success, pool.table) ordinal).1 ≠
      target then false
  else
    match pool.cuDeviceGetPCIBusId 32 ordinal with
    | .error _ => false
    | .ok text => strchr ':' text = some separator

/-- The loop of `lupine_lookup_device_on_all_routes_impl` with its `first_error`. -/
def lookupDeviceOn (lookup : Route → Except CUresult ℤ) :
    List Route → CUresult → Except CUresult ℤ
  | [], firstError => .error firstError
  | route :: routes, firstError =>
    match lookup route with
    | .error result =>
      lookupDeviceOn lookup routes
        (if firstError = errorInvalidDevice ∧ result ≠ errorInvalidDevice then result
          else firstError)
    | .ok routeDevice =>
      if virtualDeviceForRoute pool.client pool.table route routeDevice < 0 then
        lookupDeviceOn lookup routes firstError
      else .ok (virtualDeviceForRoute pool.client pool.table route routeDevice)

/-- The routes of that loop: the local one, when there is a local device, and then each server's. -/
def lookupRoutes : List Route :=
  (if pool.table.devices.any (·.isLocal) then [localRoute] else []) ++
    (List.range pool.client.conns.length).map fun i ↦
      remoteRouteForConn (rpcClientGetConnection pool.client i)

/-- The branch of `cuDeviceGetByPCIBusId` for a domain that is not expected of a machine. -/
def lookupVirtualDevice (target : ℤ) (separator : List Char) : Except CUresult ℤ := do
  let count ← virtualDeviceCount (.success, pool.table)
  match (List.range count.toNat).find? (pool.isCandidate target separator) with
  | some ordinal => .ok ordinal
  | none => .error errorInvalidDevice

def cuDeviceGetByPCIBusId (text : List Char) : Except CUresult ℤ :=
  match syntheticId text with
  | some (domain, separator) =>
    pool.lookupVirtualDevice (staticCastInt (domain - 0x1000)) separator
  | none =>
    pool.lookupDeviceOn
      (fun route ↦
        match pool.driverOn route with
        | none => .error .errorDeviceUnavailable
        | some driver => driver.getByPCIBusId text)
      pool.lookupRoutes errorInvalidDevice

/-! ## The NVML shim -/

/-- The entries of `devices`. -/
def entries : List NvmlEntry := pool.devices.map PoolDevice.nvmlEntry

/-- The `nvmlDevice_t` of an entry. -/
def nvmlDevice (i : ℕ) : ℕ := pool.base + i * pool.entrySize

/-- `mapped_device`. -/
def mappedDevice (device : ℕ) : Option NvmlEntry :=
  if device = 0 ∨ pool.entries = [] then none
  else if device < pool.base ∨ pool.nvmlDevice pool.entries.length ≤ device ∨
      (device - pool.base) % pool.entrySize ≠ 0 then none
  else pool.entries[(device - pool.base) / pool.entrySize]?

/-- `rpc_error`. The library is initialized just when a connection could be opened. -/
def rpcError : NvmlReturn :=
  if pool.client.conns = [] then .errorUninitialized else .errorUnknown

/-- `ensure_devices`: `open_connection` fails without a connection, and otherwise the entries are
there. -/
def ensureDevices : Except NvmlReturn Unit :=
  if pool.client.conns = [] then .error pool.rpcError else .ok ()

/-- `translate_local_device`. -/
def translateLocalDevice (device : ℕ) : Option ℕ :=
  match pool.ensureDevices with
  | .error _ => none
  | .ok _ =>
    match pool.mappedDevice device with
    | none => none
    | some mapped => if mapped.isLocal then some mapped.localDevice else none

/-- `connection_for_device`, with the handle that is left in the argument. -/
def connectionForDevice (device : ℕ) : Option Conn × ℕ :=
  match pool.ensureDevices with
  | .error _ => (none, device)
  | .ok _ =>
    if pool.entries = [] then (none, device)
    else
      match pool.mappedDevice device with
      | none => (rpcClientGetConnection pool.client 0, device)
      | some mapped => (rpcClientGetConnection pool.client mapped.connIndex, mapped.remoteDevice)

/-- `virtualize_remote_pci_identity`. -/
def virtualizeRemotePciIdentity (device : ℕ) (pci : PciInfo) : PciInfo :=
  match pool.mappedDevice device with
  | none => pci
  | some mapped =>
    if mapped.isLocal then pci
    else
      let suffix :=
        match strchr ':' pci.busId with
        | some separator => snprintf 32 separator
        | none => snprintf 32 (':' :: printHex 2 pci.bus ++ ':' :: printHex 2 pci.device ++
            ['.', '0'])
      { pci with
        domain := virtualDomain mapped.connIndex
        busId := snprintf 32 (printHex 8 (virtualDomain mapped.connIndex) ++ suffix) }

/-- `nvmlDeviceGetPciInfo_v3`. What is virtualized is the handle that `connection_for_device`
left. -/
def nvmlDeviceGetPciInfo (device : ℕ) : Except NvmlReturn PciInfo :=
  match pool.translateLocalDevice device with
  | some localDevice => (pool.drivers none).getPciInfo localDevice
  | none =>
    let (conn, device) := pool.connectionForDevice device
    match conn with
    | none => .error pool.rpcError
    | some conn =>
      match (pool.drivers (some conn.logicalIndex.toNat)).getPciInfo device with
      | .error result => .error result
      | .ok pci => .ok (pool.virtualizeRemotePciIdentity device pci)

/-- The test in the loop of `nvmlDeviceGetHandleByPciBusId_v2` over the entries. -/
def isNvmlCandidate (target : ℕ) (separator : List Char) (i : ℕ) : Bool :=
  match pool.entries[i]? with
  | none => false
  | some candidate =>
    if candidate.isLocal || candidate.connIndex != target then false
    else
      match pool.nvmlDeviceGetPciInfo (pool.nvmlDevice i) with
      | .error _ => false
      | .ok pci => strchr ':' pci.busId = some separator

/-- `map_local_device`. -/
def mapLocalDevice (localDevice : ℕ) : Except NvmlReturn ℕ :=
  match pool.ensureDevices with
  | .error result => .error result
  | .ok _ =>
    match pool.entries.findIdx? fun candidate ↦
        candidate.isLocal && candidate.localDevice == localDevice with
    | some i => .ok (pool.nvmlDevice i)
    | none => .error .errorNotFound

/-- The loop of `lookup_device_on_all_connections` with its `first_error`. -/
def lookupDeviceOnConnections (lookup : ℕ → Except NvmlReturn ℕ) :
    List ℕ → NvmlReturn → Except NvmlReturn ℕ
  | [], firstError => .error firstError
  | index :: rest, firstError =>
    match lookup index with
    | .error result =>
      lookupDeviceOnConnections lookup rest
        (if firstError = .errorNotFound ∧ result ≠ .errorNotFound then result else firstError)
    | .ok remote =>
      match pool.entries.findIdx? fun candidate ↦
          candidate.connIndex == index && candidate.remoteDevice == remote with
      | some i => .ok (pool.nvmlDevice i)
      | none =>
        lookupDeviceOnConnections lookup rest
          (if firstError = .errorNotFound then pool.rpcError else firstError)

/-- `lookup_device_on_all_connections`. -/
def lookupDeviceOnAllConnections (lookup : ℕ → Except NvmlReturn ℕ) : Except NvmlReturn ℕ :=
  match pool.ensureDevices with
  | .error result => .error result
  | .ok _ =>
    pool.lookupDeviceOnConnections lookup (List.range pool.client.conns.length) .errorNotFound

/-- `nvmlDeviceGetHandleByPciBusId_v2`. -/
def nvmlDeviceGetHandleByPciBusId (text : List Char) : Except NvmlReturn ℕ :=
  match syntheticId text with
  | some (domain, separator) =>
    match pool.ensureDevices with
    | .error result => .error result
    | .ok _ =>
      match (List.range pool.entries.length).find?
          (pool.isNvmlCandidate ((domain - 0x1000) % 2 ^ 32) separator) with
      | some i => .ok (pool.nvmlDevice i)
      | none => .error .errorNotFound
  | none =>
    match (pool.drivers none).getHandleByPciBusId text with
    | .ok localDevice => pool.mapLocalDevice localDevice
    | .error _ =>
      pool.lookupDeviceOnAllConnections fun index ↦
        (pool.drivers (some index)).getHandleByPciBusId text

/-! ## What an identity is for -/

/-- The devices of the pool have PCI identities: distinct ones, the same in both shims, by which
each of the two lookups finds the device again. The buffer for the CUDA id may be of any length that
is documented as sufficient. -/
structure PciIdentities : Prop where
  cuda_distinct : ∀ i j : ℕ, i < pool.devices.length → j < pool.devices.length → i ≠ j →
    ∀ text text', pool.cuDeviceGetPCIBusId 32 i = .ok text →
      pool.cuDeviceGetPCIBusId 32 j = .ok text' → parseBusId text ≠ parseBusId text'
  nvml_distinct : ∀ i j : ℕ, i < pool.devices.length → j < pool.devices.length → i ≠ j →
    ∀ pci pci', pool.nvmlDeviceGetPciInfo (pool.nvmlDevice i) = .ok pci →
      pool.nvmlDeviceGetPciInfo (pool.nvmlDevice j) = .ok pci' →
        parseBusId pci.busId ≠ parseBusId pci'.busId
  cuda_lookup : ∀ i : ℕ, i < pool.devices.length → ∀ len : ℤ, 13 ≤ len → ∃ text,
    pool.cuDeviceGetPCIBusId len i = .ok text ∧ pool.cuDeviceGetByPCIBusId text = .ok (i : ℤ) ∧
      pool.nvmlDeviceGetHandleByPciBusId text = .ok (pool.nvmlDevice i)
  nvml_lookup : ∀ i : ℕ, i < pool.devices.length → ∃ pci,
    pool.nvmlDeviceGetPciInfo (pool.nvmlDevice i) = .ok pci ∧
      pool.cuDeviceGetByPCIBusId pci.busId = .ok (i : ℤ) ∧
      pool.nvmlDeviceGetHandleByPciBusId pci.busId = .ok (pool.nvmlDevice i)
  agree : ∀ i : ℕ, i < pool.devices.length → ∃ text pci,
    pool.cuDeviceGetPCIBusId 32 i = .ok text ∧
      pool.nvmlDeviceGetPciInfo (pool.nvmlDevice i) = .ok pci ∧
      parseBusId text = parseBusId pci.busId

/-- The tables are as they are built, every device of one machine has its own handles and sits in
its own place, and the libraries answer as they are documented to. -/
structure Documented : Prop where
  table : WellFormedTable pool.client pool.table
  servers : pool.client.conns.length < 2 ^ 31
  base_pos : 0 < pool.base
  entrySize_pos : 0 < pool.entrySize
  nvmlHandle : ∀ (i j : ℕ) device other, pool.devices[i]? = some device →
    pool.devices[j]? = some other → device.server = other.server →
      device.nvmlHandle = other.nvmlHandle → i = j
  address : ∀ (i j : ℕ) device other, pool.devices[i]? = some device →
    pool.devices[j]? = some other → device.server = other.server →
      device.address = other.address → i = j
  domain_lt : ∀ device ∈ pool.devices, device.address.domain < 2 ^ 32
  busId : ∀ device ∈ pool.devices, parseBusId device.busId = some device.address ∧
    device.busId.length < 13 ∧ ∀ len : ℤ, 13 ≤ len →
      (pool.drivers device.server).getPCIBusId len device.handle = .ok device.busId
  pciInfo : ∀ device ∈ pool.devices, parseBusId device.pciInfo.busId = some device.address ∧
    device.pciInfo.busId.length < 32 ∧
      (pool.drivers device.server).getPciInfo device.nvmlHandle = .ok device.pciInfo
  byBusId : ∀ device ∈ pool.devices, ∀ text, parseBusId text = some device.address →
    (pool.drivers device.server).getByPCIBusId text = .ok device.handle ∧
      (pool.drivers device.server).getHandleByPciBusId text = .ok device.nvmlHandle

end PciPool

/-! ## Bus ids and their domains

An id is a domain and, from the first colon on, a suffix of at least six characters. On the id of a
driver the test of the lookups is a test of the domain. -/

section BusIds

variable {text suffix : List Char} {address : PciAddress} {slot : ℕ × ℕ × ℕ}

theorem ne_nil_of_hexField {field : List Char} {n : ℕ} (h : hexField field = some n) :
    field ≠ [] ∧ (∀ c ∈ field, isHex c = true) ∧ hexNumber field = n := by
  rw [hexField] at h
  obtain ⟨⟨hne, hhex⟩, hn⟩ := Option.ite_none_right_eq_some.mp h
  exact ⟨hne, hhex, Option.some_inj.mp hn⟩

theorem le_length_of_parseSlot (h : parseSlot suffix = some slot) : 6 ≤ suffix.length := by
  simp only [parseSlot, Option.bind_eq_bind, Option.bind_eq_some_iff] at h
  obtain ⟨rest, hrest, dot, hdot, bus, hbus, device, hdevice, function, hfunction, -⟩ := h
  obtain ⟨front, tail, hsplit, rfl, hfront⟩ := exists_of_strchr hrest
  obtain ⟨front', tail', hsplit', rfl, hfront'⟩ := exists_of_strchr hdot
  rw [hsplit, takeWhile_append _ hfront] at hbus
  rw [hsplit', takeWhile_append _ hfront'] at hdevice
  have hbus := List.length_pos_iff.mpr (ne_nil_of_hexField hbus).1
  have hdevice := List.length_pos_iff.mpr (ne_nil_of_hexField hdevice).1
  have hfunction := List.length_pos_iff.mpr (ne_nil_of_hexField hfunction).1
  have hlen := congrArg List.length hsplit
  have hlen' := congrArg List.length hsplit'
  simp only [List.tail_cons, List.length_tail, List.length_append, List.length_cons] at *
  omega

theorem exists_of_parseBusId (h : parseBusId text = some address) :
    ∃ domain rest, text = domain ++ ':' :: rest ∧ ':' ∉ domain ∧ domain ≠ [] ∧
      (∀ c ∈ domain, isHex c = true) ∧ hexNumber domain = address.domain ∧
      parseSlot (':' :: rest) = some address.slot := by
  simp only [parseBusId, Option.bind_eq_bind, Option.bind_eq_some_iff] at h
  obtain ⟨suffix, hsuffix, number, hnumber, slot, hslot, haddress⟩ := h
  obtain ⟨domain, rest, rfl, rfl, hcolon⟩ := exists_of_strchr hsuffix
  rw [takeWhile_append _ hcolon] at hnumber
  obtain ⟨hne, hhex, rfl⟩ := ne_nil_of_hexField hnumber
  obtain rfl := Option.some_inj.mp haddress
  exact ⟨domain, rest, rfl, hcolon, hne, hhex, rfl, hslot⟩

theorem colon_notMem {domain : List Char} (h : ∀ c ∈ domain, isHex c = true) : ':' ∉ domain :=
  fun hmem ↦ absurd (h _ hmem) (by decide)

theorem syntheticId_append {domain : List Char} (rest : List Char) (hne : domain ≠ [])
    (hhex : ∀ c ∈ domain, isHex c = true) (hsmall : hexNumber domain < 2 ^ 64) :
    syntheticId (domain ++ ':' :: rest) =
      if 0x1000 ≤ hexNumber domain then some (hexNumber domain, ':' :: rest) else none := by
  have hread : strtoul (domain ++ ':' :: rest) = (hexNumber domain, ':' :: rest) :=
    strtoul_append rest hne hhex (by decide) (by decide) (by decide) hsmall
  simp only [syntheticId, strchr_append _ (colon_notMem hhex), hread, true_and]

theorem syntheticId_of_parseBusId (h : parseBusId text = some address)
    (hsmall : address.domain < 2 ^ 32) :
    ∃ separator, syntheticId text =
      if 0x1000 ≤ address.domain then some (address.domain, separator) else none := by
  obtain ⟨domain, rest, rfl, -, hne, hhex, hnumber, -⟩ := exists_of_parseBusId h
  refine ⟨':' :: rest, ?_⟩
  rw [← hnumber] at hsmall ⊢
  exact syntheticId_append rest hne hhex (hsmall.trans (by decide))

end BusIds

/-- The CUDA id of the device, from the first colon on. -/
def PoolDevice.suffix (device : PoolDevice) : List Char := (strchr ':' device.busId).getD []

namespace PciPool.Documented

variable {pool : PciPool} (hdocs : pool.Documented) {i : ℕ} {device : PoolDevice} {index : ℕ}

include hdocs

/-! ## The ids of the drivers

What stands before the suffix is the domain. -/

theorem busId_eq (hmem : device ∈ pool.devices) :
    ∃ domain rest, device.busId = domain ++ device.suffix ∧ device.suffix = ':' :: rest ∧
      strchr ':' device.busId = some device.suffix ∧ 6 ≤ device.suffix.length ∧
        device.suffix.length < 12 := by
  obtain ⟨hparse, hlen, -⟩ := hdocs.busId device hmem
  obtain ⟨domain, rest, heq, hcolon, hne, -, -, hslot⟩ := exists_of_parseBusId hparse
  have hstrchr : strchr ':' device.busId = some (':' :: rest) := by
    rw [heq, strchr_append _ hcolon]
  have hsuffix : device.suffix = ':' :: rest := by rw [PoolDevice.suffix, hstrchr, Option.getD_some]
  have hdomain := List.length_pos_iff.mpr hne
  have hslot := le_length_of_parseSlot hslot
  refine ⟨domain, rest, hsuffix ▸ heq, hsuffix, hsuffix ▸ hstrchr, hsuffix ▸ hslot, ?_⟩
  rw [heq, List.length_append] at hlen
  rw [hsuffix]
  omega

omit hdocs in
theorem getElem?_table (hi : pool.devices[i]? = some device) :
    pool.table.devices[i]? = some device.cudaEntry := by
  rw [PciPool.table, List.getElem?_map, hi, Option.map_some]

/-! ## Routes

The route of a device is that of the connection under the index of its server. -/

theorem routeForDevice_local (hi : pool.devices[i]? = some device) (hlocal : device.server = none) :
    routeForDevice pool.client (.success, pool.table) i = (localRoute, device.handle) := by
  rw [hdocs.table.routeForDevice_eq (getElem?_table hi), PoolDevice.cudaEntry, hlocal]
  rfl

theorem lt_servers (hmem : device ∈ pool.devices) (hserver : device.server = some index) :
    index < pool.client.conns.length := by
  have hentry : remoteEntry index device.handle ∈ pool.table.devices := by
    have hmap : device.cudaEntry ∈ pool.table.devices := List.mem_map_of_mem hmem
    rwa [PoolDevice.cudaEntry, hserver] at hmap
  rcases hdocs.table.entries _ hentry with hlocal | ⟨hlt, -⟩
  · exact absurd (congrArg DeviceEntry.isLocal hlocal) Bool.false_ne_true
  · exact hlt

theorem routeForDevice_remote (hi : pool.devices[i]? = some device)
    (hserver : device.server = some index) :
    ∃ conn, rpcClientGetConnection pool.client index = some conn ∧ conn.logicalIndex = index ∧
      routeForDevice pool.client (.success, pool.table) i =
        (⟨.remote, some conn⟩, device.handle) := by
  obtain ⟨conn, hconn⟩ := exists_connection (hdocs.lt_servers (List.mem_of_getElem? hi) hserver)
  refine ⟨conn, hconn, pool.client.logicalIndex_eq index conn hconn, ?_⟩
  rw [hdocs.table.routeForDevice_eq (getElem?_table hi), PoolDevice.cudaEntry, hserver]
  simp only [routeOfEntry, remoteEntry, hconn, remoteRouteForConn, Bool.false_eq_true, if_false]

omit hdocs in
theorem routeIdentity_remote {conn : Conn}
    (hconn : rpcClientGetConnection pool.client index = some conn) :
    routeIdentity pool.client ⟨.remote, some conn⟩ = index := by
  simp [routeIdentity, connIndex_of_get hconn]

/-! ## The CUDA id of a device

The id of a server's device is the domain of the server and what the driver there writes from the
first colon on, as far as the caller's buffer goes. -/

theorem cuDeviceGetPCIBusId_local (hi : pool.devices[i]? = some device)
    (hlocal : device.server = none) {len : ℤ} (hlen : 13 ≤ len) :
    pool.cuDeviceGetPCIBusId len i = .ok device.busId := by
  have hdriver := (hdocs.busId device (List.mem_of_getElem? hi)).2.2 len hlen
  rw [hlocal] at hdriver
  rw [cuDeviceGetPCIBusId, hdocs.routeForDevice_local hi hlocal]
  simp only [driverOn, localRoute, if_true, hdriver, reduceCtorEq, if_false]

theorem printHex_virtualDomain (hmem : device ∈ pool.devices)
    (hserver : device.server = some index) :
    printHex 8 (virtualDomain index) = hexDigits 8 (0x1000 + index) := by
  have hlt : index < 2 ^ 31 := Nat.lt_trans (hdocs.lt_servers hmem hserver) hdocs.servers
  have hdomain : virtualDomain index = 0x1000 + index := by
    rw [virtualDomain]
    omega
  have hsmall : 0x1000 + index < 16 ^ 8 := by omega
  rw [hdomain, printHex_of_lt (by decide) hsmall]

theorem cuDeviceGetPCIBusId_remote (hi : pool.devices[i]? = some device)
    (hserver : device.server = some index) {len : ℤ} (hlen : 13 ≤ len) :
    pool.cuDeviceGetPCIBusId len i =
      .ok (snprintf len.toNat (hexDigits 8 (0x1000 + index) ++ device.suffix)) := by
  have hmem := List.mem_of_getElem? hi
  obtain ⟨conn, hconn, hlogical, hroute⟩ := hdocs.routeForDevice_remote hi hserver
  obtain ⟨-, -, -, -, hstrchr, -, hshort⟩ := hdocs.busId_eq hmem
  have hdriver := (hdocs.busId device hmem).2.2 len hlen
  rw [hserver] at hdriver
  have hprint := hdocs.printHex_virtualDomain hmem hserver
  rw [cuDeviceGetPCIBusId, hroute]
  simp only [driverOn, reduceCtorEq, if_false, if_true, Option.map_some, hlogical,
    Int.toNat_natCast, hdriver, routeIdentity_remote hconn, virtualizeBusId, hstrchr, hprint]
  have hwhole : snprintf 24 device.suffix = device.suffix := snprintf_of_length_lt (by omega)
  rw [if_pos (by omega), hwhole]

/-! ## Looking a CUDA id up

The candidates are the devices of the server with the suffix of the text. No local device is among
them, since its route has an identity of its own, so a local device in one of the domains that the
client gives away is not found. -/

theorem strchr_cuDeviceGetPCIBusId (hi : pool.devices[i]? = some device) :
    ∃ text, pool.cuDeviceGetPCIBusId 32 i = .ok text ∧ strchr ':' text = some device.suffix := by
  obtain ⟨-, rest, -, hsuffix, hstrchr, -, hshort⟩ := hdocs.busId_eq (List.mem_of_getElem? hi)
  cases hserver : device.server with
  | none => exact ⟨_, hdocs.cuDeviceGetPCIBusId_local hi hserver (by decide), hstrchr⟩
  | some index =>
    refine ⟨_, hdocs.cuDeviceGetPCIBusId_remote hi hserver (by decide), ?_⟩
    rw [snprintf_of_length_lt, hsuffix,
      strchr_append _ (colon_notMem fun c ↦ isHex_of_mem_hexDigits)]
    rw [List.length_append, length_hexDigits]
    exact lt_of_lt_of_le (Nat.add_lt_add_left hshort 8) (by decide)

/-- The candidates are the devices of the server that have the suffix. -/
theorem isCandidate_iff (hi : pool.devices[i]? = some device) (separator : List Char) :
    pool.isCandidate index separator i = true ↔
      device.server = some index ∧ device.suffix = separator := by
  obtain ⟨text, htext, hstrchr⟩ := hdocs.strchr_cuDeviceGetPCIBusId hi
  cases hserver : device.server with
  | none =>
    have hidentity : routeIdentity pool.client localRoute ≠ index := by
      simp only [routeIdentity, localRoute, if_true]
      omega
    simp [isCandidate, hdocs.routeForDevice_local hi hserver, hidentity]
  | some server =>
    obtain ⟨conn, hconn, -, hroute⟩ := hdocs.routeForDevice_remote hi hserver
    simp only [isCandidate, hroute, routeIdentity_remote hconn, htext, hstrchr]
    by_cases hindex : server = index
    · simp [hindex]
    · simp [hindex]

theorem not_isCandidate_local (hi : pool.devices[i]? = some device) (hlocal : device.server = none)
    {target : ℤ} (htarget : target ≠ -1) (separator : List Char) :
    pool.isCandidate target separator i = false := by
  have hidentity : routeIdentity pool.client localRoute ≠ target := by
    rw [routeIdentity, localRoute, if_pos rfl]
    exact Ne.symm htarget
  simp only [isCandidate, hdocs.routeForDevice_local hi hlocal]
  rw [if_pos hidentity]

omit hdocs in
theorem length_table : pool.table.devices.length = pool.devices.length := List.length_map _

theorem lookupVirtualDevice_eq_ok (target : ℤ) (separator : List Char) (i : ℕ) :
    pool.lookupVirtualDevice target separator = .ok (i : ℤ) ↔
      (List.range pool.devices.length).find? (pool.isCandidate target separator) = some i := by
  have hcount := hdocs.table.numbersDevices.count
  rw [length_table] at hcount
  rw [lookupVirtualDevice, hcount]
  simp only [bind, Except.bind, Int.toNat_natCast]
  cases (List.range pool.devices.length).find? (pool.isCandidate target separator) with
  | none => simp
  | some ordinal => simp

theorem cuDeviceGetByPCIBusId_local (hi : pool.devices[i]? = some device)
    (hlocal : device.server = none) (hdomain : device.address.domain < 0x1000) {text : List Char}
    (htext : parseBusId text = some device.address) :
    pool.cuDeviceGetByPCIBusId text = .ok (i : ℤ) := by
  have hmem := List.mem_of_getElem? hi
  obtain ⟨separator, hsynthetic⟩ :=
    syntheticId_of_parseBusId htext (hdocs.domain_lt device hmem)
  rw [if_neg (by omega)] at hsynthetic
  have hentry := getElem?_table hi
  rw [PoolDevice.cudaEntry, hlocal] at hentry
  have hany : pool.table.devices.any (·.isLocal) = true :=
    List.any_eq_true.mpr ⟨_, List.mem_of_getElem? hentry, rfl⟩
  have hdriver := (hdocs.byBusId device hmem text htext).1
  rw [hlocal] at hdriver
  have hvirtual : virtualDeviceForRoute pool.client pool.table localRoute device.handle = i :=
    hdocs.table.virtualDeviceForRoute_eq (Or.inl rfl) hentry
  rw [cuDeviceGetByPCIBusId, hsynthetic, lookupRoutes, if_pos hany]
  simp only [List.singleton_append, lookupDeviceOn, driverOn, localRoute, if_true, hdriver]
  rw [← localRoute, hvirtual, if_neg (by omega)]

omit hdocs in
theorem cuDeviceGetByPCIBusId_synthetic {text separator : List Char} {domain : ℕ}
    (hsynthetic : syntheticId text = some (domain, separator)) :
    pool.cuDeviceGetByPCIBusId text =
      pool.lookupVirtualDevice (staticCastInt (domain - 0x1000)) separator := by
  rw [cuDeviceGetByPCIBusId, hsynthetic]

omit hdocs in
theorem staticCastInt_ne {n : ℕ} (h : n + 1 < 2 ^ 32) : staticCastInt n ≠ -1 := by
  intro hneg
  have hbmod : (n : ℤ).bmod (2 ^ 32) = -1 := hneg
  have hdvd := Int.dvd_bmod_sub_self (x := (n : ℤ)) (m := 2 ^ 32)
  rw [hbmod] at hdvd
  omega

theorem cuDeviceGetByPCIBusId_ne (hi : pool.devices[i]? = some device)
    (hlocal : device.server = none) (hdomain : 0x1000 ≤ device.address.domain) {text : List Char}
    (htext : parseBusId text = some device.address) :
    pool.cuDeviceGetByPCIBusId text ≠ .ok (i : ℤ) := by
  have hsmall := hdocs.domain_lt device (List.mem_of_getElem? hi)
  obtain ⟨separator, hsynthetic⟩ := syntheticId_of_parseBusId htext hsmall
  rw [if_pos hdomain] at hsynthetic
  have htarget : staticCastInt (device.address.domain - 0x1000) ≠ -1 :=
    staticCastInt_ne (by omega)
  rw [cuDeviceGetByPCIBusId_synthetic hsynthetic]
  intro hok
  have hfind := (hdocs.lookupVirtualDevice_eq_ok _ _ i).mp hok
  have hcandidate := List.find?_some hfind
  rw [hdocs.not_isCandidate_local hi hlocal htarget separator] at hcandidate
  exact Bool.false_ne_true hcandidate

theorem syntheticId_remote (hi : pool.devices[i]? = some device)
    (hserver : device.server = some index) {len : ℤ} (hlen : 13 ≤ len) :
    syntheticId (snprintf len.toNat (hexDigits 8 (0x1000 + index) ++ device.suffix)) =
      some (0x1000 + index, device.suffix.take (len.toNat - 9)) := by
  have hmem := List.mem_of_getElem? hi
  obtain ⟨-, rest, -, hsuffix, -, -, -⟩ := hdocs.busId_eq hmem
  have hlt : index < 2 ^ 31 := Nat.lt_trans (hdocs.lt_servers hmem hserver) hdocs.servers
  have hnumber : hexNumber (hexDigits 8 (0x1000 + index)) = 0x1000 + index := by
    rw [hexNumber_hexDigits]
    exact Nat.mod_eq_of_lt (by omega)
  obtain ⟨n, hn⟩ : ∃ n, len.toNat = n + 10 := ⟨len.toNat - 10, by omega⟩
  have hcut : snprintf len.toNat (hexDigits 8 (0x1000 + index) ++ device.suffix) =
      hexDigits 8 (0x1000 + index) ++ ':' :: rest.take n := by
    rw [snprintf, List.take_append, length_hexDigits, hsuffix, hn, List.take_of_length_le]
    · rfl
    · rw [length_hexDigits]
      omega
  rw [hcut, syntheticId_append _ _ fun c ↦ isHex_of_mem_hexDigits, hnumber, if_pos (by omega),
    hsuffix, hn]
  · rfl
  · rw [hnumber]
    omega
  · rw [← List.length_pos_iff, length_hexDigits]
    decide

/-- A server's device is found by its id just when the buffer holds all of the id and no device of
the server that comes earlier has the same bus, device and function. -/
theorem cuDeviceGetByPCIBusId_remote (hi : pool.devices[i]? = some device)
    (hserver : device.server = some index) {len : ℤ} (hlen : 13 ≤ len) :
    pool.cuDeviceGetByPCIBusId
        (snprintf len.toNat (hexDigits 8 (0x1000 + index) ++ device.suffix)) = .ok (i : ℤ) ↔
      (8 + device.suffix.length : ℤ) < len ∧ ∀ j < i, ∀ other, pool.devices[j]? = some other →
        other.server = some index → other.suffix ≠ device.suffix := by
  have hlt : index < 2 ^ 31 :=
    Nat.lt_trans (hdocs.lt_servers (List.mem_of_getElem? hi) hserver) hdocs.servers
  have htarget : staticCastInt (0x1000 + index - 0x1000) = index := by
    rw [Nat.add_sub_cancel_left]
    exact staticCastInt_of_lt hlt
  rw [cuDeviceGetByPCIBusId_synthetic (hdocs.syntheticId_remote hi hserver hlen), htarget,
    hdocs.lookupVirtualDevice_eq_ok, List.find?_range_eq_some, hdocs.isCandidate_iff hi]
  constructor
  · rintro ⟨⟨-, hsuffix⟩, -, hbefore⟩
    have hlength := congrArg List.length hsuffix
    rw [List.length_take] at hlength
    refine ⟨by omega, ?_⟩
    intro j hj other hother hsame heq
    have hcandidate := (hdocs.isCandidate_iff hother _).mpr ⟨hsame, heq.trans hsuffix⟩
    exact absurd (hbefore j hj) (by rw [hcandidate]; decide)
  · rintro ⟨hfits, hbefore⟩
    have hsuffix : device.suffix.take (len.toNat - 9) = device.suffix :=
      List.take_of_length_le (by omega)
    have hi' := (List.getElem?_eq_some_iff.mp hi).1
    refine ⟨⟨hserver, hsuffix.symm⟩, List.mem_range.mpr hi', ?_⟩
    intro j hj
    have hother := List.getElem?_eq_getElem (hj.trans hi')
    rw [Bool.not_eq_true', ← Bool.not_eq_true, hdocs.isCandidate_iff hother]
    rintro ⟨hsame, heq⟩
    exact hbefore j hj _ hother hsame (heq.trans hsuffix)

/-! ## The NVML id of a device

The shim virtualizes the id through a second lookup of the handle, which by then is the server's.
The address of an entry is found there and a handle of the server is not, so the id of a server's
device stays as it is. -/

omit hdocs in
theorem ensureDevices_eq_ok (hopen : pool.client.conns ≠ []) : pool.ensureDevices = .ok () :=
  if_neg hopen

omit hdocs in
/-- Without a connection there is no NVML id. -/
theorem nvmlDeviceGetPciInfo_of_nil (hnone : pool.client.conns = []) (handle : ℕ) :
    pool.nvmlDeviceGetPciInfo handle = .error .errorUninitialized := by
  have hensure : pool.ensureDevices = .error pool.rpcError := if_pos hnone
  have herror : pool.rpcError = .errorUninitialized := if_pos hnone
  simp only [nvmlDeviceGetPciInfo, translateLocalDevice, connectionForDevice, hensure, herror]

omit hdocs in
theorem getElem?_entries (hi : pool.devices[i]? = some device) :
    pool.entries[i]? = some device.nvmlEntry := by
  rw [entries, List.getElem?_map, hi, Option.map_some]

theorem mappedDevice_nvmlDevice (hi : pool.devices[i]? = some device) :
    pool.mappedDevice (pool.nvmlDevice i) = some device.nvmlEntry := by
  have hentry := getElem?_entries hi
  have hlt : i < pool.entries.length := (List.getElem?_eq_some_iff.mp hentry).1
  have hnonempty : pool.entries ≠ [] := List.ne_nil_of_length_pos (by omega)
  have hbase := hdocs.base_pos
  have hend : i * pool.entrySize < pool.entries.length * pool.entrySize :=
    Nat.mul_lt_mul_of_pos_right hlt hdocs.entrySize_pos
  have hsub : pool.nvmlDevice i - pool.base = i * pool.entrySize :=
    Nat.add_sub_cancel_left _ _
  rw [mappedDevice, hsub, Nat.mul_mod_left, Nat.mul_div_cancel _ hdocs.entrySize_pos, hentry,
    nvmlDevice, nvmlDevice, if_neg, if_neg]
  · omega
  · rintro (hzero | hnil)
    · omega
    · exact hnonempty hnil

theorem nvmlDeviceGetPciInfo_local (hopen : pool.client.conns ≠ [])
    (hi : pool.devices[i]? = some device) (hlocal : device.server = none) :
    pool.nvmlDeviceGetPciInfo (pool.nvmlDevice i) = .ok device.pciInfo := by
  have hdriver := (hdocs.pciInfo device (List.mem_of_getElem? hi)).2.2
  rw [hlocal] at hdriver
  simp only [nvmlDeviceGetPciInfo, translateLocalDevice, ensureDevices_eq_ok hopen,
    hdocs.mappedDevice_nvmlDevice hi, PoolDevice.nvmlEntry, hlocal, if_true, hdriver]

/-- **The NVML id of a server's device.** What the shim looks up to virtualize the id is the
server's handle. Unless that happens to be the address of an entry, the id stays as it is. -/
theorem nvmlDeviceGetPciInfo_remote (hi : pool.devices[i]? = some device)
    (hserver : device.server = some index)
    (hunmapped : pool.mappedDevice device.nvmlHandle = none) :
    pool.nvmlDeviceGetPciInfo (pool.nvmlDevice i) = .ok device.pciInfo := by
  have hmem := List.mem_of_getElem? hi
  have hdriver := (hdocs.pciInfo device hmem).2.2
  obtain ⟨conn, hconn⟩ := exists_connection (hdocs.lt_servers hmem hserver)
  have hlogical := pool.client.logicalIndex_eq index conn hconn
  have hopen : pool.client.conns ≠ [] :=
    List.ne_nil_of_length_pos (Nat.zero_lt_of_lt (hdocs.lt_servers hmem hserver))
  have hnonempty : pool.entries ≠ [] :=
    List.ne_nil_of_mem (List.mem_of_getElem? (getElem?_entries hi))
  rw [hserver] at hdriver
  simp only [nvmlDeviceGetPciInfo, translateLocalDevice, connectionForDevice,
    ensureDevices_eq_ok hopen, hdocs.mappedDevice_nvmlDevice hi, PoolDevice.nvmlEntry, hserver,
    hnonempty, hconn, hlogical, Bool.false_eq_true, if_false, Int.toNat_natCast, hdriver,
    virtualizeRemotePciIdentity, hunmapped]

theorem nvmlDeviceGetHandleByPciBusId_local (hopen : pool.client.conns ≠ [])
    (hi : pool.devices[i]? = some device) (hlocal : device.server = none)
    (hdomain : device.address.domain < 0x1000) {text : List Char}
    (htext : parseBusId text = some device.address) :
    pool.nvmlDeviceGetHandleByPciBusId text = .ok (pool.nvmlDevice i) := by
  have hmem := List.mem_of_getElem? hi
  obtain ⟨separator, hsynthetic⟩ :=
    syntheticId_of_parseBusId htext (hdocs.domain_lt device hmem)
  rw [if_neg (by omega)] at hsynthetic
  have hdriver := (hdocs.byBusId device hmem text htext).2
  rw [hlocal] at hdriver
  have hfind : pool.entries.findIdx? (fun candidate ↦
      candidate.isLocal && candidate.localDevice == device.nvmlHandle) = some i := by
    apply findIdx?_eq_some_of_unique (getElem?_entries hi)
    · simp [PoolDevice.nvmlEntry, hlocal]
    · intro j entry hj hmatch
      rw [entries, List.getElem?_map, Option.map_eq_some_iff] at hj
      obtain ⟨other, hother, rfl⟩ := hj
      cases hserver : other.server with
      | none =>
        simp only [PoolDevice.nvmlEntry, hserver, Bool.true_and, beq_iff_eq] at hmatch
        exact hdocs.nvmlHandle j i other device hother hi (hserver.trans hlocal.symm) hmatch
      | some index =>
        simp only [PoolDevice.nvmlEntry, hserver, Bool.false_and] at hmatch
        exact absurd hmatch Bool.false_ne_true
  simp only [nvmlDeviceGetHandleByPciBusId, hsynthetic, hdriver, mapLocalDevice,
    ensureDevices_eq_ok hopen, hfind]

end PciPool.Documented

/-! ## When the identities serve

A buffer of the documented length is too short for a virtual id, which leaves the pools of local
devices only. Below the domains that the client gives away their ids are those of the drivers. -/

namespace PciPool

variable {pool : PciPool}

/-- When the CUDA lookup finds a device by its id in a buffer of that length. -/
def FoundByBusId (pool : PciPool) (i : ℕ) (device : PoolDevice) (len : ℤ) : Prop :=
  match device.server with
  | none => device.address.domain < 0x1000
  | some index => (8 + device.suffix.length : ℤ) < len ∧ ∀ j < i, ∀ other,
      pool.devices[j]? = some other → other.server = some index → other.suffix ≠ device.suffix

/-- **One device.** The CUDA lookup gives a device back for the CUDA id of it just when it is local
and in a domain below 0x1000, or a server's, the first with its suffix there, and the whole of the
id is in the buffer. -/
theorem Documented.found_iff (hdocs : pool.Documented) {i : ℕ} {device : PoolDevice}
    (hi : pool.devices[i]? = some device) {len : ℤ} (hlen : 13 ≤ len) :
    (∃ text, pool.cuDeviceGetPCIBusId len i = .ok text ∧
      pool.cuDeviceGetByPCIBusId text = .ok (i : ℤ)) ↔ pool.FoundByBusId i device len := by
  have hparse := (hdocs.busId device (List.mem_of_getElem? hi)).1
  rw [FoundByBusId]
  cases hserver : device.server with
  | none =>
    have htext := hdocs.cuDeviceGetPCIBusId_local hi hserver hlen
    constructor
    · rintro ⟨text, hok, hfound⟩
      rw [htext, Except.ok.injEq] at hok
      by_contra hdomain
      exact hdocs.cuDeviceGetByPCIBusId_ne hi hserver (not_lt.mp hdomain) hparse (hok ▸ hfound)
    · intro hdomain
      exact ⟨_, htext, hdocs.cuDeviceGetByPCIBusId_local hi hserver hdomain hparse⟩
  | some index =>
    have htext := hdocs.cuDeviceGetPCIBusId_remote hi hserver hlen
    have hfound := hdocs.cuDeviceGetByPCIBusId_remote hi hserver hlen
    constructor
    · rintro ⟨text, hok, hback⟩
      rw [htext, Except.ok.injEq] at hok
      exact hfound.mp (hok ▸ hback)
    · intro hcondition
      exact ⟨_, htext, hfound.mpr hcondition⟩

theorem Documented.pciIdentities (hdocs : pool.Documented)
    (hlocal : ∀ device ∈ pool.devices, pool.client.conns ≠ [] ∧ device.server = none ∧
      device.address.domain < 0x1000) :
    pool.PciIdentities := by
  have hdevice : ∀ i : ℕ, i < pool.devices.length → ∃ device, pool.devices[i]? = some device ∧
      pool.client.conns ≠ [] ∧ device.server = none ∧ device.address.domain < 0x1000 := by
    intro i hi
    exact ⟨_, List.getElem?_eq_getElem hi, hlocal _ (List.getElem_mem hi)⟩
  -- devices of one server have different addresses, by the documentation of the driver
  have hne : ∀ i j : ℕ, i ≠ j → ∀ device other, pool.devices[i]? = some device →
      pool.devices[j]? = some other → device.server = other.server →
        some device.address ≠ some other.address := by
    intro i j hij device other hi hj hserver heq
    exact hij (hdocs.address i j device other hi hj hserver (Option.some_inj.mp heq))
  constructor
  -- the bus ids of CUDA differ, and those of NVML, as either is read back as the address
  · intro i j hi hj hij text text' htext htext'
    obtain ⟨device, hi, -, hserver, -⟩ := hdevice i hi
    obtain ⟨other, hj, -, hserver', -⟩ := hdevice j hj
    rw [hdocs.cuDeviceGetPCIBusId_local hi hserver (by decide), Except.ok.injEq] at htext
    rw [hdocs.cuDeviceGetPCIBusId_local hj hserver' (by decide), Except.ok.injEq] at htext'
    rw [← htext, ← htext', (hdocs.busId device (List.mem_of_getElem? hi)).1,
      (hdocs.busId other (List.mem_of_getElem? hj)).1]
    exact hne i j hij device other hi hj (hserver.trans hserver'.symm)
  · intro i j hi hj hij pci pci' hpci hpci'
    obtain ⟨device, hi, hopen, hserver, -⟩ := hdevice i hi
    obtain ⟨other, hj, -, hserver', -⟩ := hdevice j hj
    rw [hdocs.nvmlDeviceGetPciInfo_local hopen hi hserver, Except.ok.injEq] at hpci
    rw [hdocs.nvmlDeviceGetPciInfo_local hopen hj hserver', Except.ok.injEq] at hpci'
    rw [← hpci, ← hpci', (hdocs.pciInfo device (List.mem_of_getElem? hi)).1,
      (hdocs.pciInfo other (List.mem_of_getElem? hj)).1]
    exact hne i j hij device other hi hj (hserver.trans hserver'.symm)
  · intro i hi len hlen
    obtain ⟨device, hi, hopen, hserver, hdomain⟩ := hdevice i hi
    have hparse := (hdocs.busId device (List.mem_of_getElem? hi)).1
    exact ⟨_, hdocs.cuDeviceGetPCIBusId_local hi hserver hlen,
      hdocs.cuDeviceGetByPCIBusId_local hi hserver hdomain hparse,
      hdocs.nvmlDeviceGetHandleByPciBusId_local hopen hi hserver hdomain hparse⟩
  · intro i hi
    obtain ⟨device, hi, hopen, hserver, hdomain⟩ := hdevice i hi
    have hparse := (hdocs.pciInfo device (List.mem_of_getElem? hi)).1
    exact ⟨_, hdocs.nvmlDeviceGetPciInfo_local hopen hi hserver,
      hdocs.cuDeviceGetByPCIBusId_local hi hserver hdomain hparse,
      hdocs.nvmlDeviceGetHandleByPciBusId_local hopen hi hserver hdomain hparse⟩
  · intro i hi
    obtain ⟨device, hi, hopen, hserver, -⟩ := hdevice i hi
    have hmem := List.mem_of_getElem? hi
    refine ⟨_, _, hdocs.cuDeviceGetPCIBusId_local hi hserver (by decide),
      hdocs.nvmlDeviceGetPciInfo_local hopen hi hserver, ?_⟩
    rw [(hdocs.busId device hmem).1, (hdocs.pciInfo device hmem).1]

/-- **PCI identities.** They serve in a pool just when it is of local devices only, in domains below
0x1000, and a server is connected: the id of a server's device does not fit in a buffer of the
documented length, a local device above is taken for a server's, and without a connection NVML
answers nothing. Device by device, the CUDA lookup inverts the CUDA id just when `FoundByBusId`
says. -/
theorem pciIdentities_iff (hdocs : pool.Documented) :
    (pool.PciIdentities ↔ ∀ device ∈ pool.devices,
      pool.client.conns ≠ [] ∧ device.server = none ∧ device.address.domain < 0x1000) ∧
    ∀ (i : ℕ) device, pool.devices[i]? = some device → ∀ len : ℤ, 13 ≤ len →
      ((∃ text, pool.cuDeviceGetPCIBusId len i = .ok text ∧
        pool.cuDeviceGetByPCIBusId text = .ok (i : ℤ)) ↔ pool.FoundByBusId i device len) := by
  refine ⟨⟨?_, hdocs.pciIdentities⟩, fun i device hi len hlen ↦ hdocs.found_iff hi hlen⟩
  intro hserve device hmem
  obtain ⟨i, hlt, hget⟩ := List.getElem_of_mem hmem
  have hi : pool.devices[i]? = some device := hget ▸ List.getElem?_eq_getElem hlt
  obtain ⟨text, htext, hfound, -⟩ := hserve.cuda_lookup i hlt 13 le_rfl
  have hcondition := (hdocs.found_iff hi le_rfl).mp ⟨text, htext, hfound⟩
  obtain ⟨-, -, -, -, -, hlong, -⟩ := hdocs.busId_eq hmem
  have hopen : pool.client.conns ≠ [] := by
    intro hnone
    obtain ⟨pci, hpci, -⟩ := hserve.nvml_lookup i hlt
    rw [Documented.nvmlDeviceGetPciInfo_of_nil hnone] at hpci
    exact absurd hpci (by simp)
  rw [FoundByBusId] at hcondition
  cases hserver : device.server with
  | none =>
    rw [hserver] at hcondition
    exact ⟨hopen, rfl, hcondition⟩
  | some index =>
    rw [hserver] at hcondition
    exact absurd hcondition.1 (by omega)

/-! ## Machines with one device each -/

/-- A device in bus 1 of a machine of its own. -/
def deviceOf (server : Option ℕ) : PoolDevice where
  server := server
  handle := 0
  nvmlHandle := 4096
  address := ⟨0, 1, 0, 0⟩
  busId := "0000:01:00.0".toList
  pciInfo := ⟨"00000000:01:00.0".toList, 0, 1, 0⟩

/-- The libraries of a machine that has only that device. -/
def driverOf (device : PoolDevice) : PciDriver where
  getPCIBusId len _ := .ok (snprintf len.toNat device.busId)
  getByPCIBusId text :=
    if parseBusId text = some device.address then .ok device.handle else .error errorInvalidDevice
  getPciInfo _ := .ok device.pciInfo
  getHandleByPciBusId text :=
    if parseBusId text = some device.address then .ok device.nvmlHandle else .error .errorNotFound

def ofMachines (client : Connections) (servers : List (Option ℕ)) : PciPool where
  client := client
  devices := servers.map deviceOf
  drivers server := driverOf (deviceOf server)

theorem cudaEntry_injective : Function.Injective (PoolDevice.cudaEntry ∘ deviceOf) := by
  rintro (_ | index) (_ | index') heq
  · rfl
  · exact absurd (congrArg DeviceEntry.isLocal heq).symm Bool.false_ne_true
  · exact absurd (congrArg DeviceEntry.isLocal heq) Bool.false_ne_true
  · exact congrArg some (congrArg DeviceEntry.connIndex heq)

theorem documented_ofMachines (client : Connections) (servers : List (Option ℕ))
    (hnodup : servers.Nodup) (hlength : servers.length < 2 ^ 31)
    (hservers : client.conns.length < 2 ^ 31)
    (hopen : ∀ index, some index ∈ servers → index < client.conns.length) :
    (ofMachines client servers).Documented := by
  -- there is one device on each machine, so two devices of one machine are the same
  have hserver : ∀ (i j : ℕ) device other, (ofMachines client servers).devices[i]? = some device →
      (ofMachines client servers).devices[j]? = some other → device.server = other.server →
        i = j := by
    intro i j device other hi hj heq
    simp only [ofMachines, List.getElem?_map, Option.map_eq_some_iff] at hi hj
    obtain ⟨server, hi, rfl⟩ := hi
    obtain ⟨server', hj, rfl⟩ := hj
    obtain rfl : server = server' := heq
    exact (List.getElem?_inj (List.getElem?_eq_some_iff.mp hi).1 hnodup).mp (hi.trans hj.symm)
  have hmem : ∀ device ∈ (ofMachines client servers).devices,
      ∃ server ∈ servers, device = deviceOf server := by
    intro device hdevice
    obtain ⟨server, hserver, rfl⟩ := List.mem_map.mp hdevice
    exact ⟨server, hserver, rfl⟩
  have hdrivers : ∀ device ∈ (ofMachines client servers).devices,
      parseBusId device.busId = some device.address ∧ device.busId.length < 13 ∧
        parseBusId device.pciInfo.busId = some device.address ∧
        device.pciInfo.busId.length < 32 ∧ device.address.domain < 2 ^ 32 ∧
        (ofMachines client servers).drivers device.server = driverOf device := by
    intro device hdevice
    obtain ⟨server, -, rfl⟩ := hmem device hdevice
    exact ⟨rfl, Nat.lt_of_sub_eq_succ rfl, rfl, Nat.lt_of_sub_eq_succ rfl, Nat.two_pow_pos 32, rfl⟩
  exact {
    table := {
      entries := by
        intro entry hentry
        obtain ⟨device, hdevice, rfl⟩ := List.mem_map.mp hentry
        obtain ⟨server, hserver, rfl⟩ := hmem device hdevice
        cases server with
        | none => exact Or.inl rfl
        | some index => exact Or.inr ⟨hopen index hserver, rfl⟩
      nodup := by
        rw [PciPool.table, ofMachines, List.map_map]
        exact hnodup.map cudaEntry_injective
      small := by
        rw [PciPool.table, ofMachines, List.map_map, List.length_map]
        exact hlength }
    servers := hservers
    base_pos := Nat.succ_pos 7
    entrySize_pos := Nat.succ_pos 63
    nvmlHandle := fun i j device other hi hj heq _ ↦ hserver i j device other hi hj heq
    address := fun i j device other hi hj heq _ ↦ hserver i j device other hi hj heq
    domain_lt := fun device hdevice ↦ (hdrivers device hdevice).2.2.2.2.1
    busId := by
      intro device hdevice
      obtain ⟨hparse, hlen, -, -, -, hdriver⟩ := hdrivers device hdevice
      refine ⟨hparse, hlen, fun len hle ↦ ?_⟩
      rw [hdriver]
      exact congrArg Except.ok (snprintf_of_length_lt (by omega))
    pciInfo := by
      intro device hdevice
      obtain ⟨-, -, hparse, hlen, -, hdriver⟩ := hdrivers device hdevice
      exact ⟨hparse, hlen, by rw [hdriver]; rfl⟩
    byBusId := by
      intro device hdevice text htext
      obtain ⟨-, -, -, -, -, hdriver⟩ := hdrivers device hdevice
      rw [hdriver]
      exact ⟨if_pos htext, if_pos htext⟩ }

/-- A local device beside a server that has none, and a server's through a buffer that holds its
id. -/
theorem pciIdentities_iff_ofMachines :
    (ofMachines (.ofSize 1) [none]).PciIdentities ∧
      ∃ text, (ofMachines (.ofSize 1) [some 0]).cuDeviceGetPCIBusId 17 0 = .ok text ∧
        (ofMachines (.ofSize 1) [some 0]).cuDeviceGetByPCIBusId text = .ok 0 := by
  have hlocal := documented_ofMachines (.ofSize 1) [none] (by decide) (by decide) (by decide)
    (by simp)
  have hserver := documented_ofMachines (.ofSize 1) [some 0] (by decide) (by decide) (by decide)
    (by simp [Connections.ofSize])
  refine ⟨(pciIdentities_iff hlocal).1.mpr (by decide), ?_⟩
  refine ((pciIdentities_iff hserver).2 0 (deviceOf (some 0)) rfl 17 (by decide)).mpr ?_
  exact ⟨by decide, fun j hj ↦ absurd hj (Nat.not_lt_zero j)⟩

/-- **One id for two devices.** Two servers with a device under the same physical id: their NVML ids
are the same. -/
theorem servers_share_nvml_id :
    (ofMachines (.ofSize 2) [some 0, some 1]).Documented ∧
      ¬(ofMachines (.ofSize 2) [some 0, some 1]).PciIdentities := by
  have hdocs := documented_ofMachines (.ofSize 2) [some 0, some 1] (by decide) (by decide)
    (by decide) (by simp [Connections.ofSize])
  refine ⟨hdocs, fun hserve ↦ ?_⟩
  exact hserve.nvml_distinct 0 1 (by decide) (by decide) (by decide) _ _
    (hdocs.nvmlDeviceGetPciInfo_remote rfl rfl (by decide))
    (hdocs.nvmlDeviceGetPciInfo_remote rfl rfl (by decide)) rfl

end PciPool

end Lupine
