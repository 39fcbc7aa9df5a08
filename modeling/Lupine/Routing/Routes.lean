import Lupine.Cuda

/-!
# Routes

A handle belongs to the local driver or to the server behind one connection. A route says which, and
tables keep its identity: -1 for the local driver, the logical index of the connection for a server.

An identity outlives the connection it came from: it is turned back into a route when it is used, by
the connections that are open then.
-/

namespace Lupine

/-- `conn_t`, as far as routing reads it. -/
structure Conn where
  logicalIndex : ℤ
  deriving DecidableEq, Repr

/-- `conns` with its `nconns` entries, each opened under its own index. -/
structure Connections where
  conns : List Conn := []
  logicalIndex_eq : ∀ (i : ℕ) (conn : Conn),
    conns[i]? = some conn → conn.logicalIndex = i := by simp

def Connections.ofSize (n : ℕ) : Connections where
  conns := (List.range n).map fun i : ℕ ↦ ⟨i⟩
  logicalIndex_eq := by
    intro i conn h
    rw [List.getElem?_map, Option.map_eq_some_iff] at h
    obtain ⟨j, hj, rfl⟩ := h
    rw [(List.getElem?_eq_some_iff.mp hj).2.symm, List.getElem_range]

inductive RouteKind where
  | remote
  | localDriver
  | invalid
  | unknownDevice
  deriving DecidableEq, Repr

/-- `lupine_route`. -/
structure Route where
  kind : RouteKind := .invalid
  conn : Option Conn := none
  deriving DecidableEq, Repr

variable (client : Connections)

/-- `lupine_conn_index`. -/
def connIndex (conn : Option Conn) : ℤ :=
  match conn with
  | none => -1
  | some conn =>
    if 0 ≤ conn.logicalIndex ∧ conn.logicalIndex < client.conns.length then conn.logicalIndex
    else -1

/-- `rpc_client_get_connection`. -/
def rpcClientGetConnection (index : ℕ) : Option Conn := client.conns[index]?

/-- `lupine_remote_route_for_conn`. -/
def remoteRouteForConn (conn : Option Conn) : Route :=
  match conn with
  | none => ⟨.invalid, none⟩
  | some conn => ⟨.remote, some conn⟩

/-- `lupine_local_route`. -/
def localRoute : Route := ⟨.localDriver, none⟩

/-- `lupine_route_identity`. -/
def routeIdentity (route : Route) : ℤ :=
  if route.kind = .localDriver then -1
  else if route.kind = .remote then
    let index := connIndex client route.conn
    if 0 ≤ index then index else -2
  else -2

/-- `lupine_route_from_identity`. -/
def routeFromIdentity (routeId : ℤ) : Route :=
  if routeId = -1 then localRoute
  else if 0 ≤ routeId then remoteRouteForConn (rpcClientGetConnection client routeId.toNat)
  else ⟨.invalid, none⟩

variable {client}

/-- The connection of an entry has that entry's index. -/
theorem connIndex_of_get {i : ℕ} {conn : Conn} (h : rpcClientGetConnection client i = some conn) :
    connIndex client (some conn) = i := by
  have hindex : conn.logicalIndex = i := client.logicalIndex_eq i conn h
  have hlt : i < client.conns.length := (List.getElem?_eq_some_iff.mp h).1
  simp only [connIndex]
  rw [if_pos (by omega), hindex]

/-- A connection below the number of servers is there. -/
theorem exists_connection {i : ℕ} (h : i < client.conns.length) :
    ∃ conn, rpcClientGetConnection client i = some conn :=
  ⟨_, List.getElem?_eq_getElem h⟩

end Lupine
