import Lupine.Foundation.PointerTable
import Lupine.Server.DtohCopies

/-!
# The resources of a graph

A `lupine_graph_resources` lists the device-to-host copies of a graph and owns the pinned scratch
memory that a capture stages its host data in. It is never freed. Graphs, executable graphs, streams
and events refer to it by pointer, each through a map of its own.
-/

namespace Lupine

open Foundation

/-- `lupine_graph_capture_scratch`. -/
structure GraphCaptureScratch where
  ptr : HostPtr
  size : ℕ
  offset : ℕ := 0
  deriving DecidableEq, Repr

/-- `lupine_graph_resources`, with the list of `lupine_graph_host_copy_node` from its head. -/
structure GraphResources where
  dtohCopies : List GraphHostCopy := []
  captureScratch : Option GraphCaptureScratch := none
  deriving DecidableEq, Repr

namespace GraphResources

/-- `add_dtoh_copy`. -/
def addDtohCopy (copy : GraphHostCopy) (resources : GraphResources) : GraphResources :=
  { resources with dtohCopies := copy :: resources.dtohCopies }

/-- `dtoh_copy_snapshot`. -/
def dtohCopySnapshot (resources : GraphResources) : List GraphHostCopy :=
  resources.dtohCopies.reverse

/-- `has_capture_scratch`. -/
def hasCaptureScratch (resources : GraphResources) : Bool := resources.captureScratch.isSome

/-- `install_capture_scratch`; the scratch that is there stays. -/
def installCaptureScratch (scratch : HostPtr) (size : ℕ) (resources : GraphResources) :
    GraphResources :=
  if scratch = 0 ∨ resources.hasCaptureScratch then resources
  else { resources with captureScratch := some ⟨scratch, size, 0⟩ }

/-- `allocate_capture_scratch`: the address, and the resources afterwards. Blocks start at multiples
of 256. -/
def allocateCaptureScratch (bytes : ℕ) (resources : GraphResources) :
    Option HostPtr × GraphResources :=
  match resources.captureScratch with
  | none => (none, resources)
  | some scratch =>
    let aligned := (scratch.offset + 255) / 256 * 256
    if bytes = 0 ∨ scratch.size < scratch.offset ∨ 2 ^ 64 - 1 - 255 < scratch.offset ∨
        scratch.size < aligned ∨ scratch.size - aligned < bytes then (none, resources)
    else (some (scratch.ptr + aligned),
      { resources with captureScratch := some { scratch with offset := aligned + bytes } })

@[simp] theorem dtohCopySnapshot_empty : ({} : GraphResources).dtohCopySnapshot = [] := rfl

@[simp] theorem dtohCopySnapshot_addDtohCopy (copy : GraphHostCopy) (resources : GraphResources) :
    (resources.addDtohCopy copy).dtohCopySnapshot = resources.dtohCopySnapshot ++ [copy] :=
  List.reverse_cons

@[simp] theorem dtohCopySnapshot_installCaptureScratch (scratch : HostPtr) (size : ℕ)
    (resources : GraphResources) :
    (resources.installCaptureScratch scratch size).dtohCopySnapshot
      = resources.dtohCopySnapshot := by
  rw [installCaptureScratch]
  split_ifs <;> rfl

@[simp] theorem dtohCopySnapshot_allocateCaptureScratch (bytes : ℕ) (resources : GraphResources) :
    (resources.allocateCaptureScratch bytes).2.dtohCopySnapshot = resources.dtohCopySnapshot := by
  rw [allocateCaptureScratch]
  cases resources.captureScratch with
  | none => rfl
  | some scratch =>
    dsimp only
    split_ifs <;> rfl

end GraphResources

/-- The resources handed out. -/
abbrev ResourceHeap := Heap GraphResources

def noResources : ResourceHeap := { get := fun _ ↦ {} }

def ResourceHeap.snapshot (heap : ResourceHeap) : DtohCopySnapshot :=
  fun r ↦ (heap.get r).dtohCopySnapshot

namespace ResourceHeap

theorem snapshot_alloc_next (heap : ResourceHeap) : snapshot (heap.alloc {}) heap.next = [] := by
  rw [snapshot, Heap.get_alloc_next, GraphResources.dtohCopySnapshot_empty]

theorem snapshot_alloc_of_lt {heap : ResourceHeap} {r : ResourcesPtr} (h : r < heap.next) :
    snapshot (heap.alloc {}) r = snapshot heap r := by
  rw [snapshot, Heap.get_alloc_of_lt h, snapshot]

/-- A change of other things than the copies. -/
theorem snapshot_modify {heap : ResourceHeap} {f : GraphResources → GraphResources}
    (h : ∀ x, (f x).dtohCopySnapshot = x.dtohCopySnapshot) (r : ResourcesPtr) :
    snapshot (heap.modify r f) = snapshot heap :=
  funext fun q ↦ Heap.map_get_modify h heap r q

theorem snapshot_addDtohCopy_self (heap : ResourceHeap) (r : ResourcesPtr) (copy : GraphHostCopy) :
    snapshot (heap.modify r (GraphResources.addDtohCopy copy)) r = snapshot heap r ++ [copy] := by
  rw [snapshot, Heap.get_modify_self, GraphResources.dtohCopySnapshot_addDtohCopy, snapshot]

theorem snapshot_addDtohCopy_of_ne {heap : ResourceHeap} {r q : ResourcesPtr} (h : q ≠ r)
    (copy : GraphHostCopy) :
    snapshot (heap.modify r (GraphResources.addDtohCopy copy)) q = snapshot heap q := by
  rw [snapshot, Heap.get_modify_of_ne h, snapshot]

end ResourceHeap

/-- The resources that a map has for a key, by address. -/
abbrev ResourceMap := PointerTable ℕ

/-- The copies of the resources that a map has for a key: none when it has no resources. -/
def attachedCopies (heap : ResourceHeap) (map : ResourceMap) (key : ℕ) : List GraphHostCopy :=
  ((map.lookup key).map heap.snapshot).getD []

theorem attachedCopies_of_some {heap : ResourceHeap} {map : ResourceMap} {key : ℕ}
    {r : ResourcesPtr} (h : map.lookup key = some r) :
    attachedCopies heap map key = heap.snapshot r := by
  rw [attachedCopies, h]
  rfl

theorem attachedCopies_of_none {heap : ResourceHeap} {map : ResourceMap} {key : ℕ}
    (h : map.lookup key = none) : attachedCopies heap map key = [] := by
  rw [attachedCopies, h]
  rfl

theorem attachedCopies_congr {heap heap' : ResourceHeap} {map map' : ResourceMap} {key : ℕ}
    (hlookup : map'.lookup key = map.lookup key)
    (hcopies : ∀ r, map.lookup key = some r → heap'.snapshot r = heap.snapshot r) :
    attachedCopies heap' map' key = attachedCopies heap map key := by
  rw [attachedCopies, attachedCopies, hlookup]
  cases h : map.lookup key with
  | none => rfl
  | some r => exact hcopies r h

end Lupine
