import Lupine.Cuda
import Lupine.Foundation.Boxes
import Lupine.Foundation.Patches

/-!
# Two- and three-dimensional copies to the host

The client sends the descriptor of the copy, the bytes the host source spans and the number of
bytes the host destination spans. The server copies into a buffer of that many bytes and sends the
whole buffer back, which the client reads over the whole destination span.

## Padding

The server's buffer starts out zeroed and does not hold what the client has in the padding of its
rows, before the corner of the box or between the slices. So a successful copy clears those bytes:
only where the client had zeros in them is the box all that changes.

## Bytes outside of the box

The response is as long as the destination span, and reading it over the span writes every byte of
it. In the server's buffer a byte outside of the box is zero. So the copy changes the box only if
and only if those bytes were zero at the client already, for two and three dimensions alike.
-/

namespace Lupine

open Foundation

/-! ## Descriptors

A copy in two dimensions is one in three with a single slice. The spans are computed in 64-bit
words, which a descriptor that the driver accepts does not exceed. -/

/-- `CUmemorytype`. -/
inductive MemoryType where
  | host
  | device
  | array
  | unified
  deriving DecidableEq, Repr

structure MemcpySide where
  xInBytes : ℕ
  y : ℕ
  z : ℕ
  memoryType : MemoryType
  host : HostPtr
  pitch : ℕ
  height : ℕ
  deriving DecidableEq, Repr

/-- `CUDA_MEMCPY2D`; the `z` and the `height` of its sides are not there in the source. -/
structure Memcpy2D where
  src : MemcpySide
  dst : MemcpySide
  widthInBytes : ℕ
  height : ℕ
  deriving DecidableEq, Repr

/-- `CUDA_MEMCPY3D`. -/
structure Memcpy3D where
  src : MemcpySide
  dst : MemcpySide
  widthInBytes : ℕ
  height : ℕ
  depth : ℕ
  deriving DecidableEq, Repr

/-- `lupine_memcpy2d_host_span`, in 64-bit words. -/
def memcpy2dHostSpan (copy : Memcpy2D) (source : Bool) : ℕ :=
  let side := if source then copy.src else copy.dst
  let pitch := if side.pitch = 0 then copy.widthInBytes + side.xInBytes else side.pitch
  if copy.widthInBytes = 0 ∨ copy.height = 0 then 0
  else ((side.y + copy.height - 1) * pitch + side.xInBytes + copy.widthInBytes) % 2 ^ 64

/-- `lupine_memcpy3d_host_span`, in 64-bit words. -/
def memcpy3dHostSpan (copy : Memcpy3D) (source : Bool) : ℕ :=
  let side := if source then copy.src else copy.dst
  let pitch := if side.pitch = 0 then copy.widthInBytes + side.xInBytes else side.pitch
  let height := if side.height = 0 then copy.height + side.y else side.height
  if copy.widthInBytes = 0 ∨ copy.height = 0 ∨ copy.depth = 0 then 0
  else ((side.z + copy.depth - 1) * pitch * height + (side.y + copy.height - 1) * pitch
    + side.xInBytes + copy.widthInBytes) % 2 ^ 64

/-- The box of a side: a pitch or a height of zero stands for rows or slices without padding. -/
def MemcpySide.box (side : MemcpySide) (width rows slices : ℕ) : Box where
  x := side.xInBytes
  y := side.y
  z := side.z
  pitch := if side.pitch = 0 then width + side.xInBytes else side.pitch
  height := if side.height = 0 then rows + side.y else side.height
  width := width
  rows := rows
  slices := slices

def Memcpy2D.box (copy : Memcpy2D) (source : Bool) : Box :=
  let side := if source then copy.src else copy.dst
  { side with z := 0, height := 0 : MemcpySide }.box copy.widthInBytes copy.height 1

def Memcpy3D.box (copy : Memcpy3D) (source : Bool) : Box :=
  (if source then copy.src else copy.dst).box copy.widthInBytes copy.height copy.depth

theorem memcpy2dHostSpan_eq (copy : Memcpy2D) (source : Bool) :
    memcpy2dHostSpan copy source = (copy.box source).span % 2 ^ 64 := by
  have hiff : (copy.box source).Empty ↔ copy.widthInBytes = 0 ∨ copy.height = 0 := by
    show copy.widthInBytes = 0 ∨ copy.height = 0 ∨ 1 = 0 ↔ _
    simp only [Nat.one_ne_zero, or_false]
  by_cases hempty : copy.widthInBytes = 0 ∨ copy.height = 0
  · rw [Box.span_of_empty (hiff.mpr hempty), Nat.zero_mod]
    exact if_pos hempty
  · rw [Box.span_of_not_empty (mt hiff.mp hempty), memcpy2dHostSpan]
    simp only [if_neg hempty, Memcpy2D.box, MemcpySide.box, Nat.zero_add, Nat.sub_self,
      Nat.zero_mul]

theorem memcpy3dHostSpan_eq (copy : Memcpy3D) (source : Bool) :
    memcpy3dHostSpan copy source = (copy.box source).span % 2 ^ 64 := by
  have hiff : (copy.box source).Empty ↔ copy.widthInBytes = 0 ∨ copy.height = 0 ∨ copy.depth = 0 :=
    Iff.rfl
  by_cases hempty : copy.widthInBytes = 0 ∨ copy.height = 0 ∨ copy.depth = 0
  · rw [Box.span_of_empty (hiff.mpr hempty), Nat.zero_mod]
    exact if_pos hempty
  · rw [Box.span_of_not_empty (mt hiff.mp hempty), memcpy3dHostSpan]
    simp only [if_neg hempty, Memcpy3D.box, MemcpySide.box, Nat.mul_assoc]

/-! ## The driver

What the server's driver does with a copy into a host buffer. A source that is not on the host is
known by its bytes. -/

inductive Memcpy2DOp where
  | sync
  | unaligned
  | async
  deriving DecidableEq, Repr

/-- The bytes of a source: those of the host buffer, or those the driver finds. -/
def sourceRows (side : MemcpySide) (box : Box) (srcHost : ℕ → UInt8) (found : ℕ → ℕ → ℕ → UInt8)
    (k j i : ℕ) : UInt8 :=
  if side.memoryType = .host then srcHost (box.offset k j i) else found k j i

/-- A driver: results are its own, and a copy that succeeds (for an asynchronous one, once its
stream has been synchronized) has written the box and nothing else. -/
structure MemcpyDriver where
  cuMemcpy2D : Memcpy2DOp → CUstream → Memcpy2D → List UInt8 → List UInt8 → CUresult × List UInt8
  cuMemcpy3D : Memcpy3D → List UInt8 → List UInt8 → CUresult × List UInt8
  cuStreamSynchronize : CUstream → CUresult
  found2D : Memcpy2D → ℕ → ℕ → ℕ → UInt8
  found3D : Memcpy3D → ℕ → ℕ → ℕ → UInt8
  scattered2D : ∀ (op : Memcpy2DOp) (stream : CUstream) (copy : Memcpy2D)
    (srcHost dstHost : List UInt8), copy.dst.memoryType = .host → (copy.box false).Valid →
    (copy.box false).span ≤ dstHost.length →
    (copy.src.memoryType = .host → (copy.box true).span ≤ srcHost.length) →
    (cuMemcpy2D op stream copy srcHost dstHost).1 = .success →
    (copy.box false).Scattered
      (sourceRows copy.src (copy.box true) (fun o ↦ srcHost.getD o 0) (found2D copy)) dstHost
      (cuMemcpy2D op stream copy srcHost dstHost).2
  scattered3D : ∀ (copy : Memcpy3D) (srcHost dstHost : List UInt8),
    copy.dst.memoryType = .host → (copy.box false).Valid →
    (copy.box false).span ≤ dstHost.length →
    (copy.src.memoryType = .host → (copy.box true).span ≤ srcHost.length) →
    (cuMemcpy3D copy srcHost dstHost).1 = .success →
    (copy.box false).Scattered
      (sourceRows copy.src (copy.box true) (fun o ↦ srcHost.getD o 0) (found3D copy)) dstHost
      (cuMemcpy3D copy srcHost dstHost).2

/-! ## The server

Both handlers copy into a buffer of as many bytes as the client asked for, and return it if the copy
succeeded. -/

structure Memcpy2DRequest where
  op : Memcpy2DOp
  copy : Memcpy2D
  srcHost : List UInt8
  dstHostSize : ℕ
  stream : CUstream

structure Memcpy3DRequest where
  copy : Memcpy3D
  srcHost : List UInt8
  dstHostSize : ℕ

/-- The response: the returned bytes, with their number, and the result. -/
structure MemcpyReply where
  returned : List UInt8
  result : CUresult

/-- The buffer is returned on success and left out on failure. -/
def memcpyReply (result : CUresult) (dstHost : List UInt8) : MemcpyReply where
  returned := if result = .success then dstHost else []
  result := result

variable (cuda : MemcpyDriver)

/-- `handle_manual_cuMemcpy2D_common`; no response to an asynchronous copy without host memory. -/
def handleManualCuMemcpy2DCommon (request : Memcpy2DRequest) : Option MemcpyReply :=
  let dstHost : List UInt8 := List.replicate request.dstHostSize 0
  let copied := cuda.cuMemcpy2D request.op request.stream request.copy request.srcHost dstHost
  if request.op = .async then
    if request.srcHost.length = 0 ∧ request.dstHostSize = 0 then none
    else
      let result :=
        if copied.1 = .success then cuda.cuStreamSynchronize request.stream else copied.1
      some (memcpyReply result copied.2)
  else some (memcpyReply copied.1 copied.2)

/-- `handle_manual_cuMemcpy3D_v2`. -/
def handleManualCuMemcpy3D (request : Memcpy3DRequest) : MemcpyReply :=
  let dstHost : List UInt8 := List.replicate request.dstHostSize 0
  let copied := cuda.cuMemcpy3D request.copy request.srcHost dstHost
  memcpyReply copied.1 copied.2

/-! ## The client

The copy has been routed to a remote connection, which stays up. -/

def readHost (mem : Memory UInt8) (base size : ℕ) : List UInt8 :=
  (List.range size).map fun o ↦ mem (base + o)

/-- Reading the response: never more bytes than the destination spans. -/
def readReply (mem : Memory UInt8) (dstHost : HostPtr) (dstHostSize : ℕ) (reply : MemcpyReply) :
    CUresult × Memory UInt8 :=
  if reply.returned.length > dstHostSize then (.errorDeviceUnavailable, mem)
  else (reply.result, Patch.apply mem ⟨dstHost, reply.returned⟩)

/-- `lupine_cuMemcpy2D_common`. -/
def cuMemcpy2DCommon (mem : Memory UInt8) (copy : Memcpy2D) (stream : CUstream) (op : Memcpy2DOp) :
    CUresult × Memory UInt8 :=
  let srcHostSize := if copy.src.memoryType = .host then memcpy2dHostSpan copy true else 0
  let dstHostSize := if copy.dst.memoryType = .host then memcpy2dHostSpan copy false else 0
  if (srcHostSize ≠ 0 ∧ copy.src.host = 0) ∨ (dstHostSize ≠ 0 ∧ copy.dst.host = 0) then
    (.errorInvalidValue, mem)
  else
    let reply := handleManualCuMemcpy2DCommon cuda
      { op, copy, srcHost := readHost mem copy.src.host srcHostSize, dstHostSize, stream }
    -- an asynchronous copy without host memory is deferred: nobody waits for a response
    if op = .async ∧ srcHostSize = 0 ∧ dstHostSize = 0 then (.success, mem)
    else
      match reply with
      | none => (.errorDeviceUnavailable, mem)
      | some reply => readReply mem copy.dst.host dstHostSize reply

/-- `cuMemcpy3D_v2`. -/
def cuMemcpy3D (mem : Memory UInt8) (copy : Memcpy3D) : CUresult × Memory UInt8 :=
  let srcHostSize := if copy.src.memoryType = .host then memcpy3dHostSpan copy true else 0
  let dstHostSize := if copy.dst.memoryType = .host then memcpy3dHostSpan copy false else 0
  if (srcHostSize ≠ 0 ∧ copy.src.host = 0) ∨ (dstHostSize ≠ 0 ∧ copy.dst.host = 0) then
    (.errorInvalidValue, mem)
  else
    readReply mem copy.dst.host dstHostSize (handleManualCuMemcpy3D cuda
      { copy, srcHost := readHost mem copy.src.host srcHostSize, dstHostSize })

/-- A call of one of the client's entry points. -/
inductive MemcpyCall where
  | cuMemcpy2D (copy : Memcpy2D)
  | cuMemcpy2DUnaligned (copy : Memcpy2D)
  | cuMemcpy2DAsync (copy : Memcpy2D) (stream : CUstream)
  | cuMemcpy3D (copy : Memcpy3D)
  deriving DecidableEq, Repr

namespace MemcpyCall

def run (mem : Memory UInt8) : MemcpyCall → CUresult × Memory UInt8
  | cuMemcpy2D copy => cuMemcpy2DCommon cuda mem copy 0 .sync
  | cuMemcpy2DUnaligned copy => cuMemcpy2DCommon cuda mem copy 0 .unaligned
  | cuMemcpy2DAsync copy stream => cuMemcpy2DCommon cuda mem copy stream .async
  | cuMemcpy3D copy => Lupine.cuMemcpy3D cuda mem copy

def side (source : Bool) : MemcpyCall → MemcpySide
  | cuMemcpy2D copy | cuMemcpy2DUnaligned copy | cuMemcpy2DAsync copy _ =>
    if source then copy.src else copy.dst
  | cuMemcpy3D copy => if source then copy.src else copy.dst

def box (source : Bool) : MemcpyCall → Box
  | cuMemcpy2D copy | cuMemcpy2DUnaligned copy | cuMemcpy2DAsync copy _ => copy.box source
  | cuMemcpy3D copy => copy.box source

/-- The bytes found at a source that is not on the host. -/
def found : MemcpyCall → ℕ → ℕ → ℕ → UInt8
  | cuMemcpy2D copy | cuMemcpy2DUnaligned copy | cuMemcpy2DAsync copy _ => cuda.found2D copy
  | cuMemcpy3D copy => cuda.found3D copy

end MemcpyCall

/-! ## What a copy may change

The padding is what the span has outside of the box. -/

/-- The box of the destination holds its source, and all other bytes are as they were. -/
def ChangesBoxOnly (box : Box) (base : ℕ) (source : ℕ → ℕ → ℕ → UInt8) (mem mem' : Memory UInt8) :
    Prop :=
  (∀ k < box.slices, ∀ j < box.rows, ∀ i < box.width,
    mem' (base + box.offset k j i) = source k j i) ∧
  ∀ a, (∀ o, box.Contains o → a ≠ base + o) → mem' a = mem a

/-- The client has zeros in the padding of the destination span. -/
def PaddingZero (box : Box) (base : ℕ) (mem : Memory UInt8) : Prop :=
  ∀ o < box.span, ¬ box.Contains o → mem (base + o) = 0

instance (box : Box) (base : ℕ) (mem : Memory UInt8) : Decidable (PaddingZero box base mem) :=
  inferInstanceAs (Decidable (∀ o < box.span, ¬ box.Contains o → mem (base + o) = 0))

variable {box : Box} {base : ℕ} {mem : Memory UInt8} {source : ℕ → ℕ → ℕ → UInt8}
  {buffer : List UInt8}

theorem apply_scattered_apply (h : box.Scattered source (List.replicate box.span 0) buffer)
    (a : ℕ) : Patch.apply mem ⟨base, buffer⟩ a
      = if base ≤ a ∧ a < base + box.span then (buffer[a - base]?).getD 0 else mem a := by
  have hlength : buffer.length = box.span := h.length_eq.trans List.length_replicate
  show (if base ≤ a then buffer[a - base]? else none).getD (mem a) = _
  by_cases hle : base ≤ a
  · rw [if_pos hle]
    by_cases hlt : a < base + box.span
    · rw [if_pos ⟨hle, hlt⟩, List.getElem?_eq_getElem (by omega)]
      rfl
    · rw [if_neg (fun hspan ↦ hlt hspan.2), List.getElem?_eq_none (by omega)]
      rfl
  · rw [if_neg hle, if_neg (fun hspan ↦ hle hspan.1)]
    rfl

/-- **The whole span is written.** A buffer that started out zeroed and has the box copied into it
changes the box only if and only if the padding was zero already. -/
theorem changesBoxOnly_apply_iff
    (h : box.Scattered source (List.replicate box.span 0) buffer) :
    ChangesBoxOnly box base source mem (Patch.apply mem ⟨base, buffer⟩)
      ↔ PaddingZero box base mem := by
  have hpadding : ∀ o < box.span, ¬ box.Contains o → buffer[o]? = some 0 := by
    intro o hlt ho
    rw [h.outside o ho, List.getElem?_replicate, if_pos hlt]
  constructor
  · rintro ⟨-, hframe⟩ o hlt ho
    have hkept := hframe (base + o) fun o' ho' heq ↦ ho (Nat.add_left_cancel heq ▸ ho')
    rw [← hkept, apply_scattered_apply h, if_pos ⟨by omega, by omega⟩, Nat.add_sub_cancel_left,
      hpadding o hlt ho]
    rfl
  · intro hzero
    refine ⟨?_, ?_⟩
    · intro k hk j hj i hi
      have hlt := Box.offset_lt_span hk hj hi
      rw [apply_scattered_apply h, if_pos ⟨by omega, by omega⟩, Nat.add_sub_cancel_left,
        h.inside k hk j hj i hi]
      rfl
    · intro a ha
      rw [apply_scattered_apply h]
      by_cases hspan : base ≤ a ∧ a < base + box.span
      · have ho : ¬ box.Contains (a - base) := fun ho ↦ ha _ ho (by omega)
        have hlt : a - base < box.span := by omega
        have hzero := hzero _ hlt ho
        rw [show base + (a - base) = a by omega] at hzero
        rw [if_pos hspan, hpadding _ hlt ho, hzero]
        rfl
      · rw [if_neg hspan]

/-! ## The calls

What the driver accepts has its rows and slices apart and lies in the address space. -/

/-- A side the driver accepts: rows and slices apart, and all of it within the address space. -/
def SideAccepted (side : MemcpySide) (box : Box) : Prop :=
  box.Valid ∧ side.host + box.span < 2 ^ 64

theorem SideAccepted.span_mod {side : MemcpySide} {box : Box} (h : SideAccepted side box) :
    box.span % 2 ^ 64 = box.span :=
  Nat.mod_eq_of_lt (lt_of_le_of_lt (Nat.le_add_left _ _) h.2)

/-- A copy to the host that the driver accepts. -/
structure MemcpyCall.Accepted (call : MemcpyCall) : Prop where
  to_host : (call.side false).memoryType = .host
  dst : SideAccepted (call.side false) (call.box false)
  src : (call.side true).memoryType = .host → SideAccepted (call.side true) (call.box true)

/-- What the rows of the source hold when the call is made: for a host source, what the client has
there. -/
def MemcpyCall.sourceBytes (call : MemcpyCall) (mem : Memory UInt8) : ℕ → ℕ → ℕ → UInt8 :=
  sourceRows (call.side true) (call.box true) (fun o ↦ mem ((call.side true).host + o))
    (call.found cuda)

theorem length_readHost (mem : Memory UInt8) (base size : ℕ) :
    (readHost mem base size).length = size := by
  rw [readHost, List.length_map, List.length_range]

theorem getD_readHost {mem : Memory UInt8} {base size o : ℕ} (h : o < size) :
    (readHost mem base size).getD o 0 = mem (base + o) := by
  rw [readHost, List.getD_eq_getElem?_getD, List.getElem?_map, List.getElem?_range h]
  rfl

theorem sourceRows_readHost {side : MemcpySide} {box dstBox : Box} {mem : Memory UInt8} {size : ℕ}
    {found : ℕ → ℕ → ℕ → UInt8} (hsize : side.memoryType = .host → size = box.span)
    (hslices : dstBox.slices = box.slices) (hrows : dstBox.rows = box.rows)
    (hwidth : dstBox.width = box.width) :
    ∀ k < dstBox.slices, ∀ j < dstBox.rows, ∀ i < dstBox.width,
      sourceRows side box (fun o ↦ (readHost mem side.host size).getD o 0) found k j i
        = sourceRows side box (fun o ↦ mem (side.host + o)) found k j i := by
  intro k hk j hj i hi
  rw [sourceRows, sourceRows]
  by_cases hhost : side.memoryType = .host
  · rw [if_pos hhost, if_pos hhost, getD_readHost]
    rw [hsize hhost]
    exact Box.offset_lt_span (hslices ▸ hk) (hrows ▸ hj) (hwidth ▸ hi)
  · rw [if_neg hhost, if_neg hhost]

theorem readReply_success {mem : Memory UInt8} {dstHost size : ℕ} {result : CUresult}
    {buffer : List UInt8}
    (h : (readReply mem dstHost size (memcpyReply result buffer)).1 = .success) :
    result = .success ∧
      (readReply mem dstHost size (memcpyReply result buffer)).2
        = Patch.apply mem ⟨dstHost, buffer⟩ := by
  rw [readReply] at h ⊢
  by_cases hlong : (memcpyReply result buffer).returned.length > size
  · rw [if_pos hlong] at h
    exact absurd h (by simp)
  · rw [if_neg hlong] at h ⊢
    have hresult : result = .success := h
    refine ⟨hresult, ?_⟩
    show Patch.apply mem ⟨dstHost, if result = .success then buffer else []⟩ = _
    rw [if_pos hresult]

/-- The server answers every copy the client waits for, with the buffer of a successful copy. -/
theorem handleManualCuMemcpy2DCommon_reply (request : Memcpy2DRequest)
    (h : ¬ (request.op = .async ∧ request.srcHost.length = 0 ∧ request.dstHostSize = 0)) :
    ∃ result, (result = .success → (cuda.cuMemcpy2D request.op request.stream request.copy
        request.srcHost (List.replicate request.dstHostSize 0)).1 = .success) ∧
      handleManualCuMemcpy2DCommon cuda request
        = some (memcpyReply result (cuda.cuMemcpy2D request.op request.stream request.copy
            request.srcHost (List.replicate request.dstHostSize 0)).2) := by
  rw [handleManualCuMemcpy2DCommon]
  by_cases hasync : request.op = .async
  · rw [if_pos hasync, if_neg fun hempty ↦ h ⟨hasync, hempty⟩]
    refine ⟨_, ?_, rfl⟩
    intro hresult
    by_contra hfailed
    rw [if_neg hfailed] at hresult
    exact hfailed hresult
  · rw [if_neg hasync]
    exact ⟨_, id, rfl⟩

theorem cuMemcpy2DCommon_success {mem : Memory UInt8} {copy : Memcpy2D} {stream : CUstream}
    {op : Memcpy2DOp} (hhost : copy.dst.memoryType = .host)
    (hdst : SideAccepted copy.dst (copy.box false))
    (hsrc : copy.src.memoryType = .host → SideAccepted copy.src (copy.box true))
    (hsuccess : (cuMemcpy2DCommon cuda mem copy stream op).1 = .success) :
    ∃ buffer, (copy.box false).Scattered
        (sourceRows copy.src (copy.box true) (fun o ↦ mem (copy.src.host + o)) (cuda.found2D copy))
        (List.replicate (copy.box false).span 0) buffer ∧
      (cuMemcpy2DCommon cuda mem copy stream op).2
        = Patch.apply mem ⟨copy.dst.host, buffer⟩ := by
  have hdstSize : memcpy2dHostSpan copy false = (copy.box false).span := by
    rw [memcpy2dHostSpan_eq, hdst.span_mod]
  have hsrcSize : copy.src.memoryType = .host →
      (if copy.src.memoryType = .host then memcpy2dHostSpan copy true else 0)
        = (copy.box true).span := by
    intro hhost
    rw [if_pos hhost, memcpy2dHostSpan_eq, (hsrc hhost).span_mod]
  rw [cuMemcpy2DCommon, if_pos hhost, hdstSize] at hsuccess ⊢
  generalize (if copy.src.memoryType = .host then memcpy2dHostSpan copy true else 0) = srcSize
    at hsuccess hsrcSize ⊢
  have hcopied := cuda.scattered2D op stream copy (readHost mem copy.src.host srcSize)
    (List.replicate (copy.box false).span 0) hhost hdst.1 (by rw [List.length_replicate])
    (fun h ↦ by rw [length_readHost, hsrcSize h])
  have hreply := handleManualCuMemcpy2DCommon_reply cuda
    ⟨op, copy, readHost mem copy.src.host srcSize, (copy.box false).span, stream⟩
  simp only [length_readHost] at hreply
  by_cases hnull : (srcSize ≠ 0 ∧ copy.src.host = 0)
      ∨ ((copy.box false).span ≠ 0 ∧ copy.dst.host = 0)
  · rw [if_pos hnull] at hsuccess
    exact absurd hsuccess (by simp)
  rw [if_neg hnull] at hsuccess ⊢
  simp only at hsuccess ⊢
  by_cases hdeferred : op = .async ∧ srcSize = 0 ∧ (copy.box false).span = 0
  · -- nothing to copy: the client does not wait, and its memory stays as it is
    rw [if_pos hdeferred, hdeferred.2.2]
    exact ⟨[], Box.scattered_of_span_eq_zero hdeferred.2.2 _ _, (Patch.apply_nil _ _).symm⟩
  · obtain ⟨result, hcuda, hsome⟩ := hreply hdeferred
    rw [if_neg hdeferred, hsome] at hsuccess ⊢
    obtain ⟨hresult, happly⟩ := readReply_success hsuccess
    exact ⟨_, (hcopied (hcuda hresult)).congr (sourceRows_readHost hsrcSize rfl rfl rfl), happly⟩

theorem cuMemcpy3D_success {mem : Memory UInt8} {copy : Memcpy3D}
    (hhost : copy.dst.memoryType = .host) (hdst : SideAccepted copy.dst (copy.box false))
    (hsrc : copy.src.memoryType = .host → SideAccepted copy.src (copy.box true))
    (hsuccess : (cuMemcpy3D cuda mem copy).1 = .success) :
    ∃ buffer, (copy.box false).Scattered
        (sourceRows copy.src (copy.box true) (fun o ↦ mem (copy.src.host + o)) (cuda.found3D copy))
        (List.replicate (copy.box false).span 0) buffer ∧
      (cuMemcpy3D cuda mem copy).2 = Patch.apply mem ⟨copy.dst.host, buffer⟩ := by
  have hdstSize : memcpy3dHostSpan copy false = (copy.box false).span := by
    rw [memcpy3dHostSpan_eq, hdst.span_mod]
  have hsrcSize : copy.src.memoryType = .host →
      (if copy.src.memoryType = .host then memcpy3dHostSpan copy true else 0)
        = (copy.box true).span := by
    intro hhost
    rw [if_pos hhost, memcpy3dHostSpan_eq, (hsrc hhost).span_mod]
  rw [cuMemcpy3D, if_pos hhost, hdstSize] at hsuccess ⊢
  generalize (if copy.src.memoryType = .host then memcpy3dHostSpan copy true else 0) = srcSize
    at hsuccess hsrcSize ⊢
  have hcopied := cuda.scattered3D copy (readHost mem copy.src.host srcSize)
    (List.replicate (copy.box false).span 0) hhost hdst.1 (by rw [List.length_replicate])
    (fun h ↦ by rw [length_readHost, hsrcSize h])
  by_cases hnull : (srcSize ≠ 0 ∧ copy.src.host = 0)
      ∨ ((copy.box false).span ≠ 0 ∧ copy.dst.host = 0)
  · rw [if_pos hnull] at hsuccess
    exact absurd hsuccess (by simp)
  · rw [if_neg hnull] at hsuccess ⊢
    obtain ⟨hresult, happly⟩ := readReply_success hsuccess
    exact ⟨_, (hcopied hresult).congr (sourceRows_readHost hsrcSize rfl rfl rfl), happly⟩

theorem MemcpyCall.run_success {call : MemcpyCall} {mem : Memory UInt8} (h : call.Accepted)
    (hsuccess : (call.run cuda mem).1 = .success) :
    ∃ buffer, (call.box false).Scattered (call.sourceBytes cuda mem)
        (List.replicate (call.box false).span 0) buffer ∧
      (call.run cuda mem).2 = Patch.apply mem ⟨(call.side false).host, buffer⟩ := by
  cases call with
  | cuMemcpy2D copy => exact cuMemcpy2DCommon_success cuda h.to_host h.dst h.src hsuccess
  | cuMemcpy2DUnaligned copy => exact cuMemcpy2DCommon_success cuda h.to_host h.dst h.src hsuccess
  | cuMemcpy2DAsync copy stream =>
    exact cuMemcpy2DCommon_success cuda h.to_host h.dst h.src hsuccess
  | cuMemcpy3D copy => exact cuMemcpy3D_success cuda h.to_host h.dst h.src hsuccess

/-- **Padding is cleared.** A successful copy to the host changes exactly the bytes of its box if
and only if the client's bytes in the padding of the destination span were zero. -/
theorem memcpy_changesBoxOnly_iff (call : MemcpyCall) (mem : Memory UInt8) (h : call.Accepted)
    (hsuccess : (call.run cuda mem).1 = .success) :
    ChangesBoxOnly (call.box false) (call.side false).host (call.sourceBytes cuda mem) mem
        (call.run cuda mem).2
      ↔ PaddingZero (call.box false) (call.side false).host mem := by
  obtain ⟨buffer, hscattered, happly⟩ := call.run_success cuda h hsuccess
  rw [happly]
  exact changesBoxOnly_apply_iff hscattered

/-! ## A driver that copies -/

/-- A driver that succeeds at everything and finds the byte 1 everywhere. -/
def onesDriver : MemcpyDriver where
  cuMemcpy2D _ _ copy srcHost dstHost :=
    (.success, (copy.box false).scatter
      (sourceRows copy.src (copy.box true) (fun o ↦ srcHost.getD o 0) fun _ _ _ ↦ 1) dstHost)
  cuMemcpy3D copy srcHost dstHost :=
    (.success, (copy.box false).scatter
      (sourceRows copy.src (copy.box true) (fun o ↦ srcHost.getD o 0) fun _ _ _ ↦ 1) dstHost)
  cuStreamSynchronize _ := .success
  found2D _ _ _ _ := 1
  found3D _ _ _ _ := 1
  scattered2D _ _ _ _ _ _ hvalid hspan _ _ := hvalid.scattered_scatter _ hspan
  scattered3D _ _ _ _ hvalid hspan _ _ := hvalid.scattered_scatter _ hspan

/-- Two rows of one byte, two bytes apart, from the device to the address 4096. -/
def paddedCopy : Memcpy2D where
  src := { xInBytes := 0, y := 0, z := 0, memoryType := .device, host := 0, pitch := 1,
           height := 0 }
  dst := { xInBytes := 0, y := 0, z := 0, memoryType := .host, host := 4096, pitch := 2,
           height := 0 }
  widthInBytes := 1
  height := 2

-- the driver accepts it
example : (MemcpyCall.cuMemcpy2D paddedCopy).Accepted where
  to_host := rfl
  dst := ⟨by decide, by decide⟩
  src h := absurd h (by decide)

/-- Two slices of a row of one byte, with a row of padding between them. -/
def slicedCopy : Memcpy3D where
  src := { paddedCopy.src with pitch := 1, height := 1 }
  dst := { paddedCopy.dst with pitch := 1, height := 2 }
  widthInBytes := 1
  height := 1
  depth := 2

theorem slicedCopy_changesBoxOnly_iff :
    ChangesBoxOnly (slicedCopy.box false) 4096
        ((MemcpyCall.cuMemcpy3D slicedCopy).sourceBytes onesDriver fun _ ↦ 0) (fun _ ↦ 0)
        ((MemcpyCall.cuMemcpy3D slicedCopy).run onesDriver fun _ ↦ 0).2
      ↔ PaddingZero (slicedCopy.box false) 4096 fun _ ↦ 0 :=
  memcpy_changesBoxOnly_iff onesDriver (.cuMemcpy3D slicedCopy) _
    ⟨rfl, ⟨by decide, by decide⟩, fun h ↦ absurd h (by decide)⟩ (by decide)

/-- With the byte 7 in its padding, the client finds 0 there after the copy. -/
theorem paddedCopy_clears_padding :
    ((MemcpyCall.cuMemcpy2D paddedCopy).run onesDriver fun _ ↦ 7).1 = .success ∧
      ¬ ChangesBoxOnly (paddedCopy.box false) 4096
        ((MemcpyCall.cuMemcpy2D paddedCopy).sourceBytes onesDriver fun _ ↦ 7) (fun _ ↦ 7)
        ((MemcpyCall.cuMemcpy2D paddedCopy).run onesDriver fun _ ↦ 7).2 := by
  refine ⟨by decide, fun h ↦ ?_⟩
  have hoffset : ∀ o, (paddedCopy.box false).Contains o → 4097 ≠ 4096 + o := by
    intro o ho heq
    have ho : (paddedCopy.box false).Contains 1 := by
      rwa [show o = 1 by omega] at ho
    exact absurd ho (by decide)
  exact absurd (h.2 4097 hoffset) (by decide)

end Lupine
