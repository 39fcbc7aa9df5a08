import Lupine.Copy.Rectangles

/-!
# The staging buffers of a memcpy node

A memcpy node of a graph runs on the server, where host memory stands for the client's: a buffer
that the request fills for a host source, and one that is read back for a host destination. The
client sizes the first, the server the second.

## Rows and slices

Both take the pitch times the rows times the slices. The copy of the node is a box with a corner of
its own, and its slices may be higher than the box: its last byte lies further on by the rows that
are skipped. The span of the immediate copy counts these, and leaves out what the last row has
behind the box.

## Where the sizes differ

The span of a box is the rows times the pitch only if nothing is skipped before its last row and
that row is as wide as the pitch. Client and server compute the same product, so they agree with
each other, and differ from the immediate copy exactly where the side is not tightly packed.
-/

open Foundation

namespace Lupine

/-! ## The sizes

The products are computed in 64-bit words. Where the pitch is zero the width of a row stands for
it. -/

/-- The client's `lupine_memcpy3d_host_span_bytes`, in 64-bit words. -/
def clientMemcpy3dHostSpanBytes (params : Memcpy3D) (source : Bool) : ℕ :=
  let side := if source then params.src else params.dst
  let height := if params.height = 0 then 1 else params.height
  let depth := if params.depth = 0 then 1 else params.depth
  let pitch := if side.pitch = 0 then params.widthInBytes else side.pitch
  let rows := height * depth % 2 ^ 64
  pitch * rows % 2 ^ 64

/-- The server's `lupine_memcpy3d_host_span_bytes`, in 64-bit words. -/
def memcpy3dHostSpanBytes (params : Memcpy3D) (source : Bool) : ℕ :=
  let side := if source then params.src else params.dst
  let height := if params.height = 0 then 1 else params.height
  let depth := if params.depth = 0 then 1 else params.depth
  let pitch := if side.pitch = 0 then params.widthInBytes else side.pitch
  pitch * height % 2 ^ 64 * depth % 2 ^ 64

structure MemcpyNodeRequest where
  copyParams : Memcpy3D
  hostSrcBytes : ℕ
  deriving DecidableEq, Repr

/-- The request of `cuGraphAddMemcpyNode`; `none` for `CUDA_ERROR_INVALID_VALUE`. -/
def cuGraphAddMemcpyNode (copyParams : Memcpy3D) : Option MemcpyNodeRequest :=
  if copyParams.src.memoryType = .host then
    let hostSrcBytes := clientMemcpy3dHostSpanBytes copyParams true
    if hostSrcBytes ≠ 0 ∧ copyParams.src.host = 0 then none else some ⟨copyParams, hostSrcBytes⟩
  else some ⟨copyParams, 0⟩

/-- The sizes of the buffers that stand for the host memory of a node. -/
structure MemcpyNodeBuffers where
  src : Option ℕ
  dst : Option ℕ
  deriving DecidableEq, Repr

/-- The buffers of `handle_manual_cuGraphAddMemcpyNode`. -/
def handleManualCuGraphAddMemcpyNode (request : MemcpyNodeRequest) : MemcpyNodeBuffers where
  src := if request.hostSrcBytes ≠ 0 then some request.hostSrcBytes else none
  dst :=
    if request.copyParams.dst.memoryType = .host then
      some (memcpy3dHostSpanBytes request.copyParams false)
    else none

def MemcpyNodeBuffers.bytes (buffers : MemcpyNodeBuffers) (source : Bool) : ℕ :=
  (if source then buffers.src else buffers.dst).getD 0

/-! ## Descriptors

A side that the driver accepts has its bytes at addresses, which bounds the products. -/

def Memcpy3D.side (copy : Memcpy3D) (source : Bool) : MemcpySide :=
  if source then copy.src else copy.dst

def Memcpy3D.rowBytes (copy : Memcpy3D) (source : Bool) : ℕ :=
  if (copy.side source).pitch = 0 then copy.widthInBytes else (copy.side source).pitch

/-- A host side that the driver accepts: its rows fit in the pitch and, when there are several
slices, its slices in the height, and its bytes have addresses. -/
structure HostSideAccepted (copy : Memcpy3D) (source : Bool) : Prop where
  host : (copy.side source).memoryType = .host
  valid : (copy.box source).Valid
  span_lt : (copy.box source).span < 2 ^ 64
  pitch_lt : (copy.side source).pitch < 2 ^ 64

/-- The buffer of a side holds every byte of the copy, and is as large as the immediate copy's. -/
structure StagedRight (request : MemcpyNodeRequest) (source : Bool) : Prop where
  covers : ∀ k < request.copyParams.depth, ∀ j < request.copyParams.height,
    ∀ i < request.copyParams.widthInBytes, (request.copyParams.box source).offset k j i <
      (handleManualCuGraphAddMemcpyNode request).bytes source
  agrees : (handleManualCuGraphAddMemcpyNode request).bytes source =
    memcpy3dHostSpan request.copyParams source

/-- A side without offsets and without padding. One with no bytes is in place when its rows have
none either. -/
def TightlyPacked (copy : Memcpy3D) (source : Bool) : Prop :=
  let side := copy.side source
  if (copy.box source).Empty then
    2 ^ 64 ∣ copy.rowBytes source * (max copy.height 1 * max copy.depth 1)
  else side.y = 0 ∧ side.z = 0 ∧ (copy.depth = 1 ∨ side.height = 0 ∨ side.height = copy.height) ∧
    (side.pitch = side.xInBytes + copy.widthInBytes ∨ side.pitch = 0 ∧ side.xInBytes = 0)

instance (copy : Memcpy3D) (source : Bool) : Decidable (TightlyPacked copy source) := by
  unfold TightlyPacked
  infer_instance

section Sizes

variable (copy : Memcpy3D) (source : Bool)

private theorem one_if_zero (n : ℕ) : (if n = 0 then 1 else n) = max n 1 := by
  split_ifs with h
  · rw [h]; rfl
  · exact (max_eq_left (Nat.one_le_iff_ne_zero.mpr h)).symm

theorem clientMemcpy3dHostSpanBytes_eq : clientMemcpy3dHostSpanBytes copy source =
    copy.rowBytes source * (max copy.height 1 * max copy.depth 1) % 2 ^ 64 := by
  simp only [clientMemcpy3dHostSpanBytes, Memcpy3D.rowBytes, Memcpy3D.side, one_if_zero,
    Nat.mul_mod_mod]
  rfl

theorem memcpy3dHostSpanBytes_eq : memcpy3dHostSpanBytes copy source =
    copy.rowBytes source * (max copy.height 1 * max copy.depth 1) % 2 ^ 64 := by
  simp only [memcpy3dHostSpanBytes, Memcpy3D.rowBytes, Memcpy3D.side, one_if_zero,
    Nat.mod_mul_mod, Nat.mul_assoc]
  rfl

variable {copy source} {request : MemcpyNodeRequest}

theorem of_cuGraphAddMemcpyNode (hrequest : cuGraphAddMemcpyNode copy = some request) :
    request = ⟨copy, if copy.src.memoryType = .host then clientMemcpy3dHostSpanBytes copy true
      else 0⟩ := by
  rw [cuGraphAddMemcpyNode] at hrequest
  dsimp only at hrequest
  split_ifs at hrequest with hhost
  · rw [if_pos hhost, Option.some.inj hrequest]
  · rw [if_neg hhost, Option.some.inj hrequest]

/-- Client and server size the buffers alike. -/
theorem bytes_of_request (hrequest : cuGraphAddMemcpyNode copy = some request)
    (hhost : (copy.side source).memoryType = .host) :
    (handleManualCuGraphAddMemcpyNode request).bytes source =
      copy.rowBytes source * (max copy.height 1 * max copy.depth 1) % 2 ^ 64 := by
  obtain rfl := of_cuGraphAddMemcpyNode hrequest
  cases source with
  | true =>
    have hhost : copy.src.memoryType = .host := hhost
    rw [← clientMemcpy3dHostSpanBytes_eq, MemcpyNodeBuffers.bytes, if_pos rfl, if_pos hhost]
    dsimp only [handleManualCuGraphAddMemcpyNode]
    split_ifs with hzero
    · rfl
    · exact (not_not.mp hzero).symm
  | false =>
    have hhost : copy.dst.memoryType = .host := hhost
    rw [← memcpy3dHostSpanBytes_eq, MemcpyNodeBuffers.bytes, if_neg Bool.false_ne_true,
      handleManualCuGraphAddMemcpyNode, if_pos hhost, Option.getD_some]

end Sizes

/-! ## The rows of the box

The rows that a box skips are none when it begins at its corner and its slices are as high as the
box. -/

section Packed

variable {copy : Memcpy3D} {source : Bool}

theorem pos_of_not_empty (hne : ¬(copy.box source).Empty) :
    0 < copy.widthInBytes ∧ 0 < copy.height ∧ 0 < copy.depth := by
  obtain ⟨hwidth, hrows, hslices⟩ := not_or.mp hne |>.imp_right not_or.mp
  exact ⟨Nat.pos_of_ne_zero hwidth, Nat.pos_of_ne_zero hrows, Nat.pos_of_ne_zero hslices⟩

theorem skippedRows_eq_zero (h : HostSideAccepted copy source)
    (hne : ¬(copy.box source).Empty) : (copy.box source).skippedRows = 0 ↔
      (copy.side source).y = 0 ∧ (copy.side source).z = 0 ∧ (copy.depth = 1 ∨
        (copy.side source).height = 0 ∨ (copy.side source).height = copy.height) := by
  obtain ⟨-, hrows, hslices⟩ := pos_of_not_empty hne
  have hheight : copy.depth ≤ 1 ∨
      (copy.side source).y + copy.height ≤ (copy.box source).height := h.valid.2
  have hbox : (copy.box source).height = if (copy.side source).height = 0 then
      copy.height + (copy.side source).y else (copy.side source).height := rfl
  have hpos : (copy.box source).height ≠ 0 := by
    rw [hbox]
    split_ifs <;> omega
  have hskip : (copy.box source).skippedRows = (copy.side source).z * (copy.box source).height +
      (copy.depth - 1) * ((copy.box source).height - copy.height) + (copy.side source).y := rfl
  rw [hskip, Nat.add_eq_zero_iff, Nat.add_eq_zero_iff, Nat.mul_eq_zero, Nat.mul_eq_zero,
    or_iff_left hpos]
  split_ifs at hbox <;> omega

/-- **The size of a row times their number** is the span if and only if nothing is skipped and a
row has no padding. -/
theorem rows_eq_span_iff (h : HostSideAccepted copy source) (hne : ¬(copy.box source).Empty) :
    copy.rowBytes source * (copy.height * copy.depth) % 2 ^ 64 = (copy.box source).span ↔
      (copy.box source).skippedRows = 0 ∧
        ((copy.side source).pitch = (copy.side source).xInBytes + copy.widthInBytes ∨
          (copy.side source).pitch = 0 ∧ (copy.side source).xInBytes = 0) := by
  have hspan := h.valid.span_add_pitch hne
  obtain ⟨hwidth, hrows, hslices⟩ := pos_of_not_empty hne
  have hcells : 0 < copy.height * copy.depth := Nat.mul_pos hrows hslices
  have hlt := h.span_lt
  have hfit : (copy.side source).xInBytes + copy.widthInBytes ≤ (copy.box source).pitch := h.valid.1
  have hbox : (copy.box source).pitch = if (copy.side source).pitch = 0 then
      copy.widthInBytes + (copy.side source).xInBytes else (copy.side source).pitch := rfl
  have hspan : (copy.box source).span + (copy.box source).pitch =
      (copy.box source).pitch * (copy.height * copy.depth) +
        (copy.box source).skippedRows * (copy.box source).pitch +
          ((copy.side source).xInBytes + copy.widthInBytes) := by
    rw [← Nat.mul_assoc]
    exact hspan
  -- a row that is skipped is at least as long as the bytes of the last
  have hskip : (copy.box source).skippedRows ≠ 0 →
      (copy.box source).pitch ≤ (copy.box source).skippedRows * (copy.box source).pitch :=
    fun hne ↦ Nat.le_mul_of_pos_left _ (Nat.pos_of_ne_zero hne)
  rw [Memcpy3D.rowBytes]
  split_ifs at hbox ⊢ with hpitch
  -- the buffer has rows of the width, the box has room before them
  · rw [hbox, Nat.add_mul] at hspan
    rw [Nat.mod_eq_of_lt (by omega)]
    constructor
    · intro heq
      have hx : (copy.side source).xInBytes * (copy.height * copy.depth) = 0 := by omega
      have hsk : (copy.box source).skippedRows *
          (copy.widthInBytes + (copy.side source).xInBytes) = 0 := by omega
      refine ⟨(Nat.mul_eq_zero.mp hsk).resolve_right (by omega), Or.inr ⟨hpitch, ?_⟩⟩
      exact (Nat.mul_eq_zero.mp hx).resolve_right hcells.ne'
    · rintro ⟨hsk, hx | ⟨-, hx⟩⟩
      · omega
      · rw [hsk, hx, Nat.zero_mul, Nat.zero_mul] at hspan
        omega
  · have hpitch_lt := h.pitch_lt
    rw [hbox] at hspan hfit hskip
    by_cases hsk : (copy.box source).skippedRows = 0
    · rw [hsk, Nat.zero_mul] at hspan
      omega
    · have hle := hskip hsk
      refine iff_of_false (fun heq ↦ ?_) fun h ↦ hsk h.1
      rw [Nat.mod_eq_of_lt (by omega)] at heq
      omega

end Packed

/-- **Staging buffers of a memcpy node.** The buffer of a host side is right if and only if the side
is tightly packed. -/
theorem stagedRight_iff {copy : Memcpy3D} {source : Bool} {request : MemcpyNodeRequest}
    (hrequest : cuGraphAddMemcpyNode copy = some request) (h : HostSideAccepted copy source) :
    StagedRight request source ↔ TightlyPacked copy source := by
  have hbytes := bytes_of_request hrequest h.host
  have hparams : request.copyParams = copy := by rw [of_cuGraphAddMemcpyNode hrequest]
  have hspan : memcpy3dHostSpan copy source = (copy.box source).span := by
    rw [memcpy3dHostSpan_eq, Nat.mod_eq_of_lt h.span_lt]
  have hagrees : StagedRight request source ↔
      (handleManualCuGraphAddMemcpyNode request).bytes source = (copy.box source).span := by
    constructor
    · intro hstaged
      rw [hstaged.agrees, hparams, hspan]
    · intro hsize
      constructor
      · rw [hparams]
        intro k hk j hj i hi
        rw [hsize]
        exact Box.offset_lt_span hk hj hi
      · rw [hsize, hparams, hspan]
  rw [hagrees, hbytes, TightlyPacked]
  split_ifs with hempty
  · rw [Box.span_of_empty hempty, Nat.dvd_iff_mod_eq_zero]
  · obtain ⟨-, hrows, hslices⟩ := pos_of_not_empty hempty
    rw [max_eq_left (Nat.one_le_of_lt hrows), max_eq_left (Nat.one_le_of_lt hslices),
      rows_eq_span_iff h hempty,
      skippedRows_eq_zero h hempty, and_assoc, and_assoc]

/-- A copy of two rows of four bytes from device memory to the host. -/
def rowsToHost (y : ℕ) : Memcpy3D where
  src := ⟨0, 0, 0, .device, 0, 4, 2⟩
  dst := ⟨0, y, 0, .host, 4096, 4, y + 2⟩
  widthInBytes := 4
  height := 2
  depth := 1

theorem stagedRight_iff_rowsToHost :
    (cuGraphAddMemcpyNode (rowsToHost 0) = some ⟨rowsToHost 0, 0⟩ ∧
      HostSideAccepted (rowsToHost 0) false) ∧
    (StagedRight ⟨rowsToHost 0, 0⟩ false ↔ TightlyPacked (rowsToHost 0) false) :=
  have haccepted : HostSideAccepted (rowsToHost 0) false :=
    ⟨by decide, by decide, by decide, by decide⟩
  ⟨⟨by decide, haccepted⟩, stagedRight_iff (by decide) haccepted⟩

/-- The rows begin with the second of the slice: the copy writes behind the buffer. -/
theorem offsetRows_overrun : HostSideAccepted (rowsToHost 1) false ∧
    cuGraphAddMemcpyNode (rowsToHost 1) = some ⟨rowsToHost 1, 0⟩ ∧
    ¬StagedRight ⟨rowsToHost 1, 0⟩ false ∧
    (handleManualCuGraphAddMemcpyNode ⟨rowsToHost 1, 0⟩).bytes false <
      ((rowsToHost 1).box false).offset 0 1 3 := by
  refine ⟨⟨by decide, by decide, by decide, by decide⟩, by decide, fun h ↦ ?_, by decide⟩
  exact absurd (h.covers 0 (by decide) 1 (by decide) 3 (by decide)) (by decide)

end Lupine
