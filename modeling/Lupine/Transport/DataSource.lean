import Lupine.Transport.Framing

/-!
# The HTTP/2 data source of `h2.cpp`

`rpc_http2_writev` hands the HTTP/2 library a list of cursors. A plain cursor points at the caller's
bytes; a framed one holds uncompressed source bytes and has its next block compressed into the
transport's one scratch buffer when the library asks for data. The library asks through
`h2_data_source_read_callback`, which announces how many bytes the next DATA frame carries, and
collects them through `h2_send_data_callback`. Between the two, and from frame to frame, all that
remembers the position is the cursor list.

## The cursor list

`index` only ever moves forward and cursors before it are never looked at again, so a write source
is modelled by the cursors from `index` on. Pointers are kept apart by what they point into: a base
in caller memory carries the bytes from the pointer on, a base in the scratch is an offset, and is
read through whatever the scratch then holds. That is what makes an early overwrite of the scratch
visible in the model.

## The invariant

Only the cursor at the front may point into the scratch. Hence a block is materialized only when
the front cursor has no byte left in the scratch, and what has been sent followed by what the
cursors still describe is always the encoding of the whole message.
-/

namespace Lupine

open Foundation

/-! ## Cursors

A base in the caller's memory has the bytes from the pointer on. A base in the scratch has an
offset, and what it reads depends on what the scratch holds then. -/

/-- What `h2_write_cursor::base` points at. -/
inductive Base where
  | null
  /-- Caller memory: the bytes from the pointer on. -/
  | caller (bytes : List UInt8)
  /-- The compression scratch, at an offset. -/
  | scratch (offset : ℕ)
  deriving DecidableEq, Repr

namespace Base

/-- The `n` bytes at the pointer. -/
def read (scratch : List UInt8) : Base → ℕ → List UInt8
  | null, _ => []
  | caller bytes, n => bytes.take n
  | Base.scratch offset, n => (scratch.drop offset).take n

def advance : Base → ℕ → Base
  | null, _ => null
  | caller bytes, n => caller (bytes.drop n)
  | scratch offset, n => scratch (offset + n)

theorem read_append_advance (scratch : List UInt8) (base : Base) {k n : ℕ} (h : k ≤ n) :
    base.read scratch k ++ (base.advance k).read scratch (n - k) = base.read scratch n := by
  have hsplit : ∀ l : List UInt8, l.take k ++ (l.drop k).take (n - k) = l.take n := by
    intro l
    obtain ⟨d, rfl⟩ := Nat.exists_eq_add_of_le h
    rw [Nat.add_sub_cancel_left, ← List.take_add]
  cases base with
  | null => rfl
  | caller bytes => exact hsplit bytes
  | scratch offset =>
    have hdrop : scratch.drop (offset + k) = (scratch.drop offset).drop k := List.drop_drop.symm
    simpa only [read, advance, hdrop] using hsplit (scratch.drop offset)

end Base

/-- `h2_write_cursor`; `src` stands for `src` and `src_len`. -/
structure WriteCursor where
  base : Base := .null
  len : ℕ := 0
  src : List UInt8 := []
  deriving DecidableEq, Repr

/-- `rpc_write_entry`. -/
structure WriteEntry where
  bytes : List UInt8
  framed : UInt8
  deriving DecidableEq, Repr

/-- The write source of one `rpc_http2_writev`, with the scratch of its transport and the DATA
bytes already handed to the socket. -/
structure SendState where
  compressScratch : List UInt8
  cursors : List WriteCursor
  pendingLen : ℕ := 0
  sent : List UInt8 := []
  deriving DecidableEq, Repr

/-! ## The callbacks

The functions follow `h2.cpp` loop by loop, over the cursors that are left. -/

/-- The cursor `rpc_http2_writev` makes of an entry; an empty entry gets none. -/
def entryCursor (entry : WriteEntry) : Option WriteCursor :=
  if entry.bytes.length = 0 then none
  else if entry.framed ≠ 0 then some { src := entry.bytes }
  else some { base := .caller entry.bytes, len := entry.bytes.length }

/-- The write source `rpc_http2_writev` submits, with the transport's scratch. -/
def http2Writev (compressScratch : List UInt8) (entries : List WriteEntry) : SendState where
  compressScratch := compressScratch
  cursors := entries.filterMap entryCursor

/-- `h2_materialize_block`: the new scratch and the cursor that points at it. Of the scratch past
the block nothing is ever read. -/
def materializeBlock (lz4 : Lz4) (compressScratch : List UInt8) (cursor : WriteCursor) :
    List UInt8 × WriteCursor :=
  let raw := min compressBlockBytes cursor.src.length
  let bound := lz4.compressBound compressBlockBytes
  let resized :=
    if compressScratch.length < 4 + bound then
      compressScratch ++ List.replicate (4 + bound - compressScratch.length) 0
    else compressScratch
  let stored := leBytes 4 0 ++ cursor.src.take raw
  let block :=
    match lz4.compressDefault (cursor.src.take raw) bound with
    | some out => if 0 < out.length ∧ out.length < raw then leBytes 4 out.length ++ out else stored
    | none => stored
  (block ++ resized.drop block.length,
    { base := .scratch 0, len := block.length, src := cursor.src.drop raw })

/-- The scan for materialized bytes: how many there are before the first block that does not exist
yet, and whether there is such a block (`available`, `lazy_pending`). -/
def offered : List WriteCursor → ℕ × Bool
  | [] => (0, false)
  | cursor :: cursors =>
    if cursor.src ≠ [] then (cursor.len, true)
    else (cursor.len + (offered cursors).1, (offered cursors).2)

/-- What `h2_data_source_read_callback` returns and the flags it sets. -/
structure ReadCallback where
  chunk : ℕ
  eof : Bool
  noCopy : Bool
  deriving DecidableEq, Repr

def skipFinished (cursors : List WriteCursor) : List WriteCursor :=
  cursors.dropWhile fun c ↦ decide (c.len = 0 ∧ c.src = [])

/-- `h2_data_source_read_callback`, asked for at most `length` bytes. -/
def dataSourceReadCallback (lz4 : Lz4) (s : SendState) (length : ℕ) : SendState × ReadCallback :=
  match skipFinished s.cursors with
  | [] => ({ s with cursors := [], pendingLen := 0 }, ⟨0, true, false⟩)
  | cursor :: cursors =>
    let (scratch, front) :=
      if cursor.len = 0 then materializeBlock lz4 s.compressScratch cursor
      else (s.compressScratch, cursor)
    let available := (offered (front :: cursors)).1
    let lazyPending := (offered (front :: cursors)).2
    let chunk := min available length
    ({ s with compressScratch := scratch, cursors := front :: cursors, pendingLen := chunk },
      ⟨chunk, chunk == available && !lazyPending, true⟩)

/-- The first loop of `h2_send_data_callback`: the bytes of the frame, or `none` when the cursors
hold fewer than `remaining`. -/
def gather (scratch : List UInt8) : List WriteCursor → ℕ → Option (List UInt8)
  | _, 0 => some []
  | [], _ + 1 => none
  | cursor :: cursors, remaining =>
    let chunk := min remaining cursor.len
    (gather scratch cursors (remaining - chunk)).map (cursor.base.read scratch chunk ++ ·)

/-- `cursor.base += chunk; cursor.len -= chunk`. -/
def WriteCursor.advance (cursor : WriteCursor) (chunk : ℕ) : WriteCursor :=
  { cursor with base := cursor.base.advance chunk, len := cursor.len - chunk }

/-- The second loop of `h2_send_data_callback`: the cursors after `remaining` bytes went out. -/
def advanceCursors : List WriteCursor → ℕ → List WriteCursor
  | [], _ => []
  | cursor :: cursors, remaining =>
    if remaining = 0 then cursor :: cursors
    else
      let chunk := min remaining cursor.len
      if cursor.len - chunk = 0 then
        -- a framed cursor with source left ends the loop: its next block does not exist yet
        if cursor.src ≠ [] then cursor.advance chunk :: cursors
        else advanceCursors cursors (remaining - chunk)
      else
        -- a cursor that keeps bytes took all that remained
        cursor.advance chunk :: cursors

/-- `h2_send_data_callback` for a frame of `length` payload bytes; `none` is
`NGHTTP2_ERR_CALLBACK_FAILURE`. Frame header and padding are HTTP/2's own and are not part of the
DATA bytes. -/
def sendDataCallback (s : SendState) (length : ℕ) : Option SendState :=
  if length ≠ s.pendingLen then none
  else
    (gather s.compressScratch s.cursors length).map fun bytes ↦
      { s with
        cursors := advanceCursors s.cursors length, pendingLen := 0, sent := s.sent ++ bytes }

/-- The library at work: for each length it can send it asks for data and sends what it is offered,
until the end of the data is flagged. The flag returned says whether it was. -/
def serve (lz4 : Lz4) : SendState → List ℕ → Option (SendState × Bool)
  | s, [] => some (s, false)
  | s, length :: lengths =>
    let (s', r) := dataSourceReadCallback lz4 s length
    match sendDataCallback s' r.chunk with
    | none => none
    | some s'' => if r.eof then some (s'', true) else serve lz4 s'' lengths

/-! ## What the cursors still describe

A cursor stands for the bytes at its base and, behind them, the encoding of its source. Advancing it
takes the bytes it read off the front of that, and a cursor that has neither stands for nothing. -/

section Unsent

variable (lz4 : Lz4)

def WriteEntry.encoding (entry : WriteEntry) : List UInt8 :=
  if entry.framed ≠ 0 then encodePayload lz4 entry.bytes else entry.bytes

/-- The bytes a cursor stands for: those at its base and the encoding of its remaining source. -/
def WriteCursor.unsent (scratch : List UInt8) (cursor : WriteCursor) : List UInt8 :=
  cursor.base.read scratch cursor.len ++ encodePayload lz4 cursor.src

def SendState.unsent (s : SendState) : List UInt8 :=
  s.cursors.flatMap (WriteCursor.unsent lz4 s.compressScratch)

/-- A cursor not reached yet: caller bytes, or a source with no block materialized. -/
def WriteCursor.Fresh (cursor : WriteCursor) : Prop :=
  (∃ bytes, cursor.base = .caller bytes ∧ cursor.len = bytes.length ∧ cursor.src = []) ∨
    (cursor.base = .null ∧ cursor.len = 0)

/-- A cursor that may stand at the front: a fresh one, or one inside the block that the scratch
holds. -/
def WriteCursor.FrontOk (scratch : List UInt8) (cursor : WriteCursor) : Prop :=
  cursor.Fresh ∨ ∃ offset, cursor.base = .scratch offset ∧ offset + cursor.len ≤ scratch.length

/-- **The invariant**: behind the front, every cursor is fresh. -/
def CursorsOk (scratch : List UInt8) : List WriteCursor → Prop
  | [] => True
  | cursor :: cursors => cursor.FrontOk scratch ∧ ∀ c ∈ cursors, c.Fresh

theorem WriteCursor.Fresh.unsent_eq {cursor : WriteCursor} (h : cursor.Fresh)
    (scratch scratch' : List UInt8) : cursor.unsent lz4 scratch = cursor.unsent lz4 scratch' := by
  rcases h with ⟨bytes, hbase, -, -⟩ | ⟨hbase, -⟩ <;> rw [unsent, unsent, hbase] <;> rfl

theorem WriteCursor.FrontOk.length_read {cursor : WriteCursor} {scratch : List UInt8}
    (h : cursor.FrontOk scratch) : (cursor.base.read scratch cursor.len).length = cursor.len := by
  rcases h with (⟨bytes, hbase, hlen, -⟩ | ⟨hbase, hlen⟩) | ⟨offset, hbase, hle⟩
  · rw [hbase, hlen, Base.read, List.take_length]
  · rw [hbase, hlen]; rfl
  · rw [hbase, Base.read, List.length_take, List.length_drop]; omega

theorem WriteCursor.FrontOk.advance {cursor : WriteCursor} {scratch : List UInt8}
    (h : cursor.FrontOk scratch) {k : ℕ} (hk : k ≤ cursor.len) :
    (cursor.advance k).FrontOk scratch := by
  rcases h with (⟨bytes, hbase, hlen, hsrc⟩ | ⟨hbase, hlen⟩) | ⟨offset, hbase, hle⟩
  · exact Or.inl (Or.inl ⟨bytes.drop k, by rw [WriteCursor.advance, hbase]; rfl,
      by simp [WriteCursor.advance, hlen], hsrc⟩)
  · exact Or.inl (Or.inr ⟨by rw [WriteCursor.advance, hbase]; rfl,
      by simp only [WriteCursor.advance]; omega⟩)
  · exact Or.inr ⟨offset + k, by rw [WriteCursor.advance, hbase]; rfl,
      by simp only [WriteCursor.advance]; omega⟩

theorem WriteCursor.unsent_eq_append {cursor : WriteCursor} {k : ℕ} (hk : k ≤ cursor.len)
    (scratch : List UInt8) : cursor.unsent lz4 scratch
      = cursor.base.read scratch k ++ (cursor.advance k).unsent lz4 scratch := by
  rw [unsent, unsent, ← List.append_assoc]
  exact congrArg (· ++ _) (cursor.base.read_append_advance scratch hk).symm

theorem WriteCursor.unsent_eq_nil {cursor : WriteCursor} (hlen : cursor.len = 0)
    (hsrc : cursor.src = []) (scratch : List UInt8) : cursor.unsent lz4 scratch = [] := by
  rw [unsent, hlen, hsrc, show encodePayload lz4 [] = [] from encode_nil lz4 true, List.append_nil]
  cases cursor.base <;> simp [Base.read]

theorem WriteCursor.FrontOk.length_read_of_le {cursor : WriteCursor} {scratch : List UInt8}
    (h : cursor.FrontOk scratch) {k : ℕ} (hk : k ≤ cursor.len) :
    (cursor.base.read scratch k).length = k := by
  have hsplit := congrArg List.length (cursor.base.read_append_advance scratch hk)
  have hrest := (h.advance hk).length_read
  rw [List.length_append, h.length_read] at hsplit
  simp only [WriteCursor.advance] at hrest
  omega

theorem CursorsOk.of_fresh {scratch : List UInt8} {cursors : List WriteCursor}
    (h : ∀ c ∈ cursors, c.Fresh) : CursorsOk scratch cursors := by
  cases cursors with
  | nil => trivial
  | cons c cs =>
    exact ⟨Or.inl (h c List.mem_cons_self), fun c' hc' ↦ h c' (List.mem_cons_of_mem _ hc')⟩

/-! ## Materializing a block

The front cursor has no byte left in the scratch when this happens, and no other cursor points
there. -/

theorem materializeBlock_spec (compressScratch : List UInt8) {cursor : WriteCursor}
    (hsrc : cursor.src ≠ []) :
    ((materializeBlock lz4 compressScratch cursor).2.FrontOk
        (materializeBlock lz4 compressScratch cursor).1) ∧
      0 < (materializeBlock lz4 compressScratch cursor).2.len ∧
      (materializeBlock lz4 compressScratch cursor).2.unsent lz4
          (materializeBlock lz4 compressScratch cursor).1
        = encodePayload lz4 cursor.src := by
  set raw := min compressBlockBytes cursor.src.length with hraw
  have htake : cursor.src.take compressBlockBytes = cursor.src.take raw := by
    rw [hraw, ← List.take_take, List.take_length]
  have hdrop : cursor.src.drop compressBlockBytes = cursor.src.drop raw := by
    rcases Nat.le_total compressBlockBytes cursor.src.length with h | h
    · rw [hraw, Nat.min_eq_left h]
    · rw [hraw, Nat.min_eq_right h, List.drop_eq_nil_of_le h, List.drop_length]
  have hlen : (cursor.src.take raw).length = raw := by rw [List.length_take]; omega
  obtain ⟨tail, hblock⟩ : ∃ tail, materializeBlock lz4 compressScratch cursor
      = (encodeBlock lz4 (cursor.src.take raw) ++ tail,
        { base := .scratch 0, len := (encodeBlock lz4 (cursor.src.take raw)).length,
          src := cursor.src.drop raw }) := by
    rw [encodeBlock, hlen]
    exact ⟨_, rfl⟩
  have hread : (Base.scratch 0).read (encodeBlock lz4 (cursor.src.take raw) ++ tail)
      (encodeBlock lz4 (cursor.src.take raw)).length = encodeBlock lz4 (cursor.src.take raw) := by
    rw [Base.read, List.drop_zero, List.take_left]
  rw [hblock]
  refine ⟨Or.inr ⟨0, rfl, by simp⟩, List.length_pos_iff.mpr (encodeBlock_ne_nil lz4 _), ?_⟩
  rw [WriteCursor.unsent, hread]
  simp only
  rw [← hdrop, ← htake, encodePayload, encodePayload,
    ← encodeBlocks_of_ne_nil compressBlockBytes_pos hsrc]

/-! ## One frame

The bytes that the scan counts are a prefix of what the cursors describe, and all of it unless a
block is still to be made. A frame ends at the latest where the block of its cursor does. -/

theorem offered_spec {scratch : List UInt8} {cursors : List WriteCursor}
    (h : CursorsOk scratch cursors) :
    ((offered cursors).2 = false →
        (cursors.flatMap (WriteCursor.unsent lz4 scratch)).length = (offered cursors).1) ∧
      ((offered cursors).2 = true →
        (offered cursors).1 < (cursors.flatMap (WriteCursor.unsent lz4 scratch)).length) := by
  induction cursors with
  | nil => exact ⟨fun _ ↦ rfl, fun h ↦ absurd h (by simp [offered])⟩
  | cons c cs ih =>
    have hread := h.1.length_read
    have htail := ih (.of_fresh h.2)
    rw [List.flatMap_cons, List.length_append, WriteCursor.unsent, List.length_append, hread]
    by_cases hsrc : c.src ≠ []
    · have henc : 0 < (encodePayload lz4 c.src).length :=
        List.length_pos_iff.mpr (encode_ne_nil lz4 true hsrc)
      rw [offered, if_pos hsrc]
      exact ⟨fun h ↦ absurd h (by simp), fun _ ↦ by simp only; omega⟩
    · rw [not_not] at hsrc
      have henc : (encodePayload lz4 c.src).length = 0 := by
        rw [hsrc]; exact congrArg List.length (encode_nil lz4 true)
      rw [offered, if_neg (not_not.mpr hsrc), henc]
      exact ⟨fun h ↦ by rw [← htail.1 h]; omega, fun h ↦ by have := htail.2 h; simp only; omega⟩

@[simp] theorem gather_zero (scratch : List UInt8) (cursors : List WriteCursor) :
    gather scratch cursors 0 = some [] := by
  cases cursors <;> rfl

theorem gather_cons (scratch : List UInt8) (c : WriteCursor) (cs : List WriteCursor) {n : ℕ}
    (hn : n ≠ 0) : gather scratch (c :: cs) n
      = (gather scratch cs (n - min n c.len)).map (c.base.read scratch (min n c.len) ++ ·) := by
  obtain ⟨m, rfl⟩ := Nat.exists_eq_succ_of_ne_zero hn
  rw [gather]
  simp

@[simp] theorem advanceCursors_zero (cursors : List WriteCursor) :
    advanceCursors cursors 0 = cursors := by
  cases cursors
  · rfl
  · rw [advanceCursors, if_pos rfl]

theorem advanceCursors_stop {c : WriteCursor} {cs : List WriteCursor} {n : ℕ} (hn : n ≠ 0)
    (h : n < c.len ∨ n ≤ c.len ∧ c.src ≠ []) : advanceCursors (c :: cs) n = c.advance n :: cs := by
  have hmin : min n c.len = n := by omega
  rw [advanceCursors, if_neg hn]
  simp only [hmin]
  rcases h with h | ⟨-, hsrc⟩
  · rw [if_neg (by omega)]
  · rw [if_pos hsrc, ite_self]

theorem advanceCursors_next {c : WriteCursor} {cs : List WriteCursor} {n : ℕ} (hn : n ≠ 0)
    (hlen : c.len ≤ n) (hsrc : c.src = []) :
    advanceCursors (c :: cs) n = advanceCursors cs (n - c.len) := by
  rw [advanceCursors, if_neg hn]
  simp only [Nat.min_eq_right hlen, Nat.sub_self, if_true, hsrc, ne_eq, not_true_eq_false, if_false]

/-- **Sending a frame** moves exactly its bytes from the cursors to the wire. -/
theorem gather_advance {scratch : List UInt8} {cursors : List WriteCursor} {n : ℕ}
    (h : CursorsOk scratch cursors) (hn : n ≤ (offered cursors).1) :
    ∃ bytes, gather scratch cursors n = some bytes ∧ bytes.length = n ∧
      cursors.flatMap (WriteCursor.unsent lz4 scratch)
        = bytes ++ (advanceCursors cursors n).flatMap (WriteCursor.unsent lz4 scratch) ∧
      CursorsOk scratch (advanceCursors cursors n) := by
  induction cursors generalizing n with
  | nil =>
    obtain rfl : n = 0 := Nat.le_zero.mp hn
    exact ⟨[], rfl, rfl, rfl, trivial⟩
  | cons c cs ih =>
    obtain ⟨hfront, hfresh⟩ := h
    rcases eq_or_ne n 0 with rfl | hn0
    · refine ⟨[], gather_zero _ _, rfl, ?_, ?_⟩ <;> rw [advanceCursors_zero]
      · rfl
      · exact ⟨hfront, hfresh⟩
    -- The frame ends in the front cursor, or at its end while its source has more.
    by_cases hstop : n < c.len ∨ n ≤ c.len ∧ c.src ≠ []
    · have hnle : n ≤ c.len := by omega
      have hmin : min n c.len = n := by omega
      refine ⟨c.base.read scratch n, ?_, hfront.length_read_of_le hnle, ?_, ?_⟩
      · rw [gather_cons _ _ _ hn0, hmin, Nat.sub_self, gather_zero, Option.map_some,
          List.append_nil]
      · rw [advanceCursors_stop hn0 hstop, List.flatMap_cons, List.flatMap_cons,
          WriteCursor.unsent_eq_append lz4 hnle, List.append_assoc]
      · rw [advanceCursors_stop hn0 hstop]
        exact ⟨hfront.advance hnle, hfresh⟩
    · -- the front cursor is used up and had no source left: the frame goes on behind it
      have hlen : c.len ≤ n := by omega
      have hmin : min n c.len = c.len := by omega
      have hsrc : c.src = [] := by
        by_contra hsrc
        rw [offered, if_pos hsrc] at hn
        exact hstop (Or.inr ⟨hn, hsrc⟩)
      have hnext : n - c.len ≤ (offered cs).1 := by
        rw [offered, if_neg (not_not.mpr hsrc)] at hn
        simp only at hn
        omega
      obtain ⟨bytes, hbytes, hblen, hunsent, hok⟩ := ih (.of_fresh hfresh) hnext
      have hempty : (c.advance c.len).len = 0 := Nat.sub_self _
      have hdone : (c.advance c.len).unsent lz4 scratch = [] :=
        WriteCursor.unsent_eq_nil lz4 hempty hsrc scratch
      rw [advanceCursors_next hn0 hlen hsrc]
      refine ⟨c.base.read scratch c.len ++ bytes, ?_, ?_, ?_, hok⟩
      · rw [gather_cons _ _ _ hn0, hmin, hbytes, Option.map_some]
      · rw [List.length_append, hfront.length_read, hblen]; omega
      · rw [List.flatMap_cons, WriteCursor.unsent_eq_append lz4 le_rfl, hdone, List.append_nil,
          hunsent, List.append_assoc]

/-! ## One round of callbacks

Stepping over finished cursors loses nothing and stops at one that has something to say, so a round
moves at least one byte while there is one. -/

theorem skipFinished_spec {scratch : List UInt8} {cursors : List WriteCursor}
    (h : CursorsOk scratch cursors) :
    CursorsOk scratch (skipFinished cursors) ∧
      (skipFinished cursors).flatMap (WriteCursor.unsent lz4 scratch)
        = cursors.flatMap (WriteCursor.unsent lz4 scratch) ∧
      ∀ c cs, skipFinished cursors = c :: cs → ¬(c.len = 0 ∧ c.src = []) := by
  induction cursors with
  | nil => exact ⟨trivial, rfl, fun c cs h ↦ absurd h (by simp [skipFinished])⟩
  | cons c cs ih =>
    by_cases hc : c.len = 0 ∧ c.src = []
    · have hskip : skipFinished (c :: cs) = skipFinished cs := by
        rw [skipFinished, List.dropWhile_cons_of_pos (by simpa using hc), skipFinished]
      obtain ⟨hok, hunsent, hfront⟩ := ih (.of_fresh h.2)
      rw [hskip, List.flatMap_cons, WriteCursor.unsent_eq_nil lz4 hc.1 hc.2, List.nil_append]
      exact ⟨hok, hunsent, hfront⟩
    · have hskip : skipFinished (c :: cs) = c :: cs := by
        rw [skipFinished, List.dropWhile_cons_of_neg (by simpa using hc)]
      rw [hskip]
      refine ⟨h, rfl, fun c' cs' heq ↦ ?_⟩
      rw [← (List.cons.inj heq).1]
      exact hc

def ScratchIntact (lz4 : Lz4) (s : SendState) (length : ℕ) : Prop :=
  (dataSourceReadCallback lz4 s length).1.compressScratch = s.compressScratch ∨
    ∀ c ∈ s.cursors, ∀ offset, c.base = .scratch offset → c.len = 0

/-- The front cursor once its next block exists. -/
theorem dataSourceReadCallback_cons {s : SendState} {c : WriteCursor} {cs : List WriteCursor}
    (h : CursorsOk s.compressScratch s.cursors) (hskip : skipFinished s.cursors = c :: cs)
    (length : ℕ) : ∃ scratch front,
      dataSourceReadCallback lz4 s length =
        ({ s with
            compressScratch := scratch, cursors := front :: cs,
            pendingLen := min (offered (front :: cs)).1 length },
          ⟨min (offered (front :: cs)).1 length,
            min (offered (front :: cs)).1 length == (offered (front :: cs)).1 &&
              !(offered (front :: cs)).2, true⟩) ∧
      CursorsOk scratch (front :: cs) ∧ 0 < front.len ∧
      (front :: cs).flatMap (WriteCursor.unsent lz4 scratch) = s.unsent lz4 := by
  obtain ⟨hok, hunsent, hfront⟩ := skipFinished_spec lz4 h
  rw [hskip] at hok hunsent
  have hmore := hfront c cs hskip
  by_cases hlen : c.len = 0
  · have hsrc : c.src ≠ [] := fun hsrc ↦ hmore ⟨hlen, hsrc⟩
    obtain ⟨hmat, hpos, hmatUnsent⟩ := materializeBlock_spec lz4 s.compressScratch hsrc
    have hnothing : c.base.read s.compressScratch c.len = [] := by
      rw [hlen]; cases c.base <;> rfl
    refine ⟨_, _, ?_, ⟨hmat, hok.2⟩, hpos, ?_⟩
    · rw [dataSourceReadCallback, hskip]
      simp only [hlen, if_true]
    · rw [SendState.unsent, ← hunsent, List.flatMap_cons, List.flatMap_cons, hmatUnsent,
        WriteCursor.unsent, hnothing, List.nil_append]
      exact congrArg (_ ++ ·) (List.flatMap_congr fun c' hc' ↦
        WriteCursor.Fresh.unsent_eq lz4 (hok.2 c' hc') _ _)
  · refine ⟨s.compressScratch, c, ?_, hok, Nat.pos_of_ne_zero hlen, hunsent⟩
    rw [dataSourceReadCallback, hskip]
    simp only [if_neg hlen]

theorem scratchIntact {s : SendState} (h : CursorsOk s.compressScratch s.cursors) (length : ℕ) :
    ScratchIntact lz4 s length := by
  rcases hcursors : s.cursors with _ | ⟨c, cs⟩
  · left
    rw [dataSourceReadCallback, hcursors]
    rfl
  · rw [hcursors] at h
    have hlater : ∀ c' ∈ cs, ∀ offset, c'.base ≠ .scratch offset := by
      intro c' hc' offset
      rcases h.2 c' hc' with ⟨bytes, hbase, -⟩ | ⟨hbase, -⟩ <;> rw [hbase] <;> nofun
    by_cases hlen : c.len = 0
    · right
      rw [hcursors]
      intro c' hc' offset hbase
      rcases List.mem_cons.mp hc' with rfl | hmem
      · exact hlen
      · exact absurd hbase (hlater c' hmem offset)
    · left
      have hskip : skipFinished s.cursors = c :: cs := by
        rw [hcursors, skipFinished, List.dropWhile_cons_of_neg (by simp [hlen])]
      rw [dataSourceReadCallback, hskip]
      simp only [if_neg hlen]

/-- **One round**: the data source is asked, and the frame it announced is sent. Bytes move from
the cursors to the wire, at least one of them unless none was left, and the end of the data is
flagged exactly when nothing remains. -/
theorem round_spec {s : SendState} {length : ℕ} (h : CursorsOk s.compressScratch s.cursors)
    (hlength : 0 < length) :
    ∃ s' bytes, sendDataCallback (dataSourceReadCallback lz4 s length).1
          (dataSourceReadCallback lz4 s length).2.chunk = some s' ∧
      CursorsOk s'.compressScratch s'.cursors ∧ s'.sent = s.sent ++ bytes ∧
      s.unsent lz4 = bytes ++ s'.unsent lz4 ∧ (s.unsent lz4 ≠ [] → bytes ≠ []) ∧
      ((dataSourceReadCallback lz4 s length).2.eof = true ↔ s'.unsent lz4 = []) := by
  obtain ⟨hok, hunsent, -⟩ := skipFinished_spec lz4 h
  -- Nothing may be left to say, or the first cursor that is left speaks.
  rcases hskip : skipFinished s.cursors with _ | ⟨c, cs⟩
  · have hdone : s.unsent lz4 = [] := by rw [SendState.unsent, ← hunsent, hskip]; rfl
    refine ⟨{ s with cursors := [], pendingLen := 0 }, [], ?_, trivial, ?_, ?_, ?_, ?_⟩
    · rw [dataSourceReadCallback, hskip]
      simp [sendDataCallback, advanceCursors]
    · rw [List.append_nil]
    · rw [hdone]; rfl
    · exact fun hne ↦ absurd hdone hne
    · rw [dataSourceReadCallback, hskip]
      exact iff_of_true rfl rfl
  · obtain ⟨scratch, front, hcall, hok', hpos, hunsent'⟩ :=
      dataSourceReadCallback_cons lz4 h hskip length
    set available := (offered (front :: cs)).1 with havailable
    have havailable_pos : 0 < available := by
      rw [havailable, offered]
      split
      · exact hpos
      · simp only; omega
    obtain ⟨bytes, hbytes, hblen, hsplit, hokAfter⟩ :=
      gather_advance lz4 hok' (Nat.min_le_left available length)
    rw [hcall]
    refine ⟨{ s with
        compressScratch := scratch
        cursors := advanceCursors (front :: cs) (min available length)
        pendingLen := 0
        sent := s.sent ++ bytes }, bytes, ?_, hokAfter, rfl, ?_, ?_, ?_⟩
    · simp only [sendDataCallback, ne_eq, not_true_eq_false, if_false, hbytes, Option.map_some]
    · rw [← hunsent', hsplit]; rfl
    · intro _ hnil
      rw [hnil, List.length_nil] at hblen
      omega
    · -- the end is flagged when the frame takes all there is and no block is still to come
      have hlen := congrArg List.length hsplit
      rw [List.length_append, hblen] at hlen
      obtain ⟨hexact, hmore⟩ := offered_spec lz4 hok'
      rw [← havailable] at hexact hmore
      simp only [SendState.unsent, Bool.and_eq_true, beq_iff_eq, Bool.not_eq_true']
      constructor
      · rintro ⟨htakes, hlazy⟩
        rw [hexact hlazy] at hlen
        exact List.length_eq_zero_iff.mp (by omega)
      · intro hnil
        rw [hnil, List.length_nil] at hlen
        rcases hlazy : (offered (front :: cs)).2
        · exact ⟨by rw [hexact hlazy] at hlen; omega, rfl⟩
        · exact absurd (hmore hlazy) (by omega)

/-! ## Whole runs

The lengths are those that the library can send, in order; none of them is zero. -/

/-- **Whole runs.** Whatever lengths the library can send, no callback fails, and what is on the
wire followed by what the cursors still describe is what they described at first. The end is
flagged only when everything is out, and as many lengths as there are bytes get everything out. -/
theorem serve_spec {s : SendState} {lengths : List ℕ} (h : CursorsOk s.compressScratch s.cursors)
    (hpos : ∀ length ∈ lengths, 0 < length) :
    ∃ s' eof, serve lz4 s lengths = some (s', eof) ∧
      CursorsOk s'.compressScratch s'.cursors ∧
      s'.sent ++ s'.unsent lz4 = s.sent ++ s.unsent lz4 ∧
      (eof = true → s'.unsent lz4 = []) ∧
      ((s.unsent lz4).length ≤ lengths.length → s'.unsent lz4 = []) := by
  induction lengths generalizing s with
  | nil =>
    refine ⟨s, false, rfl, h, rfl, fun h ↦ absurd h (by simp), fun hlen ↦ ?_⟩
    exact List.length_eq_zero_iff.mp (Nat.le_zero.mp hlen)
  | cons length lengths ih =>
    obtain ⟨s', bytes, hsend, hok, hsent, hunsent, hprogress, heof⟩ :=
      round_spec lz4 h (hpos length List.mem_cons_self)
    have hbalance : s'.sent ++ s'.unsent lz4 = s.sent ++ s.unsent lz4 := by
      rw [hsent, hunsent, List.append_assoc]
    rw [serve]
    simp only [hsend]
    by_cases hflag : (dataSourceReadCallback lz4 s length).2.eof = true
    · rw [if_pos hflag]
      have hdone := heof.mp hflag
      exact ⟨s', true, rfl, hok, hbalance, fun _ ↦ hdone, fun _ ↦ hdone⟩
    · rw [if_neg hflag]
      have hleft : s'.unsent lz4 ≠ [] := fun hnil ↦ hflag (heof.mpr hnil)
      have hne : s.unsent lz4 ≠ [] := by
        rw [hunsent]; exact List.append_ne_nil_of_right_ne_nil _ hleft
      have hbytes : 0 < bytes.length := List.length_pos_iff.mpr (hprogress hne)
      obtain ⟨s'', eof, hserve, hok'', hsum, hend, hall⟩ :=
        ih hok fun l hl ↦ hpos l (List.mem_cons_of_mem _ hl)
      refine ⟨s'', eof, hserve, hok'', hsum.trans hbalance, hend, fun hlen ↦ hall ?_⟩
      rw [hunsent, List.length_append, List.length_cons] at hlen
      omega

end Unsent

end Lupine
