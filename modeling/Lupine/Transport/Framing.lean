import Mathlib.Data.Int.Basic
import Mathlib.Data.Nat.Basic
import Mathlib.Order.Basic
import Mathlib.Tactic.Common
import Lupine.Foundation.Blocks
import Lupine.Foundation.LittleEndian

/-!
# The payload framing of `compress.cpp`

A framed payload is a sequence of blocks, each `[uint32 token][block bytes]`: token `0` stores the
block raw, any other token is the LZ4-compressed size of the block. This file embeds the readers of
that format (`rpc_read_payload_part`, `rpc_drain_payload`) over the bytes still inbound on a
connection, defines the encoding itself, and shows that each reader, started on an encoding,
consumes exactly it.

## Reads

`rpc_read` hands out the next `size` bytes of the inbound stream or fails when the stream ends
first. A failed read gives up the connection, so what it consumed is not modelled: failure is
`none`. A successful read returns `static_cast<int>(size)`, which callers test for being negative;
the cast is kept because a `size_t` above `INT_MAX` does turn negative.

## Block boundaries

An encoding is cut into blocks from the front. Encodings concatenate at block boundaries, so a
payload may be read in parts, each of which is a whole number of blocks except the last; a verbatim
payload has no boundaries to respect.
-/

namespace Lupine

open Foundation

/-! ## The compression library

The LZ4 block functions are taken as a parameter, with the two facts the framing relies on as
fields. -/

/-- The three LZ4 functions the transport calls. -/
structure Lz4 where
  /-- `LZ4_compressBound`. -/
  compressBound : ℕ → ℕ
  /-- `LZ4_compress_default`: the compressed bytes, or `none` for a result that is not positive. -/
  compressDefault : List UInt8 → ℕ → Option (List UInt8)
  /-- `LZ4_decompress_safe` with the capacity of the destination; `none` for a negative result. -/
  decompressSafe : List UInt8 → ℕ → Option (List UInt8)
  /-- Compressed data respects the bound. -/
  length_le : ∀ {src cap out}, compressDefault src cap = some out →
    out.length ≤ compressBound src.length
  /-- Decompressing compressed data gives the data back. -/
  decompress_compress : ∀ {src cap out}, compressDefault src cap = some out →
    decompressSafe out src.length = some src

/-- `LZ4_compress_default` on inputs of fewer than 13 bytes, which are stored as one run of literals
behind a token that holds their number in its high half. -/
def literalCompress (src : List UInt8) (cap : ℕ) : Option (List UInt8) :=
  if src.length < 13 ∧ src.length + 1 ≤ cap then some (UInt8.ofNat (16 * src.length) :: src)
  else none

/-- `LZ4_decompress_safe` on one run of literals. -/
def literalDecompress (compressed : List UInt8) (cap : ℕ) : Option (List UInt8) :=
  match compressed with
  | [] => none
  | token :: literals =>
    if token.toNat = 16 * literals.length ∧ literals.length ≤ cap then some literals else none

theorem length_literalCompress_le {src out : List UInt8} {cap : ℕ}
    (h : literalCompress src cap = some out) :
    out.length ≤ src.length + src.length / 255 + 16 := by
  rw [literalCompress] at h
  split_ifs at h
  obtain rfl := Option.some.inj h
  rw [List.length_cons]
  omega

theorem literalDecompress_literalCompress {src out : List UInt8} {cap : ℕ}
    (h : literalCompress src cap = some out) : literalDecompress out src.length = some src := by
  rw [literalCompress] at h
  split_ifs at h with hlen
  obtain rfl := Option.some.inj h
  have htoken : (UInt8.ofNat (16 * src.length)).toNat = 16 * src.length :=
    UInt8.toNat_ofNat_of_lt' (by rw [UInt8.size]; omega)
  exact if_pos ⟨htoken, le_rfl⟩

/-- The library as far as inputs of fewer than 13 bytes go. -/
def literalLz4 : Lz4 where
  compressBound n := n + n / 255 + 16
  compressDefault := literalCompress
  decompressSafe := literalDecompress
  length_le := length_literalCompress_le
  decompress_compress := literalDecompress_literalCompress

/-- `LUPINE_COMPRESS_BLOCK_BYTES`. -/
def compressBlockBytes : ℕ := 4 * 1024 * 1024

/-- `kLupineCompressMinBytes`. -/
def compressMinBytes : ℕ := 64 * 1024

theorem compressBlockBytes_pos : 0 < compressBlockBytes := by decide

/-- `lupine_payload_framed`, from what the connection negotiated. -/
def payloadFramed (compressLz4 : Bool) (totalSize : ℕ) : Bool :=
  decide (compressMinBytes ≤ totalSize) && compressLz4

/-! ## The encoding

A block is stored raw when its compressed form is not strictly smaller. -/

/-- One block on the wire: its compressed form when that is strictly smaller, else the block
itself under token `0`. -/
def encodeBlock (lz4 : Lz4) (raw : List UInt8) : List UInt8 :=
  match lz4.compressDefault raw (lz4.compressBound compressBlockBytes) with
  | some out =>
    if 0 < out.length ∧ out.length < raw.length then leBytes 4 out.length ++ out
    else leBytes 4 0 ++ raw
  | none => leBytes 4 0 ++ raw

def encodePayload (lz4 : Lz4) (payload : List UInt8) : List UInt8 :=
  encodeBlocks compressBlockBytes (encodeBlock lz4) payload

/-- A payload as the client writes it, framed or verbatim. -/
def encode (lz4 : Lz4) (framed : Bool) (payload : List UInt8) : List UInt8 :=
  if framed then encodePayload lz4 payload else payload

/-! ## The readers

The readers follow the source, with the casts of sizes kept. -/

/-- `static_cast<int>` of a `size_t`: its low 32 bits, read as a signed word. -/
def staticCastInt (size : ℕ) : ℤ := (size : ℤ).bmod (2 ^ 32)

/-- What a read leaves: the value it returns, the bytes it stored, and those still inbound. -/
structure ReadOutcome where
  code : ℤ
  data : List UInt8
  rest : List UInt8
  deriving DecidableEq, Repr

/-- `rpc_read`, that is `rpc_http2_read`. -/
def rpcRead (input : List UInt8) (size : ℕ) : Option ReadOutcome :=
  if size ≤ input.length then some ⟨staticCastInt size, input.take size, input.drop size⟩ else none

/-- The test `< 0` a caller makes on the result of a read. -/
def unlessNegative (outcome : Option ReadOutcome) : Option ReadOutcome :=
  outcome.filter fun r ↦ decide (0 ≤ r.code)

/-- The buffer of `rpc_drain`. -/
def drainBufferBytes : ℕ := 64 * 1024

/-- `rpc_drain`: what is left inbound once `size` bytes were discarded. -/
def rpcDrain (input : List UInt8) (size : ℕ) : Option (List UInt8) :=
  if _h : size = 0 then some input
  else do
    let r ← unlessNegative (rpcRead input (min drainBufferBytes size))
    rpcDrain r.rest (size - min drainBufferBytes size)
termination_by size
decreasing_by
  have : 0 < drainBufferBytes := by decide
  omega

/-- The body of the loop of `rpc_read_payload_part`: one block of `raw` uncompressed bytes. -/
def readBlock (lz4 : Lz4) (input : List UInt8) (raw : ℕ) : Option (List UInt8 × List UInt8) := do
  let header ← unlessNegative (rpcRead input 4)
  let token := leValue header.data
  if token = 0 then
    let r ← unlessNegative (rpcRead header.rest raw)
    some (r.data, r.rest)
  else if lz4.compressBound raw < token then none
  else
    let r ← unlessNegative (rpcRead header.rest token)
    let out ← lz4.decompressSafe r.data raw
    if out.length = raw then some (out, r.rest) else none

/-- The loop of `rpc_read_payload_part` over the blocks of a framed part. -/
def readBlocks (lz4 : Lz4) (input : List UInt8) (remaining : ℕ) :
    Option (List UInt8 × List UInt8) :=
  if _h : remaining = 0 then some ([], input)
  else do
    let block ← readBlock lz4 input (min compressBlockBytes remaining)
    let tail ← readBlocks lz4 block.2 (remaining - min compressBlockBytes remaining)
    some (block.1 ++ tail.1, tail.2)
termination_by remaining
decreasing_by
  have := compressBlockBytes_pos
  omega

/-- `rpc_read_payload_part`. -/
def readPayloadPart (lz4 : Lz4) (framed : Bool) (input : List UInt8) (size : ℕ) :
    Option ReadOutcome :=
  if size = 0 then some ⟨0, [], input⟩
  else if !framed then rpcRead input size
  else (readBlocks lz4 input size).map fun r ↦ ⟨staticCastInt size, r.1, r.2⟩

/-- The loop of `rpc_drain_payload` over the blocks of a framed payload. -/
def drainBlocks (lz4 : Lz4) (input : List UInt8) (remaining : ℕ) : Option (List UInt8) :=
  if _h : remaining = 0 then some input
  else do
    let raw := min compressBlockBytes remaining
    let header ← unlessNegative (rpcRead input 4)
    let token := leValue header.data
    let rest ←
      if token = 0 then rpcDrain header.rest raw
      else if lz4.compressBound raw < token then none
      else rpcDrain header.rest token
    drainBlocks lz4 rest (remaining - min compressBlockBytes remaining)
termination_by remaining
decreasing_by
  have := compressBlockBytes_pos
  omega

/-- `rpc_drain_payload`. -/
def drainPayload (lz4 : Lz4) (framed : Bool) (input : List UInt8) (size : ℕ) :
    Option (List UInt8) :=
  if !framed then rpcDrain input size else drainBlocks lz4 input size

/-! ## Reads that stay inside the stream

A size of less than 2^31 is not cast to a negative number. -/

@[simp] theorem staticCastInt_zero : staticCastInt 0 = 0 := rfl

theorem staticCastInt_of_lt {n : ℕ} (h : n < 2 ^ 31) : staticCastInt n = n :=
  Int.bmod_eq_of_le (by omega) (by omega)

theorem rpcRead_append (data rest : List UInt8) :
    rpcRead (data ++ rest) data.length = some ⟨staticCastInt data.length, data, rest⟩ := by
  rw [rpcRead, if_pos (by simp), List.take_left, List.drop_left]

theorem unlessNegative_rpcRead_append {data : List UInt8} (rest : List UInt8)
    (h : data.length < 2 ^ 31) :
    unlessNegative (rpcRead (data ++ rest) data.length) = some ⟨data.length, data, rest⟩ := by
  rw [rpcRead_append, staticCastInt_of_lt h]
  simp [unlessNegative]

theorem unlessNegative_rpcRead_leBytes (w n : ℕ) (rest : List UInt8) (h : w < 2 ^ 31) :
    unlessNegative (rpcRead (leBytes w n ++ rest) w) = some ⟨w, leBytes w n, rest⟩ := by
  have hlen : (leBytes w n).length < 2 ^ 31 := by rwa [length_leBytes]
  have hread := unlessNegative_rpcRead_append rest hlen
  rwa [length_leBytes] at hread

theorem rpcDrain_append (data rest : List UInt8) :
    rpcDrain (data ++ rest) data.length = some rest := by
  induction h : data.length using Nat.strong_induction_on generalizing data with
  | _ n ih =>
    subst h
    rcases Nat.eq_zero_or_pos data.length with h0 | hpos
    · rw [rpcDrain, dif_pos h0, List.length_eq_zero_iff.mp h0, List.nil_append]
    · have hbuf : drainBufferBytes < 2 ^ 31 := by decide
      have hbufpos : 0 < drainBufferBytes := by decide
      have htake : (data.take drainBufferBytes).length = min drainBufferBytes data.length :=
        List.length_take
      have hdrop : (data.drop drainBufferBytes).length
          = data.length - min drainBufferBytes data.length := by
        rw [List.length_drop]; omega
      have hint : (data.take drainBufferBytes).length < 2 ^ 31 := by rw [htake]; omega
      have hread := unlessNegative_rpcRead_append (data.drop drainBufferBytes ++ rest) hint
      rw [← List.append_assoc, List.take_append_drop, htake] at hread
      rw [rpcDrain, dif_neg hpos.ne', hread]
      simp only [Option.bind_eq_bind, Option.bind_some]
      rw [← hdrop]
      exact ih _ (by rw [hdrop]; omega) _ rfl

/-! ## Readers on an encoding

A block on the wire is its token and its bytes, and each reader undoes one block at a time. -/

section Readers

variable (lz4 : Lz4)

theorem encodeBlock_ne_nil (raw : List UInt8) : encodeBlock lz4 raw ≠ [] := by
  rw [encodeBlock]
  split
  · split <;> simp [leBytes]
  · simp [leBytes]

/-- A block on the wire is its token and its bytes: token `0` with the block itself, or the length
of a strictly smaller compressed form that decompresses to the block. -/
theorem encodeBlock_cases (raw : List UInt8) :
    encodeBlock lz4 raw = leBytes 4 0 ++ raw ∨
      ∃ out, encodeBlock lz4 raw = leBytes 4 out.length ++ out ∧ 0 < out.length ∧
        out.length < raw.length ∧ out.length ≤ lz4.compressBound raw.length ∧
        lz4.decompressSafe out raw.length = some raw := by
  rw [encodeBlock]
  split
  · next out hout =>
    split
    · next hlen =>
      exact Or.inr ⟨out, rfl, hlen.1, hlen.2, lz4.length_le hout, lz4.decompress_compress hout⟩
    · exact Or.inl rfl
  · exact Or.inl rfl

theorem readBlock_encodeBlock {raw : List UInt8} (rest : List UInt8)
    (hraw : raw.length ≤ compressBlockBytes) :
    readBlock lz4 (encodeBlock lz4 raw ++ rest) raw.length = some (raw, rest) := by
  have hB : compressBlockBytes < 2 ^ 31 := by decide
  rcases encodeBlock_cases lz4 raw with henc | ⟨out, henc, hpos, hlt, hbound, hdec⟩
  · rw [henc, List.append_assoc, readBlock,
      unlessNegative_rpcRead_leBytes 4 0 _ (by omega)]
    simp only [Option.bind_eq_bind, Option.bind_some]
    rw [leValue_leBytes (by norm_num), if_pos rfl, unlessNegative_rpcRead_append rest (by omega)]
    rfl
  · have htoken : out.length < 256 ^ 4 := by
      have : compressBlockBytes < 256 ^ 4 := by decide
      omega
    rw [henc, List.append_assoc, readBlock,
      unlessNegative_rpcRead_leBytes 4 _ _ (by omega)]
    simp only [Option.bind_eq_bind, Option.bind_some]
    rw [leValue_leBytes htoken, if_neg hpos.ne', if_neg (by omega),
      unlessNegative_rpcRead_append rest (by omega)]
    simp only [Option.bind_some, hdec, if_true]

theorem encodePayload_step {payload : List UInt8} (h : payload ≠ []) :
    ∃ raw tail, raw.length = min compressBlockBytes payload.length ∧
      tail.length = payload.length - min compressBlockBytes payload.length ∧
      payload = raw ++ tail ∧
      encodePayload lz4 payload = encodeBlock lz4 raw ++ encodePayload lz4 tail :=
  ⟨payload.take compressBlockBytes, payload.drop compressBlockBytes, List.length_take,
    by rw [List.length_drop]; omega, (List.take_append_drop _ _).symm,
    encodeBlocks_of_ne_nil compressBlockBytes_pos h⟩

theorem readBlocks_encodePayload (payload rest : List UInt8) :
    readBlocks lz4 (encodePayload lz4 payload ++ rest) payload.length = some (payload, rest) := by
  induction h : payload.length using Nat.strong_induction_on generalizing payload with
  | _ n ih =>
    subst h
    rcases eq_or_ne payload [] with rfl | hne
    · rw [readBlocks, dif_pos List.length_nil, encodePayload, encodeBlocks_nil, List.nil_append]
    · obtain ⟨raw, tail, hraw, htail, happ, henc⟩ := encodePayload_step lz4 hne
      have hpos : 0 < payload.length := List.length_pos_iff.mpr hne
      have hB := compressBlockBytes_pos
      have hfits : raw.length ≤ compressBlockBytes := by omega
      have hblock := readBlock_encodeBlock lz4 (encodePayload lz4 tail ++ rest) hfits
      rw [readBlocks, dif_neg hpos.ne', henc, List.append_assoc, ← hraw, hblock]
      simp only [Option.bind_eq_bind, Option.bind_some]
      rw [hraw, ← htail, ih _ (by omega) tail rfl, Option.bind_some, ← happ]

theorem drainBlocks_encodePayload (payload rest : List UInt8) :
    drainBlocks lz4 (encodePayload lz4 payload ++ rest) payload.length = some rest := by
  induction h : payload.length using Nat.strong_induction_on generalizing payload with
  | _ n ih =>
    subst h
    rcases eq_or_ne payload [] with rfl | hne
    · rw [drainBlocks, dif_pos List.length_nil, encodePayload, encodeBlocks_nil, List.nil_append]
    · obtain ⟨raw, tail, hraw, htail, happ, henc⟩ := encodePayload_step lz4 hne
      have hpos : 0 < payload.length := List.length_pos_iff.mpr hne
      have hB := compressBlockBytes_pos
      have hB' : compressBlockBytes < 256 ^ 4 := by decide
      have hnext := ih tail.length (by omega) tail rfl
      rw [drainBlocks, dif_neg hpos.ne', henc, List.append_assoc]
      rcases encodeBlock_cases lz4 raw with hblock | ⟨out, hblock, hout, hlt, hbound, -⟩
      · rw [hblock, List.append_assoc, unlessNegative_rpcRead_leBytes 4 0 _ (by omega)]
        simp only [Option.bind_eq_bind, Option.bind_some]
        rw [leValue_leBytes (by norm_num), if_pos rfl, ← hraw, rpcDrain_append, Option.bind_some,
          hraw, ← htail, hnext]
      · rw [hblock, List.append_assoc, unlessNegative_rpcRead_leBytes 4 _ _ (by omega)]
        simp only [Option.bind_eq_bind, Option.bind_some]
        rw [hraw] at hbound
        rw [leValue_leBytes (by omega), if_neg hout.ne', if_neg (by omega), rpcDrain_append,
          Option.bind_some, ← htail, hnext]

/-- Encodings concatenate at block boundaries; a verbatim payload has no boundaries to respect. -/
theorem encode_append {framed : Bool} {part tail : List UInt8}
    (h : framed = true → compressBlockBytes ∣ part.length) :
    encode lz4 framed (part ++ tail) = encode lz4 framed part ++ encode lz4 framed tail := by
  cases framed with
  | false => rfl
  | true => exact encodeBlocks_append compressBlockBytes_pos (h rfl)

@[simp] theorem encode_nil (framed : Bool) : encode lz4 framed [] = [] := by
  cases framed
  · rfl
  · exact encodeBlocks_nil

theorem encode_ne_nil (framed : Bool) {payload : List UInt8} (h : payload ≠ []) :
    encode lz4 framed payload ≠ [] := by
  cases framed
  · exact h
  · exact encodeBlocks_ne_nil compressBlockBytes_pos h (encodeBlock_ne_nil lz4)

/-- **A part read consumes its own encoding** and stores the part. -/
theorem readPayloadPart_encode (framed : Bool) (part rest : List UInt8) :
    readPayloadPart lz4 framed (encode lz4 framed part ++ rest) part.length
      = some ⟨staticCastInt part.length, part, rest⟩ := by
  rw [readPayloadPart]
  rcases eq_or_ne part [] with rfl | hne
  · rw [if_pos List.length_nil, encode_nil, List.nil_append, List.length_nil, staticCastInt_zero]
  · rw [if_neg (List.length_pos_iff.mpr hne).ne']
    cases framed
    · exact rpcRead_append part rest
    · have hread := readBlocks_encodePayload lz4 part rest
      rw [if_neg (by simp), encode, if_pos rfl, hread]
      rfl

theorem unlessNegative_readPayloadPart (framed : Bool) {payload : List UInt8} {size : ℕ}
    (rest : List UInt8) (hsize : size ≤ payload.length) (hint : size < 2 ^ 31)
    (hblock : compressBlockBytes ∣ size ∨ size = payload.length) :
    unlessNegative (readPayloadPart lz4 framed (encode lz4 framed payload ++ rest) size)
      = some ⟨size, payload.take size, encode lz4 framed (payload.drop size) ++ rest⟩ := by
  have htake : (payload.take size).length = size := by rw [List.length_take]; omega
  have hsplit : encode lz4 framed payload
      = encode lz4 framed (payload.take size) ++ encode lz4 framed (payload.drop size) := by
    rcases hblock with hdvd | hall
    · conv_lhs => rw [← List.take_append_drop size payload]
      exact encode_append lz4 fun _ ↦ by rwa [htake]
    · rw [List.take_of_length_le hall.ge, List.drop_eq_nil_of_le hall.ge, encode_nil,
        List.append_nil]
  have hread := readPayloadPart_encode lz4 framed (payload.take size)
    (encode lz4 framed (payload.drop size) ++ rest)
  rw [htake] at hread
  rw [hsplit, List.append_assoc, hread, staticCastInt_of_lt hint]
  simp [unlessNegative]

/-- **A drain consumes the encoding** of what it discards. -/
theorem drainPayload_encode (framed : Bool) (payload rest : List UInt8) :
    drainPayload lz4 framed (encode lz4 framed payload ++ rest) payload.length = some rest := by
  cases framed
  · exact rpcDrain_append payload rest
  · exact drainBlocks_encodePayload lz4 payload rest

end Readers

/-! ## Streams that end early

A connection that is lost has delivered the front of what was written to it. A reader that finds all
it needs there does the same with the whole, and leaves the rest of it. -/

section More

variable {lz4 : Lz4} {framed : Bool} {input : List UInt8} {size : ℕ} (more : List UInt8)

theorem unlessNegative_eq_some {outcome : Option ReadOutcome} {r : ReadOutcome} :
    unlessNegative outcome = some r ↔ outcome = some r ∧ 0 ≤ r.code := by
  rw [unlessNegative, Option.filter_eq_some_iff, decide_eq_true_iff]

theorem rpcRead_more {r : ReadOutcome} (h : rpcRead input size = some r) :
    rpcRead (input ++ more) size = some { r with rest := r.rest ++ more } := by
  rw [rpcRead] at h ⊢
  obtain ⟨hsize, heq⟩ := Option.ite_none_right_eq_some.mp h
  obtain rfl := Option.some.inj heq
  rw [if_pos (by rw [List.length_append]; omega), List.take_append_of_le_length hsize,
    List.drop_append_of_le_length hsize]

theorem unlessNegative_rpcRead_more {r : ReadOutcome}
    (h : unlessNegative (rpcRead input size) = some r) :
    unlessNegative (rpcRead (input ++ more) size) = some { r with rest := r.rest ++ more } := by
  obtain ⟨hread, hcode⟩ := unlessNegative_eq_some.mp h
  exact unlessNegative_eq_some.mpr ⟨rpcRead_more more hread, hcode⟩

theorem rpcDrain_more {rest : List UInt8} (h : rpcDrain input size = some rest) :
    rpcDrain (input ++ more) size = some (rest ++ more) := by
  induction size using Nat.strong_induction_on generalizing input with
  | _ size ih =>
    rw [rpcDrain] at h ⊢
    rcases Nat.eq_zero_or_pos size with rfl | hpos
    · rw [dif_pos rfl, Option.some_inj] at h ⊢
      rw [h]
    · rw [dif_neg hpos.ne'] at h ⊢
      obtain ⟨r, hread, hdrain⟩ := Option.bind_eq_some_iff.mp h
      rw [unlessNegative_rpcRead_more more hread]
      have hbuf : 0 < drainBufferBytes := by decide
      exact ih _ (by omega) hdrain

theorem readBlock_more {raw : ℕ} {block rest : List UInt8}
    (h : readBlock lz4 input raw = some (block, rest)) :
    readBlock lz4 (input ++ more) raw = some (block, rest ++ more) := by
  rw [readBlock] at h ⊢
  obtain ⟨header, hheader, h⟩ := Option.bind_eq_some_iff.mp h
  rw [unlessNegative_rpcRead_more more hheader]
  simp only [Option.bind_eq_bind, Option.bind_some]
  dsimp only at h
  split_ifs at h ⊢
  · obtain ⟨r, hread, heq⟩ := Option.bind_eq_some_iff.mp h
    obtain ⟨rfl, rfl⟩ := Prod.mk.inj (Option.some.inj heq)
    rw [unlessNegative_rpcRead_more more hread, Option.bind_some]
  · obtain ⟨r, hread, h⟩ := Option.bind_eq_some_iff.mp h
    obtain ⟨out, hout, heq⟩ := Option.bind_eq_some_iff.mp h
    obtain ⟨hlength, heq⟩ := Option.ite_none_right_eq_some.mp heq
    obtain ⟨rfl, rfl⟩ := Prod.mk.inj (Option.some.inj heq)
    rw [unlessNegative_rpcRead_more more hread, Option.bind_some, hout, Option.bind_some,
      if_pos hlength]

theorem readBlocks_more {data rest : List UInt8}
    (h : readBlocks lz4 input size = some (data, rest)) :
    readBlocks lz4 (input ++ more) size = some (data, rest ++ more) := by
  induction size using Nat.strong_induction_on generalizing input data with
  | _ size ih =>
    rw [readBlocks] at h ⊢
    rcases Nat.eq_zero_or_pos size with rfl | hpos
    · rw [dif_pos rfl, Option.some_inj, Prod.mk.injEq] at h ⊢
      exact ⟨h.1, congrArg (· ++ more) h.2⟩
    · rw [dif_neg hpos.ne'] at h ⊢
      obtain ⟨⟨block, rest₁⟩, hblock, h⟩ := Option.bind_eq_some_iff.mp h
      obtain ⟨⟨tail, rest₂⟩, htail, heq⟩ := Option.bind_eq_some_iff.mp h
      obtain ⟨rfl, rfl⟩ := Prod.mk.inj (Option.some.inj heq)
      have hblocks := compressBlockBytes_pos
      simp only [Option.bind_eq_bind, readBlock_more more hblock, Option.bind_some,
        ih _ (by omega) htail]

theorem readPayloadPart_more {r : ReadOutcome}
    (h : readPayloadPart lz4 framed input size = some r) :
    readPayloadPart lz4 framed (input ++ more) size = some { r with rest := r.rest ++ more } := by
  rw [readPayloadPart] at h ⊢
  split_ifs at h ⊢
  · obtain rfl := Option.some.inj h
    rfl
  · exact rpcRead_more more h
  · obtain ⟨⟨data, rest⟩, hblocks, rfl⟩ := Option.map_eq_some_iff.mp h
    simp only [readBlocks_more more hblocks, Option.map_some]

theorem unlessNegative_readPayloadPart_more {r : ReadOutcome}
    (h : unlessNegative (readPayloadPart lz4 framed input size) = some r) :
    unlessNegative (readPayloadPart lz4 framed (input ++ more) size) =
      some { r with rest := r.rest ++ more } := by
  obtain ⟨hread, hcode⟩ := unlessNegative_eq_some.mp h
  exact unlessNegative_eq_some.mpr ⟨readPayloadPart_more more hread, hcode⟩

theorem drainBlocks_more {rest : List UInt8} (h : drainBlocks lz4 input size = some rest) :
    drainBlocks lz4 (input ++ more) size = some (rest ++ more) := by
  induction size using Nat.strong_induction_on generalizing input with
  | _ size ih =>
    rw [drainBlocks] at h ⊢
    rcases Nat.eq_zero_or_pos size with rfl | hpos
    · rw [dif_pos rfl, Option.some_inj] at h ⊢
      rw [h]
    · rw [dif_neg hpos.ne'] at h ⊢
      obtain ⟨header, hheader, h⟩ := Option.bind_eq_some_iff.mp h
      have hblocks := compressBlockBytes_pos
      simp only [Option.bind_eq_bind, unlessNegative_rpcRead_more more hheader, Option.bind_some]
      dsimp only at h
      split_ifs at h ⊢
      · obtain ⟨left, hleft, hnext⟩ := Option.bind_eq_some_iff.mp h
        rw [rpcDrain_more more hleft, Option.bind_some]
        exact ih _ (by omega) hnext
      · exact nomatch h
      · obtain ⟨left, hleft, hnext⟩ := Option.bind_eq_some_iff.mp h
        rw [rpcDrain_more more hleft, Option.bind_some]
        exact ih _ (by omega) hnext

theorem drainPayload_more {rest : List UInt8} (h : drainPayload lz4 framed input size = some rest) :
    drainPayload lz4 framed (input ++ more) size = some (rest ++ more) := by
  rw [drainPayload] at h ⊢
  split_ifs at h ⊢
  · exact rpcDrain_more more h
  · exact drainBlocks_more more h

end More

end Lupine
