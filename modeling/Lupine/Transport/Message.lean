import Lupine.Transport.DataSource

/-!
# Messages end to end

The sender of `h2.cpp` and the reader of `compress.cpp` live in different files and agree only
through block arithmetic. Here the two meet: a message is a list of plain and framed entries, the
sender serves it over any sequence of frame lengths, and the reader takes the framed payloads in
any parts that end on block boundaries.

What the receiver knows of a message is its shape: the length of an entry that is plain, and the
parts that one is to be read in that is framed. The parts need not be the blocks of the sender; they
only have to end where some block does, except for the last.
-/

namespace Lupine

open Foundation

/-- `rpc_read_payload_part` called once per part of a framed payload; each call also returns
`staticCastInt` of its size. -/
def readParts (lz4 : Lz4) : List ℕ → List UInt8 → Option (List UInt8 × List UInt8)
  | [], input => some ([], input)
  | size :: sizes, input => do
    let r ← readPayloadPart lz4 true input size
    let tail ← readParts lz4 sizes r.rest
    some (r.data ++ tail.1, tail.2)

/-- A split of `total` bytes into parts whose sizes are multiples of the block size, except that
the last may be anything. -/
def AlignedSplit (sizes : List ℕ) (total : ℕ) : Prop :=
  sizes.sum = total ∧ ∀ size ∈ sizes.dropLast, compressBlockBytes ∣ size

/-- What a receiver knows of an entry: its length if it is plain, its parts if it is framed. -/
def receive (lz4 : Lz4) (framed : UInt8) (sizes : List ℕ) (input : List UInt8) :
    Option (List UInt8 × List UInt8) :=
  if framed ≠ 0 then readParts lz4 sizes input
  else (rpcRead input sizes.sum).map fun r ↦ (r.data, r.rest)

def receiveMessage (lz4 : Lz4) :
    List (UInt8 × List ℕ) → List UInt8 → Option (List (List UInt8) × List UInt8)
  | [], input => some ([], input)
  | (framed, sizes) :: shape, input => do
    let r ← receive lz4 framed sizes input
    let tail ← receiveMessage lz4 shape r.2
    some (r.1 :: tail.1, tail.2)

variable (lz4 : Lz4)

theorem readParts_encodePayload {sizes : List ℕ} {payload : List UInt8}
    (h : AlignedSplit sizes payload.length) (rest : List UInt8) :
    readParts lz4 sizes (encodePayload lz4 payload ++ rest) = some (payload, rest) := by
  induction sizes generalizing payload with
  | nil =>
    have hnil : payload = [] := List.length_eq_zero_iff.mp h.1.symm
    rw [hnil, show encodePayload lz4 [] = [] from encode_nil lz4 true]
    rfl
  | cons size sizes ih =>
    obtain ⟨hsum, haligned⟩ := h
    rw [List.sum_cons] at hsum
    have hsplit : encodePayload lz4 payload
        = encodePayload lz4 (payload.take size) ++ encodePayload lz4 (payload.drop size) := by
      have hdvd : sizes ≠ [] → compressBlockBytes ∣ (payload.take size).length := by
        intro hne
        rw [List.length_take, Nat.min_eq_left (by omega)]
        exact haligned size (by rw [List.dropLast_cons_of_ne_nil hne]; exact List.mem_cons_self)
      rcases eq_or_ne sizes [] with rfl | hne
      · have hall : payload.length ≤ size := by simp only [List.sum_nil] at hsum; omega
        rw [List.take_of_length_le hall, List.drop_eq_nil_of_le hall,
          show encodePayload lz4 [] = [] from encode_nil lz4 true, List.append_nil]
      · conv_lhs => rw [← List.take_append_drop size payload]
        exact encodeBlocks_append compressBlockBytes_pos (hdvd hne)
    have htake : (payload.take size).length = size := by rw [List.length_take]; omega
    have hread := readPayloadPart_encode lz4 true (payload.take size)
      (encodePayload lz4 (payload.drop size) ++ rest)
    rw [htake] at hread
    have htail : AlignedSplit sizes (payload.drop size).length := by
      refine ⟨by rw [List.length_drop]; omega, fun s hs ↦ haligned s ?_⟩
      rw [List.dropLast_cons_of_ne_nil (by rintro rfl; simp at hs)]
      exact List.mem_cons_of_mem _ hs
    rw [readParts, hsplit, List.append_assoc]
    rw [encode, if_pos rfl] at hread
    simp only [hread, Option.bind_eq_bind, Option.bind_some, ih htail, List.take_append_drop]

def messageEncoding (lz4 : Lz4) (entries : List WriteEntry) : List UInt8 :=
  entries.flatMap (WriteEntry.encoding lz4)

/-- The cursors of a fresh write source describe its message, whatever the scratch holds. -/
theorem http2Writev_spec (scratch : List UInt8) (entries : List WriteEntry) :
    CursorsOk scratch (http2Writev scratch entries).cursors ∧
      (http2Writev scratch entries).unsent lz4 = messageEncoding lz4 entries := by
  have hfresh : ∀ c ∈ entries.filterMap entryCursor, c.Fresh := by
    intro c hc
    obtain ⟨entry, -, hentry⟩ := List.mem_filterMap.mp hc
    rw [entryCursor] at hentry
    split_ifs at hentry <;> obtain rfl := Option.some.inj hentry
    · exact Or.inr ⟨rfl, rfl⟩
    · exact Or.inl ⟨entry.bytes, rfl, rfl, rfl⟩
  refine ⟨.of_fresh hfresh, ?_⟩
  rw [SendState.unsent, http2Writev, messageEncoding]
  clear hfresh
  induction entries with
  | nil => rfl
  | cons entry entries ih =>
    rw [List.filterMap_cons, List.flatMap_cons, entryCursor, WriteEntry.encoding]
    split_ifs with hlen hframed hframed
    · rw [List.length_eq_zero_iff.mp hlen, show encodePayload lz4 [] = [] from encode_nil lz4 true]
      exact ih
    · rw [List.length_eq_zero_iff.mp hlen]
      exact ih
    · simp only [List.flatMap_cons, ih]
      rfl
    · simp only [List.flatMap_cons, ih]
      rw [WriteCursor.unsent, show encodePayload lz4 [] = [] from encode_nil lz4 true,
        List.append_nil, Base.read, List.take_length]

theorem receive_encoding {entry : WriteEntry} {sizes : List ℕ}
    (h : sizes.sum = entry.bytes.length)
    (haligned : entry.framed ≠ 0 → AlignedSplit sizes entry.bytes.length) (rest : List UInt8) :
    receive lz4 entry.framed sizes (entry.encoding lz4 ++ rest) = some (entry.bytes, rest) := by
  rw [receive, WriteEntry.encoding]
  split_ifs with hframed
  · exact readParts_encodePayload lz4 (haligned hframed) rest
  · rw [h, rpcRead_append]
    rfl

theorem receiveMessage_encoding {message : List (WriteEntry × List ℕ)}
    (h : ∀ m ∈ message, AlignedSplit m.2 m.1.bytes.length) (rest : List UInt8) :
    receiveMessage lz4 (message.map fun m ↦ (m.1.framed, m.2))
        (messageEncoding lz4 (message.map Prod.fst) ++ rest)
      = some (message.map fun m ↦ m.1.bytes, rest) := by
  induction message with
  | nil => rfl
  | cons m message ih =>
    have hm := h m List.mem_cons_self
    rw [List.map_cons, List.map_cons, receiveMessage, messageEncoding, List.flatMap_cons,
      List.append_assoc, receive_encoding lz4 hm.1 (fun _ ↦ hm)]
    have htail := ih fun m' hm' ↦ h m' (List.mem_cons_of_mem _ hm')
    rw [messageEncoding] at htail
    simp only [Option.bind_eq_bind, Option.bind_some, htail, List.map_cons]

/-- **Round trip of a message.** For every list of plain and framed entries, whatever an earlier
write left in the scratch and whatever lengths the library can send: the callbacks never fail and
what they put on the wire is a prefix of the message's encoding, complete as soon as the end is
flagged, and at the latest after as many frames as it has bytes; no round overwrites an unsent
byte of the scratch; and reading the message back, every framed payload in any block-aligned
parts, returns the entries and consumes exactly their encoding. -/
theorem message_roundTrip (lz4 : Lz4) (scratch : List UInt8)
    (message : List (WriteEntry × List ℕ)) (lengths : List ℕ)
    (hpos : ∀ length ∈ lengths, 0 < length)
    (hsplit : ∀ m ∈ message, AlignedSplit m.2 m.1.bytes.length) :
    ∃ s eof,
      serve lz4 (http2Writev scratch (message.map Prod.fst)) lengths = some (s, eof) ∧
      s.sent <+: messageEncoding lz4 (message.map Prod.fst) ∧
      (eof = true → s.sent = messageEncoding lz4 (message.map Prod.fst)) ∧
      ((messageEncoding lz4 (message.map Prod.fst)).length ≤ lengths.length →
        s.sent = messageEncoding lz4 (message.map Prod.fst)) ∧
      (∀ length, ScratchIntact lz4 s length) ∧
      ∀ rest, s.sent = messageEncoding lz4 (message.map Prod.fst) →
        receiveMessage lz4 (message.map fun m ↦ (m.1.framed, m.2)) (s.sent ++ rest)
          = some (message.map fun m ↦ m.1.bytes, rest) := by
  obtain ⟨hok, hunsent⟩ := http2Writev_spec lz4 scratch (message.map Prod.fst)
  obtain ⟨s, eof, hserve, hok', hsum, hend, hall⟩ := serve_spec lz4 hok hpos
  rw [hunsent] at hsum hall
  have hbalance : s.sent ++ s.unsent lz4 = messageEncoding lz4 (message.map Prod.fst) := hsum
  have hdone : s.unsent lz4 = [] → s.sent = messageEncoding lz4 (message.map Prod.fst) := by
    intro hnil
    rw [← hbalance, hnil, List.append_nil]
  refine ⟨s, eof, hserve, ⟨_, hbalance⟩, fun h ↦ hdone (hend h), fun h ↦ hdone (hall h),
    scratchIntact lz4 hok', fun rest hsent ↦ ?_⟩
  rw [hsent]
  exact receiveMessage_encoding lz4 hsplit rest

/-- A plain and a framed entry, the framed one sent one byte at a time. -/
theorem message_roundTrip_two_entries :
    ∃ s eof,
      serve literalLz4 (http2Writev [] [⟨[1, 2], 0⟩, ⟨[3, 4, 5], 1⟩]) (List.replicate 9 1)
        = some (s, eof) ∧
      receiveMessage literalLz4 [(0, [2]), (1, [3])] (s.sent ++ [6])
        = some ([[1, 2], [3, 4, 5]], [6]) := by
  have hblock : encodePayload literalLz4 [3, 4, 5] = [0, 0, 0, 0, 3, 4, 5] := by
    rw [encodePayload, encodeBlocks, blocks_of_length_le (by simp) (by decide)]
    rfl
  have hcode : messageEncoding literalLz4 [⟨[1, 2], 0⟩, ⟨[3, 4, 5], 1⟩]
      = [1, 2, 0, 0, 0, 0, 3, 4, 5] := by
    simp [messageEncoding, WriteEntry.encoding, hblock]
  obtain ⟨s, eof, hserve, -, -, hall, -, hread⟩ :=
    message_roundTrip literalLz4 [] [(⟨[1, 2], 0⟩, [2]), (⟨[3, 4, 5], 1⟩, [3])]
      (List.replicate 9 1) (by decide) (by simp [AlignedSplit])
  exact ⟨s, eof, hserve, hread [6] (hall (by simp [hcode]))⟩

end Lupine
