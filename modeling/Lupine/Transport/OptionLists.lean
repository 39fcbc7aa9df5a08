import Lupine.Transport.Words

/-!
# Lists of options on the wire

Calls that compile or load code take options: an array of keys and an array of as many values, which
are words. Both lists, that of the JIT compiler and that of a library, go over the wire as the
number of the options, the keys in one piece, and the values one by one.

## An array that is not there

A library may be loaded with keys and no array of values. The writer then sends a word of ones for
each value, and the reader takes a word of ones for a value that is not there. It wants all values
to be there or none, and finds an array where there are no options.

## How reading is stated

A reader reads a list of bytes if it consumes just these and gives the value; it rejects them if it
fails whatever follows. For the options both are shown under opposite conditions, so that the two
together decide when options come through.
-/

namespace Lupine

open Foundation

/-! ## The write queue

Pieces find room as long as the number of entries does not get longer than an `int` can count. -/

/-- The queue of a message: how many entries it has, and the bytes they point to. -/
structure WriteQueue where
  count : ℕ
  bytes : List UInt8
  count_le : count ≤ intMax

/-- `rpc_write`, with enough memory for the queue. -/
def rpcWrite (data : List UInt8) (queue : WriteQueue) : Option WriteQueue :=
  if h : queue.count < intMax then some ⟨queue.count + 1, queue.bytes ++ data, h⟩ else none

/-- `rpc_write` of one piece after the other. -/
def rpcWrites (pieces : List (List UInt8)) (queue : WriteQueue) : Option WriteQueue :=
  pieces.foldlM (fun queue data ↦ rpcWrite data queue) queue

theorem bytes_of_rpcWrites {pieces : List (List UInt8)} {queue queue' : WriteQueue}
    (h : rpcWrites pieces queue = some queue') : queue'.bytes = queue.bytes ++ pieces.flatten := by
  induction pieces generalizing queue with
  | nil =>
    obtain rfl := Option.some.inj h
    exact (List.append_nil _).symm
  | cons data pieces ih =>
    rw [rpcWrites, List.foldlM_cons] at h
    obtain ⟨queue₁, hfirst, hrest⟩ := Option.bind_eq_some_iff.mp h
    rw [rpcWrite] at hfirst
    split_ifs at hfirst
    obtain rfl := Option.some.inj hfirst
    rw [ih hrest, List.append_assoc, List.flatten_cons]

theorem isSome_rpcWrites (pieces : List (List UInt8)) (queue : WriteQueue) :
    (rpcWrites pieces queue).isSome ↔ queue.count + pieces.length ≤ intMax := by
  induction pieces generalizing queue with
  | nil => exact iff_of_true rfl queue.count_le
  | cons data pieces ih =>
    rw [rpcWrites, List.foldlM_cons, rpcWrite, List.length_cons]
    split_ifs with hroom
    · have hrest := ih ⟨queue.count + 1, queue.bytes ++ data, hroom⟩
      rw [rpcWrites] at hrest
      refine Iff.trans hrest ?_
      dsimp only
      omega
    · exact iff_of_false (by simp) (by omega)

/-! ## Keys and values

The size of the array of keys is a number of bytes in an `int`. When it is cut to a negative number
the keys are not read, whatever is inbound. -/

def optionPieces (keys : List UInt32) (raw : List UInt64) : List (List UInt8) :=
  leBytes 4 keys.length ::
    ((if keys.length ≠ 0 then [(keys.map UInt32.toNat).flatMap (leBytes 4)] else []) ++
      raw.map fun value ↦ leBytes 8 value.toNat)

def rpcReadOptionKeys (numOptions : ℕ) : Reader UInt8 (List ℕ) := do
  let bytes ← if numOptions ≠ 0 then rpcReadBytes (numOptions * 4) else pure []
  pure (leWords 4 numOptions bytes)

variable {keys : List UInt32} {raw : List UInt64}

theorem flatten_optionPieces (keys : List UInt32) (raw : List UInt64) :
    (optionPieces keys raw).flatten = leBytes 4 keys.length ++
      ((keys.map UInt32.toNat).flatMap (leBytes 4) ++
        raw.flatMap fun value ↦ leBytes 8 value.toNat) := by
  rw [optionPieces, List.flatten_cons, List.flatten_append]
  rcases eq_or_ne keys [] with rfl | hne
  · rfl
  · rw [if_pos (mt List.length_eq_zero_iff.mp hne), List.flatten_singleton,
      List.flatMap_def (l := raw)]

theorem length_optionPieces (keys : List UInt32) (raw : List UInt64) :
    (optionPieces keys raw).length = 1 + min 1 keys.length + raw.length := by
  rw [optionPieces, List.length_cons, List.length_append, List.length_map]
  split_ifs with hne
  · rw [List.length_singleton]
    omega
  · rw [List.length_nil]
    omega

theorem reads_rpcReadOptionKeys (h : 0 ≤ staticCastInt (keys.length * 4)) :
    (rpcReadOptionKeys keys.length).Reads ((keys.map UInt32.toNat).flatMap (leBytes 4))
      (keys.map UInt32.toNat) := by
  have hsize : ((keys.map UInt32.toNat).flatMap (leBytes 4)).length = keys.length * 4 := by
    rw [length_flatMap_leBytes, List.length_map]
  have hwords : leWords 4 keys.length ((keys.map UInt32.toNat).flatMap (leBytes 4)) =
      keys.map UInt32.toNat := by
    have hlt : ∀ n ∈ keys.map UInt32.toNat, n < 256 ^ 4 := by
      intro n hn
      obtain ⟨key, -, rfl⟩ := List.mem_map.mp hn
      exact key.toNat_lt
    have hwords := leWords_flatMap_leBytes hlt
    rwa [List.length_map] at hwords
  rcases eq_or_ne keys [] with rfl | hne
  · exact Reader.reads_pure []
  · rw [rpcReadOptionKeys, if_pos (mt List.length_eq_zero_iff.mp hne)]
    have hread := (reads_rpcReadBytes hsize h).bind_pure (g := leWords 4 keys.length)
    rwa [hwords] at hread

theorem rejects_rpcReadOptionKeys {numOptions : ℕ} (h : staticCastInt (numOptions * 4) < 0)
    (written : List UInt8) : (rpcReadOptionKeys numOptions).Rejects written := by
  intro rest
  have hne : numOptions ≠ 0 := by
    rintro rfl
    exact absurd h (by decide)
  rw [rpcReadOptionKeys, if_pos hne]
  exact Reader.run_bind_of_none (run_rpcReadBytes_of_negative h _)

/-! ## The options of a library

The values of the wire are words. One of them stands for the array that is not there, and the
reader tells by the first value whether there is one. -/

/-- `LUPINE_RPC_NULL_OPTION_VALUES`. -/
def nullOptionValues : UInt64 := 0xffffffffffffffff

/-- What `cuLibraryLoadData` is given: as many values as there are keys, or no array of values. -/
structure LibraryOptions where
  options : List UInt32
  optionValues : Option (List UInt64)
  length_options : options.length < 2 ^ 32
  length_optionValues : ∀ values ∈ optionValues, values.length = options.length

def LibraryOptions.rawValues (given : LibraryOptions) : List UInt64 :=
  match given.optionValues with
  | none => List.replicate given.options.length nullOptionValues
  | some values => values

/-- `rpc_write_library_options`. -/
def rpcWriteLibraryOptions (given : LibraryOptions) (queue : WriteQueue) : Option WriteQueue :=
  rpcWrites (optionPieces given.options given.rawValues) queue

/-- The loop over the values. A value that is not the first has to agree with those before it. -/
def readLibraryValues : ℕ → Bool → Bool → Reader UInt8 (List ℕ × Bool)
  | 0, _, hasOptionValues => pure ([], hasOptionValues)
  | remaining + 1, isFirst, hasOptionValues => do
    let value ← rpcReadWord 8
    let valueIsPresent : Bool := decide (value ≠ nullOptionValues.toNat)
    if isFirst = false ∧ hasOptionValues ≠ valueIsPresent then failure
    else do
      let read ← readLibraryValues remaining false valueIsPresent
      pure (value :: read.1, read.2)

/-- What the server has read: the keys, the words, and whether there is an array of values. -/
structure ReadLibraryOptions where
  options : List ℕ
  rawValues : List ℕ
  hasOptionValues : Bool
  deriving DecidableEq, Repr

/-- `rpc_read_library_options`. -/
def rpcReadLibraryOptions : Reader UInt8 ReadLibraryOptions := do
  let numOptions ← rpcReadWord 4
  let options ← rpcReadOptionKeys numOptions
  -- without a value to tell, the array is said to be there
  let read ← readLibraryValues numOptions true (decide (numOptions = 0))
  pure ⟨options, read.1, read.2⟩

/-- If options are sent at all, they are read to the end, and to what they are. -/
def LibraryOptionsRight (given : LibraryOptions) (queue : WriteQueue) : Prop :=
  ∀ queue', rpcWriteLibraryOptions given queue = some queue' →
    ∃ written read, queue'.bytes = queue.bytes ++ written ∧
      rpcReadLibraryOptions.Reads written read ∧
      read.options = given.options.map UInt32.toNat ∧
      read.hasOptionValues = given.optionValues.isSome ∧
      ∀ values ∈ given.optionValues, read.rawValues = values.map UInt64.toNat

/-! ### The loop

A value that is not the first has to agree with those before it about whether there is an array. -/

section Values

variable {isFirst hasOptionValues : Bool}

theorem toNat_ne_nullOptionValues (value : UInt64) :
    value.toNat ≠ nullOptionValues.toNat ↔ value ≠ nullOptionValues :=
  not_congr UInt64.toNat_inj

def valueBytes (raw : List UInt64) : List UInt8 := raw.flatMap fun value ↦ leBytes 8 value.toNat

theorem reads_readLibraryValues (h : ∀ value ∈ raw, decide (value ≠ nullOptionValues) =
      hasOptionValues) :
    (readLibraryValues raw.length isFirst hasOptionValues).Reads (valueBytes raw)
      (raw.map UInt64.toNat, hasOptionValues) := by
  induction raw generalizing isFirst with
  | nil => exact Reader.reads_pure _
  | cons value raw ih =>
    obtain ⟨hvalue, hraw⟩ := List.forall_mem_cons.mp h
    have hpresent : decide (value.toNat ≠ nullOptionValues.toNat) = hasOptionValues := by
      rw [← hvalue, decide_eq_decide]
      exact toNat_ne_nullOptionValues value
    refine (reads_rpcReadWord (by decide) value.toNat_lt).bind ?_
    dsimp only
    rw [hpresent, if_neg fun hne ↦ hne.2 rfl]
    exact (ih hraw).bind_pure (g := fun read ↦ (value.toNat :: read.1, read.2))

theorem rejects_readLibraryValues (h : ∃ value ∈ raw, decide (value ≠ nullOptionValues) ≠
      hasOptionValues) :
    (readLibraryValues raw.length false hasOptionValues).Rejects (valueBytes raw) := by
  induction raw generalizing hasOptionValues with
  | nil => exact absurd h (by simp)
  | cons value raw ih =>
    have hpresent : decide (value.toNat ≠ nullOptionValues.toNat) =
        decide (value ≠ nullOptionValues) := by
      rw [decide_eq_decide]
      exact toNat_ne_nullOptionValues value
    refine (reads_rpcReadWord (by decide) value.toNat_lt).bind_rejects ?_
    dsimp only
    rw [hpresent]
    split_ifs with hne
    · exact Reader.rejects_failure
    · have hsame : hasOptionValues = decide (value ≠ nullOptionValues) := by
        by_contra hother
        exact hne ⟨rfl, hother⟩
      obtain ⟨other, hmem, hother⟩ := h
      rcases List.mem_cons.mp hmem with rfl | hmem
      · exact absurd hsame.symm hother
      · exact (ih ⟨other, hmem, hsame ▸ hother⟩).bind_left

theorem readLibraryValues_first (remaining : ℕ) (hasOptionValues hasOptionValues' : Bool) :
    readLibraryValues (remaining + 1) true hasOptionValues =
      readLibraryValues (remaining + 1) true hasOptionValues' := by
  simp only [readLibraryValues, Bool.true_eq_false, false_and, if_false]

/-- **The values** are read when all of them are words of the array or none is. -/
theorem reads_or_rejects_libraryValues (hne : raw ≠ []) (hasOptionValues : Bool) :
    (∃ present, (∀ value ∈ raw, decide (value ≠ nullOptionValues) = present) ∧
        (readLibraryValues raw.length true hasOptionValues).Reads (valueBytes raw)
          (raw.map UInt64.toNat, present)) ∨
      (readLibraryValues raw.length true hasOptionValues).Rejects (valueBytes raw) := by
  obtain ⟨value, raw, rfl⟩ := List.exists_cons_of_ne_nil hne
  obtain ⟨present, hpresent⟩ : ∃ present, decide (value ≠ nullOptionValues) = present := ⟨_, rfl⟩
  rw [List.length_cons, readLibraryValues_first _ _ present]
  by_cases hall : ∀ other ∈ raw, decide (other ≠ nullOptionValues) = present
  · have hboth : ∀ other ∈ value :: raw, decide (other ≠ nullOptionValues) = present :=
      List.forall_mem_cons.mpr ⟨hpresent, hall⟩
    exact Or.inl ⟨present, hboth, reads_readLibraryValues hboth⟩
  · push Not at hall
    have htoNat : decide (value.toNat ≠ nullOptionValues.toNat) = present := by
      rw [← hpresent, decide_eq_decide]
      exact toNat_ne_nullOptionValues value
    refine Or.inr ((reads_rpcReadWord (by decide) value.toNat_lt).bind_rejects ?_)
    dsimp only
    rw [htoNat, if_neg fun hne ↦ hne.2 rfl]
    exact (rejects_readLibraryValues hall).bind_left

end Values

/-! ### The whole of it

Options tell whether there is an array when there is a value to tell it by and no value of an array
is the word for no array. Without any option the reader finds an array. -/

section Library

variable {given : LibraryOptions} {queue : WriteQueue}

theorem length_rawValues (given : LibraryOptions) :
    given.rawValues.length = given.options.length := by
  rw [LibraryOptions.rawValues]
  split
  · exact List.length_replicate
  · exact given.length_optionValues _ ‹_›

/-- The options tell whether there is an array: there is a value to tell it by, and no value of an
array is the word for no array. -/
def LibraryOptions.TellsArray (given : LibraryOptions) : Prop :=
  (given.optionValues = none → given.options ≠ []) ∧
    ∀ values ∈ given.optionValues, nullOptionValues ∉ values

theorem bytes_of_rpcWriteLibraryOptions {queue' : WriteQueue} {written : List UInt8}
    (h : rpcWriteLibraryOptions given queue = some queue')
    (hwritten : queue'.bytes = queue.bytes ++ written) :
    written = leBytes 4 given.options.length ++
      ((given.options.map UInt32.toNat).flatMap (leBytes 4) ++ valueBytes given.rawValues) := by
  rw [bytes_of_rpcWrites h, flatten_optionPieces] at hwritten
  exact (List.append_cancel_left hwritten).symm

theorem isSome_rpcWriteLibraryOptions (given : LibraryOptions) (queue : WriteQueue) :
    (rpcWriteLibraryOptions given queue).isSome ↔
      queue.count + (1 + min 1 given.options.length + given.options.length) ≤ intMax := by
  rw [rpcWriteLibraryOptions, isSome_rpcWrites, length_optionPieces, length_rawValues]

theorem reads_rpcReadLibraryOptions {hasOptionValues : Bool}
    (h : 0 ≤ staticCastInt (given.options.length * 4))
    (hvalues : (readLibraryValues given.options.length true
      (decide (given.options.length = 0))).Reads (valueBytes given.rawValues)
        (given.rawValues.map UInt64.toNat, hasOptionValues)) :
    rpcReadLibraryOptions.Reads (leBytes 4 given.options.length ++
      ((given.options.map UInt32.toNat).flatMap (leBytes 4) ++ valueBytes given.rawValues))
      ⟨given.options.map UInt32.toNat, given.rawValues.map UInt64.toNat, hasOptionValues⟩ :=
  (reads_rpcReadWord (by decide) given.length_options).bind
    ((reads_rpcReadOptionKeys h).bind hvalues.bind_pure)

theorem rejects_rpcReadLibraryOptions (h : 0 ≤ staticCastInt (given.options.length * 4))
    (hvalues : (readLibraryValues given.options.length true
      (decide (given.options.length = 0))).Rejects (valueBytes given.rawValues)) :
    rpcReadLibraryOptions.Rejects (leBytes 4 given.options.length ++
      ((given.options.map UInt32.toNat).flatMap (leBytes 4) ++ valueBytes given.rawValues)) :=
  (reads_rpcReadWord (by decide) given.length_options).bind_rejects
    ((reads_rpcReadOptionKeys h).bind_rejects hvalues.bind_left)

theorem rejects_of_negative_keys (h : staticCastInt (given.options.length * 4) < 0) :
    rpcReadLibraryOptions.Rejects (leBytes 4 given.options.length ++
      ((given.options.map UInt32.toNat).flatMap (leBytes 4) ++ valueBytes given.rawValues)) :=
  (reads_rpcReadWord (by decide) given.length_options).bind_rejects
    (rejects_rpcReadOptionKeys h _).bind_left

theorem reads_of_tellsArray (h : 0 ≤ staticCastInt (given.options.length * 4))
    (htells : given.TellsArray) :
    rpcReadLibraryOptions.Reads (leBytes 4 given.options.length ++
      ((given.options.map UInt32.toNat).flatMap (leBytes 4) ++ valueBytes given.rawValues))
      ⟨given.options.map UInt32.toNat, given.rawValues.map UInt64.toNat,
        given.optionValues.isSome⟩ := by
  refine reads_rpcReadLibraryOptions h ?_
  rcases eq_or_ne given.rawValues [] with hempty | hne
  · have hlength : given.options.length = 0 := by rw [← length_rawValues, hempty, List.length_nil]
    have hsome : given.optionValues.isSome = true := by
      by_contra hnone
      exact htells.1 (Option.not_isSome_iff_eq_none.mp hnone) (List.length_eq_zero_iff.mp hlength)
    rw [hlength, hempty, hsome]
    exact Reader.reads_pure _
  · have hall : ∀ value ∈ given.rawValues,
        decide (value ≠ nullOptionValues) = given.optionValues.isSome := by
      intro value hvalue
      rw [LibraryOptions.rawValues] at hvalue
      split at hvalue
      · next hnone =>
        rw [hnone, List.eq_of_mem_replicate hvalue]
        rfl
      · next values hvalues =>
        rw [hvalues, Option.isSome_some, decide_eq_true_eq]
        exact fun heq ↦ htells.2 values hvalues (heq ▸ hvalue)
    rw [← length_rawValues given]
    obtain ⟨value, raw, hcons⟩ := List.exists_cons_of_ne_nil hne
    rw [hcons] at hall ⊢
    rw [List.length_cons, readLibraryValues_first _ _ given.optionValues.isSome]
    exact reads_readLibraryValues hall

/-- What is read right of options does tell. -/
theorem tellsArray_of_reads {read : ReadLibraryOptions}
    (h : 0 ≤ staticCastInt (given.options.length * 4))
    (hread : rpcReadLibraryOptions.Reads (leBytes 4 given.options.length ++
      ((given.options.map UInt32.toNat).flatMap (leBytes 4) ++ valueBytes given.rawValues)) read)
    (hright : read.hasOptionValues = given.optionValues.isSome) : given.TellsArray := by
  refine ⟨fun hnone hempty ↦ ?_, fun values hvalues hmem ↦ ?_⟩
  · -- nothing to tell by: the array is said to be there
    have hraw : given.rawValues = [] :=
      List.length_eq_zero_iff.mp (by rw [length_rawValues, hempty, List.length_nil])
    have hthere : (readLibraryValues given.options.length true
        (decide (given.options.length = 0))).Reads (valueBytes given.rawValues)
        (given.rawValues.map UInt64.toNat, true) := by
      rw [hraw, hempty]
      exact Reader.reads_pure _
    rw [hread.unique (reads_rpcReadLibraryOptions h hthere), hnone] at hright
    exact Bool.noConfusion hright
  · have hraw : given.rawValues = values := by rw [LibraryOptions.rawValues, hvalues]
    have hvalue : nullOptionValues ∈ given.rawValues := hraw ▸ hmem
    rcases reads_or_rejects_libraryValues (List.ne_nil_of_mem hvalue)
      (decide (given.options.length = 0)) with ⟨present, hall, hreads⟩ | hrejects
    · rw [length_rawValues] at hreads
      have hthere := hread.unique (reads_rpcReadLibraryOptions h hreads)
      rw [hthere, hvalues, ← hall _ hvalue] at hright
      exact Bool.noConfusion hright
    · rw [length_rawValues] at hrejects
      exact (rejects_rpcReadLibraryOptions h hrejects).not_reads hread

/-- **Library options** come through exactly when they find no room or when the size of the keys is
not cut to a negative number and the values tell whether there is an array. -/
theorem libraryOptionsRight_iff (given : LibraryOptions) (queue : WriteQueue) :
    LibraryOptionsRight given queue ↔
      intMax < queue.count + (1 + min 1 given.options.length + given.options.length) ∨
        (0 ≤ staticCastInt (given.options.length * 4) ∧ given.TellsArray) := by
  have hroom := isSome_rpcWriteLibraryOptions given queue
  constructor
  · intro hright
    rw [or_iff_not_imp_left, not_lt]
    intro hle
    obtain ⟨queue', hqueue⟩ := Option.isSome_iff_exists.mp (hroom.mpr hle)
    obtain ⟨written, read, hwritten, hread, -, hhas, -⟩ := hright queue' hqueue
    obtain rfl := bytes_of_rpcWriteLibraryOptions hqueue hwritten
    have hpos : 0 ≤ staticCastInt (given.options.length * 4) := by
      by_contra hneg
      exact (rejects_of_negative_keys (Int.not_le.mp hneg)).not_reads hread
    exact ⟨hpos, tellsArray_of_reads hpos hread hhas⟩
  · rintro (hfull | ⟨hpos, htells⟩) queue' hqueue
    · have hle := hroom.mp (Option.isSome_iff_exists.mpr ⟨queue', hqueue⟩)
      exact absurd hle hfull.not_ge
    · refine ⟨_, _, ?_, reads_of_tellsArray hpos htells, rfl, rfl, fun values hvalues ↦ ?_⟩
      · rw [bytes_of_rpcWrites hqueue, flatten_optionPieces]
        rfl
      · rw [LibraryOptions.rawValues, hvalues]

/-- A library that is loaded with one option, whose value is the word for no array. -/
def nullWordOption : LibraryOptions where
  options := [1]
  optionValues := some [nullOptionValues]
  length_options := by decide
  length_optionValues := by simp

/-- The value is sent, and the server finds no array. -/
theorem nullWordOption_read_as_absent : ¬LibraryOptionsRight nullWordOption ⟨3, [], by decide⟩ := by
  intro hright
  have hqueue : rpcWriteLibraryOptions nullWordOption ⟨3, [], by decide⟩ = some _ := rfl
  obtain ⟨written, read, hwritten, hread, -, hhas, -⟩ := hright _ hqueue
  obtain rfl := bytes_of_rpcWriteLibraryOptions hqueue hwritten
  have hdecoded : rpcReadLibraryOptions.run (leBytes 4 1 ++ ([1].flatMap (leBytes 4) ++
      valueBytes [nullOptionValues])) = some (⟨[1], [nullOptionValues.toNat], false⟩, []) := by
    decide +kernel
  obtain ⟨rfl, -⟩ := Prod.mk.inj (Option.some.inj (hdecoded.symm.trans hread.run))
  exact Bool.noConfusion hhas

end Library

end Lupine
