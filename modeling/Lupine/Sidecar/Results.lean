import Lupine.Sidecar.Arguments

/-!
# The results of an operator

The worker writes the result of an operator as JSON, with a tag around every value. A tensor of the
worker is stored under a new handle; a tensor on the CPU follows the response. `json.dumps` writes
the keys of a dictionary as strings, and does not take every scalar. The client reads the tags, and
wraps a handle as a `SidecarTensor`.

## The table of the worker

Handles are counted, and an entry that was released is not used again. The table carries the list of
the handles that were ever given out, which the worker does not keep.

## What is seen of a result

The client's `SidecarTensor`s stand for tensors of the worker, so the result that it returns is
compared with the worker's after each of them is replaced by the tensor that its handle denotes. A
result arrives if it has no size with a dimension, which the client cannot read, no key that
`json.dumps` changes or refuses, and no scalar that it does not print.
-/

open Foundation

namespace Lupine

/-- `objects` and `next_handle`, with all handles that were ever given out. -/
structure WorkerTable (O : Type) where
  objects : ℕ → Option O
  nextHandle : ℕ
  issued : List ℕ
  nodup_issued : issued.Nodup
  lt_nextHandle : ∀ h ∈ issued, h < nextHandle
  mem_issued : ∀ h o, objects h = some o → h ∈ issued

namespace WorkerTable

variable {O : Type}

/-- The table of a worker that was just started. -/
def empty : WorkerTable O :=
  ⟨fun _ ↦ none, 1, [], List.nodup_nil, fun _ h ↦ absurd h List.not_mem_nil, fun _ _ ↦ nofun⟩

def store (table : WorkerTable O) (o : O) : WorkerTable O where
  objects := Function.update table.objects table.nextHandle (some o)
  nextHandle := table.nextHandle + 1
  issued := table.issued ++ [table.nextHandle]
  nodup_issued := by
    have hone : [table.nextHandle].Nodup := List.nodup_cons.mpr ⟨List.not_mem_nil, List.nodup_nil⟩
    refine List.nodup_append.mpr ⟨table.nodup_issued, hone, fun h hmem h' hnew ↦ ?_⟩
    rw [List.mem_singleton.mp hnew]
    exact (table.lt_nextHandle h hmem).ne
  lt_nextHandle h hmem := by
    rcases List.mem_append.mp hmem with hmem | hmem
    · exact Nat.lt_succ_of_lt (table.lt_nextHandle h hmem)
    · rw [List.mem_singleton.mp hmem]
      exact Nat.lt_succ_self _
  mem_issued h x hx := by
    by_cases hnew : h = table.nextHandle
    · exact List.mem_append_right _ (List.mem_singleton.mpr hnew)
    · rw [Function.update_of_ne hnew] at hx
      exact List.mem_append_left _ (table.mem_issued h x hx)

end WorkerTable

/-- A leaf in the result of an operator: a tensor, or a value that JSON has or has not. -/
inductive OperatorLeaf {A : Type} (names : TorchNames A) (E : Type) where
  | tensor (t : TorchTensor names E)
  | scalar (s : JsonScalar)
  | other

/-- The key of a dictionary: a string, a scalar that `json.dumps` prints as one, or neither. -/
inductive PyKey where
  | str (s : String)
  | printed (text : String)
  | other
  deriving DecidableEq

/-- A leaf of what `json.dumps` is given. -/
inductive PyScalar where
  | json (s : JsonScalar)
  | other

inductive ClientLeaf {A : Type} (names : TorchNames A) (E : Type) where
  | sidecar (handle : ℕ) (shape : List ℕ) (dtype : A)
  | tensor (t : TorchTensor names E)
  | scalar (s : JsonScalar)

variable {A E : Type} (names : TorchNames A)

/-- What the encoding of a result changes: the table, and the tensors that follow the response. -/
structure WorkerStore (E : Type) where
  table : WorkerTable (TorchTensor names E)
  outputs : List (TorchTensor names E)

variable {names}

/-- Tensors have been added: outputs at the end, and entries under new handles. -/
instance : Preorder (WorkerStore names E) where
  le s t := s.outputs <+: t.outputs ∧ ∃ new, t.table.issued = s.table.issued ++ new ∧
    (∀ h ∈ new, t.table.objects h ≠ none) ∧ ∀ h, h ∉ new → t.table.objects h = s.table.objects h
  le_refl s := ⟨List.prefix_refl s.outputs, [], (List.append_nil _).symm,
    fun _ h ↦ absurd h List.not_mem_nil, fun _ _ ↦ rfl⟩
  le_trans s t u := by
    rintro ⟨hst, new, hnew, hthere, hsame⟩ ⟨htu, new', hnew', hthere', hsame'⟩
    refine ⟨hst.trans htu, new ++ new', ?_, fun h hmem ↦ ?_, fun h hnot ↦ ?_⟩
    · rw [hnew', hnew, List.append_assoc]
    · by_cases h' : h ∈ new'
      · exact hthere' h h'
      · rw [hsame' h h']
        exact hthere h ((List.mem_append.mp hmem).resolve_right h')
    · rw [List.mem_append, not_or] at hnot
      exact (hsame' h hnot.2).trans (hsame h hnot.1)

theorem WorkerStore.le_output (st : WorkerStore names E) (t : TorchTensor names E) :
    st ≤ { st with outputs := st.outputs ++ [t] } :=
  ⟨List.prefix_append st.outputs [t], [], (List.append_nil _).symm,
    fun _ h ↦ absurd h List.not_mem_nil, fun _ _ ↦ rfl⟩

theorem WorkerStore.le_store (st : WorkerStore names E) (t : TorchTensor names E) :
    st ≤ { st with table := st.table.store t } := by
  refine ⟨List.prefix_refl st.outputs, [st.table.nextHandle], rfl, fun h hmem ↦ ?_, fun h hnot ↦ ?_⟩
  · rw [List.mem_singleton.mp hmem]
    exact fun hnone ↦ nomatch (Function.update_self _ _ _).symm.trans hnone
  · exact Function.update_of_ne (mt List.mem_singleton.mpr hnot) _ _

/-- An entry whose handle was given out before stays. -/
theorem WorkerStore.objects_of_le {s t : WorkerStore names E} (hle : s ≤ t) {h : ℕ}
    (hissued : h ∈ s.table.issued) : t.table.objects h = s.table.objects h := by
  obtain ⟨-, new, hnew, -, hsame⟩ := hle
  refine hsame h fun hmem ↦ ?_
  have hnodup := t.table.nodup_issued
  rw [hnew] at hnodup
  exact (List.nodup_append.mp hnodup).2.2 h hissued h hmem rfl

namespace SidecarResults

/-! ## The worker

A tensor is stored when its leaf is met. The numbers of a size are given as they are. -/

/-- An object with a type and one more field. -/
def typed (kind field : String) (value : Json PyKey PyScalar) : Json PyKey PyScalar :=
  .object [(.str "type", .scalar (.json (.str kind))), (.str field, value)]

def number (n : ℕ) : Json PyKey PyScalar := .scalar (.json (.int n))

/-- `store`. -/
def store (t : TorchTensor names E) :
    Deposit PyFailure (WorkerStore names E) (Json PyKey PyScalar) := do
  let st ← get
  if t.device = "cpu" then
    if t.isPlainCpu then
      set { st with outputs := st.outputs ++ [t] }
      return typed "tensor_data" "stream" (number st.outputs.length)
    else throw .exception
  else if t.device = "cuda" then
    set { st with table := st.table.store t }
    return .object [(.str "type", .scalar (.json (.str "tensor"))),
      (.str "handle", number st.table.nextHandle), (.str "shape", .array (t.shape.map number)),
      (.str "dtype", .scalar (.json (.str t.dtype.key)))]
  else throw .exception

/-- `encode`, of a leaf. -/
def encodeLeaf : OperatorLeaf names E →
    Deposit PyFailure (WorkerStore names E) (Json PyKey PyScalar)
  | .tensor t => store t
  | .scalar s => return typed "value" "value" (.scalar (.json s))
  | .other => return typed "value" "value" (.scalar .other)

mutual

/-- `encode`. The numbers of a size are given as they are. -/
def encode : ValueTree PyKey (OperatorLeaf names E) →
    Deposit PyFailure (WorkerStore names E) (Json PyKey PyScalar)
  | .leaf x => encodeLeaf x
  | .size dims => return typed "tuple" "items" (.array (dims.map number))
  | .tuple items => do
    let encoded ← encodeItems items
    return typed "tuple" "items" (.array encoded)
  | .list items => do
    let encoded ← encodeItems items
    return typed "list" "items" (.array encoded)
  | .dict entries => do
    let encoded ← encodeEntries entries
    return typed "dict" "items" (.object encoded)

def encodeItems : List (ValueTree PyKey (OperatorLeaf names E)) →
    Deposit PyFailure (WorkerStore names E) (List (Json PyKey PyScalar))
  | [] => return []
  | item :: items => do
    let first ← encode item
    let rest ← encodeItems items
    return first :: rest

def encodeEntries : List (PyKey × ValueTree PyKey (OperatorLeaf names E)) →
    Deposit PyFailure (WorkerStore names E) (List (PyKey × Json PyKey PyScalar))
  | [] => return []
  | (key, item) :: entries => do
    let first ← encode item
    let rest ← encodeEntries entries
    return (key, first) :: rest

end

/-! ## JSON

Printing and reading is one function here, as only what comes of both matters. -/

/-- What `json.dumps` writes for a key. -/
def dumpsKey : PyKey → Option String
  | .str s => some s
  | .printed text => some text
  | .other => none

mutual

/-- `json.dumps`, and `json.loads` of what it writes. Of two fields of one name the later counts;
the keys of a dictionary are distinct, so there are two only where a key is no string. -/
def dumps : Json PyKey PyScalar → Option (Json String JsonScalar)
  | .scalar (.json s) => some (.scalar s)
  | .scalar .other => none
  | .array items => (dumpsItems items).map .array
  | .object fields => (dumpsFields fields).map .object

def dumpsItems : List (Json PyKey PyScalar) → Option (List (Json String JsonScalar))
  | [] => some []
  | item :: items => do
    let first ← dumps item
    let rest ← dumpsItems items
    return first :: rest

def dumpsFields : List (PyKey × Json PyKey PyScalar) →
    Option (List (String × Json String JsonScalar))
  | [] => some []
  | (key, item) :: fields => do
    let name ← dumpsKey key
    let first ← dumps item
    let rest ← dumpsFields fields
    return (name, first) :: rest

end

/-! ## The client

A value is read by its type, and a value without a type is an error. -/

mutual

def loaded : Json String JsonScalar → ValueTree PyKey (ClientLeaf names E)
  | .scalar s => .leaf (.scalar s)
  | .array items => .list (loadedItems items)
  | .object fields => .dict (loadedFields fields)

def loadedItems : List (Json String JsonScalar) → List (ValueTree PyKey (ClientLeaf names E))
  | [] => []
  | item :: items => loaded item :: loadedItems items

def loadedFields : List (String × Json String JsonScalar) →
    List (PyKey × ValueTree PyKey (ClientLeaf names E))
  | [] => []
  | (key, item) :: fields => (.str key, loaded item) :: loadedFields fields

end

/-- A dimension or a handle in a response. -/
def asNat : Json String JsonScalar → Option ℕ
  | .scalar (.int (.ofNat n)) => some n
  | _ => none

/-- `_wrap`, of what the worker writes for a tensor that it has stored. -/
def wrap (names : TorchNames A) (fields : List (String × Json String JsonScalar)) :
    Option (ClientLeaf names E) := do
  let handle ← (fields.lookup "handle").bind asNat
  let .array dims ← fields.lookup "shape" | none
  let shape ← dims.mapM asNat
  let .scalar (.str dtype) ← fields.lookup "dtype" | none
  return .sidecar handle shape (← names.attr dtype)

section Decode

variable (names) (tensors : List (TorchTensor names E))

/-- The tensor of a stream; there is none at `-1`. -/
def streamTensor (fields : List (String × Json String JsonScalar)) :
    Option (ClientLeaf names E) :=
  match fields.lookup "stream" with
  | some (.scalar s) => (s.toInt.bind (lookupAt (tensors[·]?))).map .tensor
  | _ => none

mutual

/-- `_decode`. -/
def decode : Json String JsonScalar → Option (ValueTree PyKey (ClientLeaf names E))
  | .object fields =>
    match fields.lookup "type" with
    | some (.scalar (.str "tensor")) => (wrap names fields).map .leaf
    | some (.scalar (.str "tensor_data")) => (streamTensor names tensors fields).map .leaf
    | some (.scalar (.str "tuple")) => (decodeSequence fields).map .tuple
    | some (.scalar (.str "list")) => (decodeSequence fields).map .list
    | some (.scalar (.str "dict")) => (decodeMapping fields).map .dict
    | some (.scalar (.str "value")) => (fields.lookup "value").map loaded
    | _ => none
  | _ => none

/-- The values in `value["items"]`, decoded in a loop over a sequence. No value of an object or of a
string is decoded, for a key and a character have no type. -/
def decodeSequence : List (String × Json String JsonScalar) →
    Option (List (ValueTree PyKey (ClientLeaf names E)))
  | [] => none
  | (key, value) :: fields =>
    if key = "items" then
      match value with
      | .array items => decodeItems items
      | .object [] => some []
      | .scalar (.str "") => some []
      | _ => none
    else decodeSequence fields

/-- The values in `value["items"].items()`. -/
def decodeMapping : List (String × Json String JsonScalar) →
    Option (List (PyKey × ValueTree PyKey (ClientLeaf names E)))
  | [] => none
  | (key, value) :: fields =>
    if key = "items" then
      match value with
      | .object entries => decodeEntries entries
      | _ => none
    else decodeMapping fields

def decodeItems : List (Json String JsonScalar) →
    Option (List (ValueTree PyKey (ClientLeaf names E)))
  | [] => some []
  | item :: items => do
    let first ← decode item
    let rest ← decodeItems items
    return first :: rest

def decodeEntries : List (String × Json String JsonScalar) →
    Option (List (PyKey × ValueTree PyKey (ClientLeaf names E)))
  | [] => some []
  | (key, item) :: entries => do
    let first ← decode item
    let rest ← decodeEntries entries
    return (.str key, first) :: rest

end

end Decode

/-! ## What the client is to get

A size comes as a tuple in any case, so the sizes of a result are compared as tuples. -/

section Seen

variable [DecidableEq A]

/-- What a leaf at the client stands for: the tensor of the worker that has the handle. -/
def standsFor (objects : ℕ → Option (TorchTensor names E)) :
    ClientLeaf names E → Option (OperatorLeaf names E)
  | .sidecar handle shape dtype => (objects handle).bind fun t ↦
      if t.shape = shape ∧ t.dtype.value = dtype then some (.tensor t) else none
  | .tensor t => some (.tensor t)
  | .scalar s => some (.scalar s)

/-- A response as the client sees it, with each `SidecarTensor` as the tensor it stands for. -/
def seen (st : WorkerStore names E) (reply : Json PyKey PyScalar) :
    Option (ValueTree PyKey (OperatorLeaf names E)) :=
  ((dumps reply).bind (decode names st.outputs)).bind
    (ValueTree.traverse (standsFor st.table.objects))

end Seen

def returned (result : ValueTree PyKey (OperatorLeaf names E)) :
    ValueTree PyKey (OperatorLeaf names E) := result.replace (fun n ↦ .scalar (.int n)) id

/-- Sizes are empty, keys are strings, and there is no scalar that JSON does not have. -/
def Deliverable (result : ValueTree PyKey (OperatorLeaf names E)) : Prop :=
  result.Each (· = []) (fun key ↦ ∃ s, key = .str s) (· ≠ .other)

/-! ## Loops

The recursion over items and entries is a loop over a list. -/

theorem encodeItems_eq (items : List (ValueTree PyKey (OperatorLeaf names E))) :
    encodeItems items = items.mapM encode := by
  induction items with
  | nil => rfl
  | cons item items ih => rw [encodeItems, ih, List.mapM_cons]

def encodeEntry (e : PyKey × ValueTree PyKey (OperatorLeaf names E)) :
    Deposit PyFailure (WorkerStore names E) (PyKey × Json PyKey PyScalar) := do
  let item ← encode e.2
  return (e.1, item)

theorem encodeEntries_eq (entries : List (PyKey × ValueTree PyKey (OperatorLeaf names E))) :
    encodeEntries entries = entries.mapM encodeEntry := by
  induction entries with
  | nil => rfl
  | cons e entries ih =>
    rw [encodeEntries, ih, List.mapM_cons, encodeEntry, bind_assoc]
    simp only [pure_bind]

theorem dumpsItems_eq (items : List (Json PyKey PyScalar)) :
    dumpsItems items = items.mapM dumps := by
  induction items with
  | nil => rfl
  | cons item items ih => rw [dumpsItems, ih, List.mapM_cons]

def dumpsField (field : PyKey × Json PyKey PyScalar) : Option (String × Json String JsonScalar) :=
  (dumpsKey field.1).bind fun name ↦ (dumps field.2).map (name, ·)

theorem dumpsFields_eq (fields : List (PyKey × Json PyKey PyScalar)) :
    dumpsFields fields = fields.mapM dumpsField := by
  induction fields with
  | nil => rfl
  | cons field fields ih =>
    rw [dumpsFields, ih, List.mapM_cons, dumpsField]
    cases dumpsKey field.1 with
    | none => rfl
    | some name => cases dumps field.2 <;> rfl

variable {tensors : List (TorchTensor names E)}

theorem decodeItems_eq (items : List (Json String JsonScalar)) :
    decodeItems names tensors items = items.mapM (decode names tensors) := by
  induction items with
  | nil => rfl
  | cons item items ih => rw [decodeItems, ih, List.mapM_cons]

theorem decodeEntries_eq (entries : List (String × Json String JsonScalar)) :
    decodeEntries names tensors entries =
      entries.mapM fun e ↦ (decode names tensors e.2).map (.str e.1, ·) := by
  induction entries with
  | nil => rfl
  | cons e entries ih =>
    rw [decodeEntries, ih, List.mapM_cons]
    cases decode names tensors e.2 with
    | none => rfl
    | some first => rfl

/-! ## Stores

A store that only grows leaves the entries of the handles that were given out. -/

/-- What is written for a tensor that is stored under a handle. -/
def handleReply (handle : ℕ) (t : TorchTensor names E) : Json PyKey PyScalar :=
  .object [(.str "type", .scalar (.json (.str "tensor"))), (.str "handle", number handle),
    (.str "shape", .array (t.shape.map number)), (.str "dtype", .scalar (.json (.str t.dtype.key)))]

theorem exec_store (t : TorchTensor names E) (st : WorkerStore names E) :
    (store t).exec st =
      if t.device = "cpu" then
        if t.isPlainCpu then
          (.ok (typed "tensor_data" "stream" (number st.outputs.length)),
            { st with outputs := st.outputs ++ [t] })
        else (.error .exception, st)
      else if t.device = "cuda" then
        (.ok (handleReply st.table.nextHandle t), { st with table := st.table.store t })
      else (.error .exception, st) := by
  rw [store]
  split_ifs
  all_goals rfl

theorem adds_store (t : TorchTensor names E) : (store t).Adds := by
  intro st
  rw [exec_store]
  split_ifs
  · exact st.le_output t
  · exact le_rfl
  · exact st.le_store t
  · exact le_rfl

theorem adds_encode (result : ValueTree PyKey (OperatorLeaf names E)) : (encode result).Adds := by
  induction result using ValueTree.induction with
  | leaf x =>
    cases x with
    | tensor t => exact adds_store t
    | _ => exact Deposit.adds_pure _
  | size dims => exact Deposit.adds_pure _
  | tuple items ih | list items ih =>
    rw [encode, encodeItems_eq]
    exact (Deposit.adds_mapM ih).map _
  | dict entries ih =>
    rw [encode, encodeEntries_eq]
    exact (Deposit.adds_mapM fun e he ↦ (ih e he).map (e.1, ·)).map _

theorem adds_encodeEntry (e : PyKey × ValueTree PyKey (OperatorLeaf names E)) :
    (encodeEntry e).Adds := (adds_encode e.2).map (e.1, ·)

/-! ## Responses

A sequence is seen item by item, a dictionary field by field. -/

theorem dumps_numbers (dims : List ℕ) :
    (dims.map number).mapM dumps = some (dims.map fun n : ℕ ↦ .scalar (.int n)) := by
  induction dims with
  | nil => rfl
  | cons n dims ih =>
    rw [List.map_cons, List.mapM_cons, ih]
    rfl

theorem mapM_asNat (dims : List ℕ) :
    (dims.map fun n : ℕ ↦ .scalar (.int n)).mapM asNat = some dims := by
  induction dims with
  | nil => rfl
  | cons n dims ih =>
    rw [List.map_cons, List.mapM_cons, ih]
    rfl

theorem dumps_handleReply (handle : ℕ) (t : TorchTensor names E) :
    dumps (handleReply handle t) = some (.object [("type", .scalar (.str "tensor")),
      ("handle", .scalar (.int handle)),
      ("shape", .array (t.shape.map fun n : ℕ ↦ .scalar (.int n))),
      ("dtype", .scalar (.str t.dtype.key))]) := by
  rw [handleReply, dumps, dumpsFields_eq]
  simp [dumpsField, dumpsKey, dumps, dumpsItems_eq, dumps_numbers, number, -List.mapM_map]

theorem dumps_typed (kind field : String) (value : Json PyKey PyScalar) :
    dumps (typed kind field value) = (dumps value).map fun value ↦
      .object [("type", .scalar (.str kind)), (field, value)] := by
  rw [typed, dumps, dumpsFields_eq]
  cases hvalue : dumps value with
  | none => simp [dumpsField, dumpsKey, dumps, hvalue]
  | some written => simp [dumpsField, dumpsKey, dumps, hvalue]

variable [DecidableEq A] {st : WorkerStore names E}

theorem mapM_seen (items : List (Json PyKey PyScalar)) :
    items.mapM (seen st) = ((items.mapM dumps).bind fun js ↦
      js.mapM (decode names st.outputs)).bind fun vs ↦
        vs.mapM (ValueTree.traverse (standsFor st.table.objects)) := by
  rw [mapM_bind_mapM, mapM_bind_mapM]
  rfl

theorem seen_sequence {kind : String} (items : List (Json PyKey PyScalar))
    (f : List (ValueTree PyKey (ClientLeaf names E)) → ValueTree PyKey (ClientLeaf names E))
    {g : List (ValueTree PyKey (OperatorLeaf names E)) → ValueTree PyKey (OperatorLeaf names E)}
    (hdecode : ∀ js, decode names st.outputs
      (.object [("type", .scalar (.str kind)), ("items", .array js)]) =
        (js.mapM (decode names st.outputs)).map f)
    (htraverse : ∀ vs, ValueTree.traverse (standsFor st.table.objects) (f vs) =
      (vs.mapM (ValueTree.traverse (standsFor st.table.objects))).map g) :
    seen st (typed kind "items" (.array items)) = (items.mapM (seen st)).map g := by
  rw [mapM_seen, seen, dumps_typed, dumps, dumpsItems_eq]
  cases items.mapM dumps with
  | none => rfl
  | some js =>
    simp only [Option.map_some, Option.bind_some, hdecode]
    cases js.mapM (decode names st.outputs) with
    | none => rfl
    | some vs => exact htraverse vs

theorem seen_tuple (items : List (Json PyKey PyScalar)) :
    seen st (typed "tuple" "items" (.array items)) = (items.mapM (seen st)).map .tuple := by
  refine seen_sequence items .tuple (fun js ↦ ?_) fun vs ↦ ?_
  · rw [← decodeItems_eq]
    rfl
  · rw [ValueTree.traverse, ValueTree.traverseItems_eq]

theorem seen_list (items : List (Json PyKey PyScalar)) :
    seen st (typed "list" "items" (.array items)) = (items.mapM (seen st)).map .list := by
  refine seen_sequence items .list (fun js ↦ ?_) fun vs ↦ ?_
  · rw [← decodeItems_eq]
    rfl
  · rw [ValueTree.traverse, ValueTree.traverseItems_eq]

def seenField (st : WorkerStore names E) (field : PyKey × Json PyKey PyScalar) :
    Option (PyKey × ValueTree PyKey (OperatorLeaf names E)) :=
  (dumpsKey field.1).bind fun name ↦ (seen st field.2).map (.str name, ·)

theorem mapM_seenField (fields : List (PyKey × Json PyKey PyScalar)) :
    fields.mapM (seenField st) = ((fields.mapM dumpsField).bind fun js ↦
      js.mapM fun e ↦ (decode names st.outputs e.2).map (.str e.1, ·)).bind fun vs ↦
        vs.mapM fun e ↦ (ValueTree.traverse (standsFor st.table.objects) e.2).map (e.1, ·) := by
  rw [mapM_bind_mapM, mapM_bind_mapM]
  congr 1
  funext field
  rw [seenField, dumpsField, seen]
  cases dumpsKey field.1 with
  | none => rfl
  | some name =>
    cases dumps field.2 with
    | none => rfl
    | some j =>
      cases hdecode : decode names st.outputs j with
      | none => simp [hdecode]
      | some v => simp [hdecode]

theorem seen_dict (fields : List (PyKey × Json PyKey PyScalar)) :
    seen st (typed "dict" "items" (.object fields)) = (fields.mapM (seenField st)).map .dict := by
  rw [mapM_seenField, seen, dumps_typed, dumps, dumpsFields_eq]
  cases fields.mapM dumpsField with
  | none => rfl
  | some js =>
    have hdecode : decode names st.outputs
        (.object [("type", .scalar (.str "dict")), ("items", .object js)]) =
          (js.mapM fun e ↦ (decode names st.outputs e.2).map (.str e.1, ·)).map .dict := by
      rw [← decodeEntries_eq]
      rfl
    simp only [Option.map_some, Option.bind_some, hdecode]
    cases js.mapM fun e ↦ (decode names st.outputs e.2).map (PyKey.str e.1, ·) with
    | none => rfl
    | some es =>
      exact (congrArg (Option.map ValueTree.dict) (ValueTree.traverseEntries_eq _ es)).trans rfl

/-- The numbers of a size are not decoded. -/
theorem seen_size (dims : List ℕ) :
    seen st (typed "tuple" "items" (.array (dims.map number))) =
      if dims = [] then some (.tuple []) else none := by
  rw [seen_tuple]
  cases dims with
  | nil => rfl
  | cons n dims =>
    rw [if_neg (List.cons_ne_nil n dims), List.map_cons, List.mapM_cons]
    rfl

/-! ## Results that arrive

The numbers of a size are not decoded, which is why only the empty one arrives. -/

theorem seen_handleReply {handle : ℕ} {t : TorchTensor names E}
    (h : st.table.objects handle = some t) :
    seen st (handleReply handle t) = some (.leaf (.tensor t)) := by
  have hwrap : wrap names [("type", .scalar (.str "tensor")), ("handle", .scalar (.int handle)),
      ("shape", .array (t.shape.map fun n : ℕ ↦ .scalar (.int n))),
      ("dtype", .scalar (.str t.dtype.key))] =
        some (.sidecar handle t.shape t.dtype.value : ClientLeaf names E) := by
    simp [wrap, List.lookup_cons, asNat, mapM_asNat, t.dtype.found, -List.mapM_map]
  rw [seen, dumps_handleReply, Option.bind_some, decode]
  simp [hwrap, ValueTree.traverse, standsFor, h]

theorem seen_tensorData {stream : ℕ} {t : TorchTensor names E} (h : st.outputs[stream]? = some t) :
    seen st (typed "tensor_data" "stream" (number stream)) = some (.leaf (.tensor t)) := by
  have hstream : streamTensor names st.outputs [("type", .scalar (.str "tensor_data")),
      ("stream", .scalar (.int stream))] = some (.tensor t) := by
    simp [streamTensor, List.lookup_cons, JsonScalar.toInt, lookupAt_natCast, h]
  rw [seen, dumps_typed, number, dumps, Option.map_some, Option.bind_some, decode]
  simp [hstream, ValueTree.traverse, standsFor]

theorem recovers_leaf (x : OperatorLeaf names E) :
    (encodeLeaf x).Recovers seen (.leaf x) (x ≠ .other) := by
  cases x with
  | tensor t =>
    intro st reply st' hrun later hlater
    refine iff_of_true ?_ nofun
    rw [encodeLeaf, exec_store] at hrun
    split_ifs at hrun
    · obtain ⟨hreply, rfl⟩ := Prod.mk.inj hrun
      obtain rfl := Except.ok.inj hreply
      refine seen_tensorData ?_
      obtain ⟨rest, hrest⟩ := hlater.1
      rw [← hrest, List.append_assoc, List.getElem?_append_right le_rfl, Nat.sub_self]
      rfl
    · exact nomatch (Prod.mk.inj hrun).1
    · obtain ⟨hreply, rfl⟩ := Prod.mk.inj hrun
      obtain rfl := Except.ok.inj hreply
      refine seen_handleReply ?_
      -- the entry is still there, for its handle is not given out again
      rw [WorkerStore.objects_of_le hlater (List.mem_append_right _ (List.mem_singleton_self _))]
      exact Function.update_self _ _ _
    · exact nomatch (Prod.mk.inj hrun).1
  | scalar s => exact Deposit.recovers_pure fun st ↦ iff_of_true rfl nofun
  | other => exact Deposit.recovers_pure fun st ↦ iff_of_false nofun fun h ↦ h rfl

theorem recovers_encodeEntry {e : PyKey × ValueTree PyKey (OperatorLeaf names E)}
    (h : (encode e.2).Recovers seen (returned e.2) (Deliverable e.2)) :
    (encodeEntry e).Recovers seenField (e.1, returned e.2)
      ((∃ s, e.1 = .str s) ∧ Deliverable e.2) := by
  intro st field st' hrun later hlater
  obtain ⟨item, _, hitem, hpure⟩ := Deposit.exec_bind_eq_ok.mp hrun
  obtain ⟨heq, rfl⟩ := Prod.mk.inj hpure
  obtain rfl := Except.ok.inj heq
  rw [← h hitem later hlater, seenField]
  cases hkey : e.1 with
  | str s => simp [dumpsKey]
  | printed text => simp [dumpsKey]
  | other => simp [dumpsKey]

/-- **Results** arrive exactly when they are deliverable. -/
theorem recovers_encode (result : ValueTree PyKey (OperatorLeaf names E)) :
    (encode result).Recovers seen (returned result) (Deliverable result) := by
  induction result using ValueTree.induction with
  | leaf x => exact recovers_leaf x
  | size dims =>
    refine Deposit.recovers_pure fun st ↦ ?_
    rw [seen_size, Deliverable, ValueTree.Each]
    split_ifs with hdims
    · rw [hdims]
      exact iff_of_true rfl rfl
    · exact iff_of_false not_false hdims
  | tuple items ih =>
    have hitems := Deposit.recovers_mapM (fun v _ ↦ adds_encode v) ih
    have hiff : Deliverable (.tuple items) ↔ ∀ v ∈ items, Deliverable v := ValueTree.eachItem_iff
    rw [encode, encodeItems_eq, returned, ValueTree.replace, ValueTree.replaceItems_eq, hiff]
    exact hitems.map (fun _ _ ↦ ValueTree.tuple.inj) fun _ js _ _ _ ↦ seen_tuple js
  | list items ih =>
    have hitems := Deposit.recovers_mapM (fun v _ ↦ adds_encode v) ih
    have hiff : Deliverable (.list items) ↔ ∀ v ∈ items, Deliverable v := ValueTree.eachItem_iff
    rw [encode, encodeItems_eq, returned, ValueTree.replace, ValueTree.replaceItems_eq, hiff]
    exact hitems.map (fun _ _ ↦ ValueTree.list.inj) fun _ js _ _ _ ↦ seen_list js
  | dict entries ih =>
    have hentries := Deposit.recovers_mapM (fun e _ ↦ adds_encodeEntry e) fun e he ↦
      recovers_encodeEntry (ih e he)
    have hiff : Deliverable (.dict entries) ↔
        ∀ e ∈ entries, (∃ s, e.1 = .str s) ∧ Deliverable e.2 := ValueTree.eachEntry_iff
    rw [encode, encodeEntries_eq, returned, ValueTree.replace, ValueTree.replaceEntries_eq, hiff]
    exact hentries.map (fun _ _ ↦ ValueTree.dict.inj) fun _ fields _ _ _ ↦ seen_dict fields

end SidecarResults

/-! ## Both ways

Both statements are exact, so a value that is not of their kind does not arrive. -/

open SidecarArguments SidecarResults in
/-- **The trees of an operator.** Arguments that are sent arrive exactly when no dictionary has a
key with another meaning, also when more tensors follow; a result arrives exactly when it is
deliverable. -/
theorem sidecarTrees_iff [DecidableEq A] {objects : ℕ → Option (TorchTensor names E)}
    (args : ValueTree String (ArgumentLeaf names objects))
    (result : ValueTree PyKey (OperatorLeaf names E)) {streams streams' : CpuStreams names E}
    {json : Json String JsonScalar} {st st' : WorkerStore names E} {reply : Json PyKey PyScalar}
    (hargs : (SidecarArguments.encode args).exec streams = (.ok json, streams'))
    (hresult : (SidecarResults.encode result).exec st = (.ok reply, st')) :
    ((∀ later, streams' ≤ later → SidecarArguments.decode names objects later.tensors json =
        some (received args)) ↔ Untagged args) ∧
      (seen st' reply = some (returned result) ↔ Deliverable result) := by
  have harrives := SidecarArguments.recovers_encode args hargs
  refine ⟨⟨fun h ↦ ?_, fun h later hlater ↦ ?_⟩, ?_⟩
  · exact (harrives streams' le_rfl).mp (h streams' le_rfl)
  · exact (harrives later hlater).mpr h
  · exact SidecarResults.recovers_encode result hresult st' le_rfl

def oneType : TorchNames String where
  attr name := if name = "float32" then some name else none
  device _ := some "cuda:0"
  cuda := "cuda:0"
  device_cuda := rfl

def twoElements (device : String) : TorchTensor oneType Unit where
  device
  shape := [2]
  dtype := ⟨"float32", "float32", rfl⟩
  content := ()

def noObjects : ℕ → Option (TorchTensor oneType Unit) := fun _ ↦ none

def alphaArguments : ValueTree String (ArgumentLeaf oneType noObjects) :=
  .list [.leaf (.tensor (twoElements "cpu")), .dict [("alpha", .leaf (.scalar (.int 2)))]]

/-- A tensor of the worker, one on the CPU, and a number. -/
def tupleResult : ValueTree PyKey (OperatorLeaf oneType Unit) :=
  .tuple [.leaf (.tensor (twoElements "cuda")), .leaf (.tensor (twoElements "cpu")),
    .leaf (.scalar (.int 2))]

open SidecarArguments SidecarResults in
theorem sidecarTrees_iff_alpha :
    (∃ json streams', (SidecarArguments.encode alphaArguments).exec ⟨[]⟩ = (.ok json, streams') ∧
      SidecarArguments.decode oneType noObjects streams'.tensors json =
        some (received alphaArguments)) ∧
    ∃ reply st', (SidecarResults.encode tupleResult).exec ⟨.empty, []⟩ = (.ok reply, st') ∧
      seen st' reply = some (returned tupleResult) := by
  have hargs : Untagged alphaArguments := ⟨trivial, ⟨⟨by decide, trivial⟩, trivial⟩, trivial⟩
  have hresult : Deliverable tupleResult := ⟨nofun, nofun, nofun, trivial⟩
  obtain ⟨hreceived, hreturned⟩ := sidecarTrees_iff alphaArguments tupleResult rfl rfl
  exact ⟨⟨_, _, rfl, hreceived.mpr hargs _ le_rfl⟩, _, _, rfl, hreturned.mpr hresult⟩

/-- The size of a tensor with one dimension. -/
def sizeResult : ValueTree PyKey (OperatorLeaf oneType Unit) := .size [2]

/-- A dictionary with one of the keys of the encoding. -/
def tupleKeyArguments : ValueTree String (ArgumentLeaf oneType noObjects) :=
  .dict [("__tuple__", .list [])]

/-- **A size is not returned**: the client raises at its first number. And a dictionary with one of
the keys of the encoding arrives as a tuple. -/
theorem size_not_returned :
    (∃ reply st', (SidecarResults.encode sizeResult).exec ⟨.empty, []⟩ = (.ok reply, st') ∧
      SidecarResults.seen st' reply = none) ∧
    ∃ json streams', (SidecarArguments.encode tupleKeyArguments).exec ⟨[]⟩ = (.ok json, streams') ∧
      SidecarArguments.decode oneType noObjects streams'.tensors json = some (.tuple []) :=
  ⟨⟨_, _, rfl, rfl⟩, _, _, rfl, rfl⟩

end Lupine
