import Lupine.Sidecar.TensorStreams
import Lupine.Sidecar.ValueTrees

/-!
# The arguments of an operator

The client writes the arguments of an operator as JSON. What JSON does not have is an object with
one field, whose name says what it is; a tensor of the worker is its handle, a tensor on the CPU the
number of the stream that follows. The worker tells these objects from the dictionaries among the
arguments by the names of their fields.

## What is left out

Which exception is raised, and its text.

## Trees and streams

A value is encoded leaf by leaf into a tree of JSON and a list of streams, which only grows. So what
is decoded of a part does not depend on what is encoded later, and the statement about a list is one
about its elements. What goes wrong is a matter of names: a dictionary with a key that is one of the
tags is taken for something else.
-/

open Foundation

namespace Lupine

/-- What both sides find in torch by name: its attributes, and its devices. -/
structure TorchNames (A : Type) where
  /-- `getattr(torch, ·)`. -/
  attr : String → Option A
  /-- `torch.device`. -/
  device : JsonScalar → Option A
  /-- The device of the worker. -/
  cuda : A
  device_cuda : device (.str "cuda:0") = some cuda

/-- Something that is found under its key. -/
structure Known {κ ω : Type} (look : κ → Option ω) where
  key : κ
  value : ω
  found : look key = some value

/-- A tensor, with what is asked about it before it is sent. -/
structure TorchTensor {A : Type} (names : TorchNames A) (E : Type) where
  /-- `device.type`. -/
  device : String
  strided : Bool := true
  isQuantized : Bool := false
  isConj : Bool := false
  isNeg : Bool := false
  isContiguous : Bool := true
  shape : List ℕ
  dtype : Known names.attr
  content : E

/-- The checks of `_cpu_tensor_metadata`, which are those of `_validate_cpu_result_tensor`. -/
def TorchTensor.isPlainCpu {A E : Type} {names : TorchNames A} (t : TorchTensor names E) : Bool :=
  t.device == "cpu" && t.strided && !t.isQuantized && !t.isConj && !t.isNeg && t.isContiguous

variable {A E : Type} (names : TorchNames A)

/-- A leaf among the arguments. A worker's tensor has a handle; another device has a name. -/
inductive ArgumentLeaf (objects : ℕ → Option (TorchTensor names E)) where
  | sidecar (t : Known objects)
  | tensor (t : TorchTensor names E)
  | dtype (d : Known names.attr)
  | backendDevice
  | device (d : Known fun text : String ↦ names.device (.str text))
  | layout (l : Known names.attr)
  | memoryFormat (m : Known names.attr)
  | scalar (s : JsonScalar)

inductive WorkerLeaf (E : Type) where
  | tensor (t : TorchTensor names E)
  | torch (a : A)
  | scalar (s : JsonScalar)

/-- The tensors that follow a header. -/
structure CpuStreams (E : Type) where
  tensors : List (TorchTensor names E)

variable {names}

instance : Preorder (CpuStreams names E) where
  le s t := s.tensors <+: t.tensors
  le_refl s := List.prefix_refl s.tensors
  le_trans _ _ _ := List.IsPrefix.trans

namespace SidecarArguments

variable {objects : ℕ → Option (TorchTensor names E)}

/-! ## The client

Every leaf that JSON does not have becomes an object with one field. -/

def tagged (tag : String) (value : Json String JsonScalar) : Json String JsonScalar :=
  .object [(tag, value)]

/-- `_encode`, of a leaf. -/
def encodeLeaf : ArgumentLeaf names objects →
    Deposit PyFailure (CpuStreams names E) (Json String JsonScalar)
  | .sidecar t => return tagged "__sidecar_tensor__" (.scalar (.int t.key))
  | .tensor t => do
    let streams ← get
    if t.isPlainCpu then
      set (⟨streams.tensors ++ [t]⟩ : CpuStreams names E)
      return tagged "__cpu_tensor__" (.scalar (.int streams.tensors.length))
    else throw .exception
  | .dtype d => return tagged "__dtype__" (.scalar (.str d.key))
  | .backendDevice => return tagged "__device__" (.scalar (.str "cuda:0"))
  | .device d => return tagged "__device__" (.scalar (.str d.key))
  | .layout l => return tagged "__layout__" (.scalar (.str l.key))
  | .memoryFormat m => return tagged "__memory_format__" (.scalar (.str m.key))
  | .scalar s => return .scalar s

mutual

/-- `_encode`. -/
def encode : ValueTree String (ArgumentLeaf names objects) →
    Deposit PyFailure (CpuStreams names E) (Json String JsonScalar)
  | .leaf x => encodeLeaf x
  | .size dims => return tagged "__tuple__" (.array (dims.map fun n : ℕ ↦ .scalar (.int n)))
  | .tuple items => do
    let encoded ← encodeItems items
    return tagged "__tuple__" (.array encoded)
  | .list items => do
    let encoded ← encodeItems items
    return .array encoded
  | .dict entries => do
    let encoded ← encodeEntries entries
    return .object encoded

def encodeItems : List (ValueTree String (ArgumentLeaf names objects)) →
    Deposit PyFailure (CpuStreams names E) (List (Json String JsonScalar))
  | [] => return []
  | item :: items => do
    let first ← encode item
    let rest ← encodeItems items
    return first :: rest

def encodeEntries : List (String × ValueTree String (ArgumentLeaf names objects)) →
    Deposit PyFailure (CpuStreams names E) (List (String × Json String JsonScalar))
  | [] => return []
  | (key, item) :: entries => do
    let first ← encode item
    let rest ← encodeEntries entries
    return (key, first) :: rest

end

/-! ## The worker

The tags are asked for in an order, and the first that is there decides. -/

/-- The names of the objects that are not dictionaries, but for `__tuple__`, in the order in which
`decode` asks for them. -/
def leafTags : List String :=
  ["__sidecar_tensor__", "__cpu_tensor__", "__dtype__", "__device__", "__layout__",
    "__memory_format__"]

/-- The names that a dictionary does not keep. -/
def tags : List String := "__tuple__" :: leafTags

section Decode

variable (names) (objects : ℕ → Option (TorchTensor names E)) (tensors : List (TorchTensor names E))

/-- `decode`, of an object that stands for a leaf. -/
def decodeLeaf : String → Json String JsonScalar → Option (WorkerLeaf names E)
  | "__sidecar_tensor__", .scalar s => (s.toInt.bind (lookupAt objects)).map .tensor
  | "__cpu_tensor__", .scalar s => (s.toInt.bind (lookupAt (tensors[·]?))).map .tensor
  | "__device__", .scalar s => (names.device s).map .torch
  | "__dtype__", .scalar (.str name) => (names.attr name).map .torch
  | "__layout__", .scalar (.str name) => (names.attr name).map .torch
  | "__memory_format__", .scalar (.str name) => (names.attr name).map .torch
  | _, _ => none

mutual

/-- `decode`. -/
def decode : Json String JsonScalar → Option (ValueTree String (WorkerLeaf names E))
  | .scalar s => some (.leaf (.scalar s))
  | .array items => (decodeItems items).map .list
  | .object fields =>
    if "__tuple__" ∈ fields.map Prod.fst then (decodeTuple fields).map .tuple
    else
      match leafTags.find? (· ∈ fields.map Prod.fst) with
      | some tag => ((fields.lookup tag).bind (decodeLeaf names objects tensors tag)).map .leaf
      | none => (decodeFields fields).map .dict

/-- The values in `value["__tuple__"]`. -/
def decodeTuple : List (String × Json String JsonScalar) →
    Option (List (ValueTree String (WorkerLeaf names E)))
  | [] => none
  | (key, value) :: fields => if key = "__tuple__" then decodeIterable value else decodeTuple fields

/-- A loop over a value: an array has its items, an object its keys, a string its characters. -/
def decodeIterable : Json String JsonScalar → Option (List (ValueTree String (WorkerLeaf names E)))
  | .array items => decodeItems items
  | .object fields => some (fields.map fun field ↦ .leaf (.scalar (.str field.1)))
  | .scalar (.str s) => some (s.toList.map fun c ↦ .leaf (.scalar (.str (String.singleton c))))
  | .scalar _ => none

def decodeItems : List (Json String JsonScalar) →
    Option (List (ValueTree String (WorkerLeaf names E)))
  | [] => some []
  | item :: items => do
    let first ← decode item
    let rest ← decodeItems items
    return first :: rest

def decodeFields : List (String × Json String JsonScalar) →
    Option (List (String × ValueTree String (WorkerLeaf names E)))
  | [] => some []
  | (key, item) :: fields => do
    let first ← decode item
    let rest ← decodeFields fields
    return (key, first) :: rest

end

end Decode

/-! ## What the worker is to get

The arguments as they were, with each tensor in the place of what stood for it. -/

/-- A leaf, as the worker is to hand it on. -/
def atWorker : ArgumentLeaf names objects → WorkerLeaf names E
  | .sidecar t => .tensor t.value
  | .tensor t => .tensor t
  | .dtype d => .torch d.value
  | .backendDevice => .torch names.cuda
  | .device d => .torch d.value
  | .layout l => .torch l.value
  | .memoryFormat m => .torch m.value
  | .scalar s => .scalar s

/-- The arguments, with each tensor of the worker and of the CPU in its place. -/
def received (args : ValueTree String (ArgumentLeaf names objects)) :
    ValueTree String (WorkerLeaf names E) := args.replace (fun n ↦ .scalar (.int n)) atWorker

/-- No dictionary has a key that stands for something else. -/
def Untagged (args : ValueTree String (ArgumentLeaf names objects)) : Prop :=
  args.Each (fun _ ↦ True) (· ∉ tags) fun _ ↦ True

/-! ## Loops

The recursion over items and entries is a loop over a list. -/

theorem encodeItems_eq (items : List (ValueTree String (ArgumentLeaf names objects))) :
    encodeItems items = items.mapM encode := by
  induction items with
  | nil => rfl
  | cons item items ih => rw [encodeItems, ih, List.mapM_cons]

def encodeEntry (e : String × ValueTree String (ArgumentLeaf names objects)) :
    Deposit PyFailure (CpuStreams names E) (String × Json String JsonScalar) := do
  let item ← encode e.2
  return (e.1, item)

theorem encodeEntries_eq (entries : List (String × ValueTree String (ArgumentLeaf names objects))) :
    encodeEntries entries = entries.mapM encodeEntry := by
  induction entries with
  | nil => rfl
  | cons e entries ih =>
    rw [encodeEntries, ih, List.mapM_cons, encodeEntry, bind_assoc]
    simp only [pure_bind]

variable {tensors : List (TorchTensor names E)}

theorem decodeItems_eq (items : List (Json String JsonScalar)) :
    decodeItems names objects tensors items = items.mapM (decode names objects tensors) := by
  induction items with
  | nil => rfl
  | cons item items ih => rw [decodeItems, ih, List.mapM_cons]

theorem decodeFields_eq (fields : List (String × Json String JsonScalar)) :
    decodeFields names objects tensors fields =
      fields.mapM fun f ↦ (decode names objects tensors f.2).map (f.1, ·) := by
  induction fields with
  | nil => rfl
  | cons field fields ih =>
    rw [decodeFields, ih, List.mapM_cons]
    cases decode names objects tensors field.2 with
    | none => rfl
    | some first => rfl

/-! ## Objects

An object is decoded by its field if it has one of the names, and as a dictionary if it has none. -/

theorem decode_tuple (items : List (Json String JsonScalar)) :
    decode names objects tensors (tagged "__tuple__" (.array items)) =
      (items.mapM (decode names objects tensors)).map .tuple := by
  rw [tagged, decode, List.map_singleton, if_pos (List.mem_singleton_self _), decodeTuple,
    if_pos rfl, decodeIterable, decodeItems_eq]

theorem decode_numbers (dims : List ℕ) :
    (dims.map fun n : ℕ ↦ .scalar (.int n)).mapM (decode names objects tensors) =
      some (dims.map fun n : ℕ ↦ .leaf (.scalar (.int n))) := by
  induction dims with
  | nil => rfl
  | cons n dims ih =>
    rw [List.map_cons, List.mapM_cons, ih]
    rfl

theorem decode_leaf {tag : String} (htag : tag ∈ leafTags) (value : Json String JsonScalar) :
    decode names objects tensors (tagged tag value) =
      (decodeLeaf names objects tensors tag value).map .leaf := by
  have hne : "__tuple__" ≠ tag := by
    rintro rfl
    exact absurd htag (by decide)
  have hfound : leafTags.find? (· ∈ [tag]) = some tag := by
    revert tag
    decide
  rw [tagged, decode, List.map_singleton, if_neg (mt List.mem_singleton.mp hne), hfound]
  simp only [List.lookup_cons_self, Option.bind_some]

theorem decode_dict {fields : List (String × Json String JsonScalar)}
    (h : ∀ key ∈ fields.map Prod.fst, key ∉ tags) :
    decode names objects tensors (.object fields) =
      (fields.mapM fun f ↦ (decode names objects tensors f.2).map (f.1, ·)).map .dict := by
  have hnone : leafTags.find? (· ∈ fields.map Prod.fst) = none := by
    refine List.find?_eq_none.mpr fun tag htag hmem ↦ ?_
    exact h tag (of_decide_eq_true hmem) (List.mem_cons_of_mem _ htag)
  rw [decode, if_neg fun hmem ↦ h _ hmem List.mem_cons_self, hnone]
  exact congrArg (Option.map _) (decodeFields_eq fields)

/-- **A dictionary with a key that stands for something else** is no dictionary at the worker. -/
theorem decode_ne_dict {fields : List (String × Json String JsonScalar)} {tag : String}
    (htag : tag ∈ tags) (hmem : tag ∈ fields.map Prod.fst)
    (entries : List (String × ValueTree String (WorkerLeaf names E))) :
    decode names objects tensors (.object fields) ≠ some (.dict entries) := by
  rw [decode]
  by_cases htuple : "__tuple__" ∈ fields.map Prod.fst
  · rw [if_pos htuple]
    exact fun h ↦ by simp at h
  · rw [if_neg htuple]
    have hleaf : tag ∈ leafTags := by
      refine (List.mem_cons.mp htag).resolve_left ?_
      rintro rfl
      exact htuple hmem
    cases hfind : leafTags.find? (· ∈ fields.map Prod.fst) with
    | none => exact absurd (decide_eq_true hmem) (List.find?_eq_none.mp hfind tag hleaf)
    | some found =>
      intro h
      obtain ⟨x, -, hx⟩ := Option.map_eq_some_iff.mp h
      exact nomatch hx

/-! ## Arguments that arrive

A leaf is always recovered, so it depends on the dictionaries alone. -/

theorem exec_encodeLeaf_tensor (t : TorchTensor names E) (streams : CpuStreams names E) :
    (encodeLeaf (.tensor t : ArgumentLeaf names objects)).exec streams =
      if t.isPlainCpu then
        (.ok (tagged "__cpu_tensor__" (.scalar (.int streams.tensors.length))),
          ⟨streams.tensors ++ [t]⟩)
      else (.error .exception, streams) := by
  by_cases hplain : t.isPlainCpu = true
  · rw [if_pos hplain, encodeLeaf, hplain]
    rfl
  · rw [Bool.not_eq_true] at hplain
    rw [encodeLeaf, hplain]
    rfl

theorem adds_encodeLeaf (x : ArgumentLeaf names objects) : (encodeLeaf x).Adds := by
  cases x with
  | tensor t =>
    intro streams
    rw [exec_encodeLeaf_tensor]
    split_ifs
    · exact List.prefix_append streams.tensors [t]
    · exact le_rfl
  | _ => exact Deposit.adds_pure _

theorem adds_encode (args : ValueTree String (ArgumentLeaf names objects)) :
    (encode args).Adds := by
  induction args using ValueTree.induction with
  | leaf x => exact adds_encodeLeaf x
  | size dims => exact Deposit.adds_pure _
  | tuple items ih | list items ih =>
    rw [encode, encodeItems_eq]
    exact (Deposit.adds_mapM ih).map _
  | dict entries ih =>
    rw [encode, encodeEntries_eq]
    exact (Deposit.adds_mapM fun e he ↦ (ih e he).map (e.1, ·)).map _

theorem adds_encodeEntry (e : String × ValueTree String (ArgumentLeaf names objects)) :
    (encodeEntry e).Adds := (adds_encode e.2).map (e.1, ·)

theorem recovers_leaf (x : ArgumentLeaf names objects) :
    (encodeLeaf x).Recovers (fun streams ↦ decode names objects streams.tensors)
      (.leaf (atWorker x)) True := by
  cases x with
  | sidecar t =>
    refine Deposit.recovers_pure fun streams ↦ iff_true_intro ?_
    rw [decode_leaf (by decide)]
    simp [decodeLeaf, JsonScalar.toInt, lookupAt_natCast, t.found, atWorker]
  | tensor t =>
    intro streams j streams' hrun later hlater
    rw [exec_encodeLeaf_tensor] at hrun
    split_ifs at hrun
    · obtain ⟨hj, rfl⟩ := Prod.mk.inj hrun
      obtain rfl := Except.ok.inj hj
      have hthere : later.tensors[streams.tensors.length]? = some t := by
        obtain ⟨rest, hrest⟩ := hlater
        rw [← hrest, List.append_assoc, List.getElem?_append_right le_rfl, Nat.sub_self]
        rfl
      refine iff_true_intro ?_
      dsimp only
      rw [decode_leaf (by decide)]
      simp [decodeLeaf, JsonScalar.toInt, lookupAt_natCast, hthere, atWorker]
    · exact nomatch (Prod.mk.inj hrun).1
  | dtype d | layout d | memoryFormat d =>
    refine Deposit.recovers_pure fun streams ↦ iff_true_intro ?_
    rw [decode_leaf (by decide)]
    simp [decodeLeaf, d.found, atWorker]
  | backendDevice =>
    refine Deposit.recovers_pure fun streams ↦ iff_true_intro ?_
    rw [decode_leaf (by decide)]
    simp [decodeLeaf, names.device_cuda, atWorker]
  | device d =>
    refine Deposit.recovers_pure fun streams ↦ iff_true_intro ?_
    rw [decode_leaf (by decide)]
    simp [decodeLeaf, d.found, atWorker]
  | scalar s => exact Deposit.recovers_pure fun streams ↦ iff_true_intro rfl

/-- The keys are kept. -/
theorem keys_encodeEntries {entries : List (String × ValueTree String (ArgumentLeaf names objects))}
    {streams streams' : CpuStreams names E} {fields : List (String × Json String JsonScalar)}
    (h : (entries.mapM encodeEntry).exec streams = (.ok fields, streams')) :
    fields.map Prod.fst = entries.map Prod.fst := by
  induction entries generalizing streams fields with
  | nil =>
    obtain rfl := Except.ok.inj (Prod.mk.inj h).1
    rfl
  | cons e entries ih =>
    rw [List.mapM_cons] at h
    obtain ⟨first, _, hfirst, h⟩ := Deposit.exec_bind_eq_ok.mp h
    obtain ⟨rest, _, hrest, h⟩ := Deposit.exec_bind_eq_ok.mp h
    obtain ⟨item, _, -, hitem⟩ := Deposit.exec_bind_eq_ok.mp hfirst
    obtain rfl := Except.ok.inj (Prod.mk.inj hitem).1
    obtain ⟨heq, rfl⟩ := Prod.mk.inj h
    obtain rfl := Except.ok.inj heq
    rw [List.map_cons, List.map_cons, ih hrest]

theorem recovers_encodeEntry {e : String × ValueTree String (ArgumentLeaf names objects)}
    {v : ValueTree String (WorkerLeaf names E)} {c : Prop}
    (h : (encode e.2).Recovers (fun streams ↦ decode names objects streams.tensors) v c) :
    (encodeEntry e).Recovers (fun streams (f : String × Json String JsonScalar) ↦
      (decode names objects streams.tensors f.2).map (f.1, ·)) (e.1, v) c :=
  h.map (fun _ _ heq ↦ (Prod.mk.inj heq).2) fun _ _ _ _ _ ↦ rfl

/-- **Arguments** arrive exactly when no dictionary among them has a key with another meaning. -/
theorem recovers_encode (args : ValueTree String (ArgumentLeaf names objects)) :
    (encode args).Recovers (fun streams ↦ decode names objects streams.tensors) (received args)
      (Untagged args) := by
  induction args using ValueTree.induction with
  | leaf x => exact recovers_leaf x
  | size dims =>
    refine Deposit.recovers_pure fun streams ↦ iff_true_intro ?_
    rw [decode_tuple, decode_numbers]
    rfl
  | tuple items ih =>
    have hitems := Deposit.recovers_mapM (fun v _ ↦ adds_encode v) ih
    have hiff : Untagged (.tuple items) ↔ ∀ v ∈ items, Untagged v := ValueTree.eachItem_iff
    rw [encode, encodeItems_eq, received, ValueTree.replace, ValueTree.replaceItems_eq, hiff]
    exact hitems.map (fun _ _ ↦ ValueTree.tuple.inj) fun _ js _ _ _ ↦ decode_tuple js
  | list items ih =>
    have hitems := Deposit.recovers_mapM (fun v _ ↦ adds_encode v) ih
    have hiff : Untagged (.list items) ↔ ∀ v ∈ items, Untagged v := ValueTree.eachItem_iff
    rw [encode, encodeItems_eq, received, ValueTree.replace, ValueTree.replaceItems_eq, hiff]
    refine hitems.map (fun _ _ ↦ ValueTree.list.inj) fun _ js _ _ streams ↦ ?_
    rw [decode, decodeItems_eq]
  | dict entries ih =>
    have hentries := Deposit.recovers_mapM (fun e _ ↦ adds_encodeEntry e) fun e he ↦
      recovers_encodeEntry (ih e he)
    rw [encode, encodeEntries_eq, received, ValueTree.replace, ValueTree.replaceEntries_eq]
    -- a dictionary with a key that is a tag is read back as something else
    by_cases hkeys : ∀ key ∈ entries.map Prod.fst, key ∉ tags
    · refine (hentries.congr ?_).map (fun _ _ ↦ ValueTree.dict.inj) fun _ fields _ hrun streams ↦ ?_
      · rw [Untagged, ValueTree.Each, ValueTree.eachEntry_iff]
        exact forall₂_congr fun e he ↦ (and_iff_right (hkeys _ (List.mem_map_of_mem he))).symm
      · exact decode_dict (keys_encodeEntries hrun ▸ hkeys)
    · push Not at hkeys
      obtain ⟨tag, hmem, htag⟩ := hkeys
      intro streams j streams' hrun later _
      obtain ⟨fields, _, hfields, hpure⟩ := Deposit.exec_bind_eq_ok.mp hrun
      obtain rfl := Except.ok.inj (Prod.mk.inj hpure).1
      rw [← keys_encodeEntries hfields] at hmem
      refine iff_of_false (decode_ne_dict htag hmem _) fun huntagged ↦ ?_
      rw [keys_encodeEntries hfields] at hmem
      obtain ⟨e, he, rfl⟩ := List.mem_map.mp hmem
      exact ((ValueTree.eachEntry_iff.mp huntagged) e he).1 htag

end SidecarArguments

end Lupine
