import Lupine.Sidecar.Results

/-!
# A request and the table of the worker

The worker takes a request, runs an operation, and answers with its result or with an error. What
fails fails where it is: tensors that were stored for the first part of a result stay in the table
when the second part is refused, or when the whole of it is no JSON. The client is told the handles
of a result, and of an error nothing.

## What is left out

What the tensors contain, and what an operator does to them; the table has the tensors themselves.
How a stream of the request ends, and what an operator returns, is given from outside.

## Programs and their effects

An operation is a program that stores and removes tensors, logs the handles it gives out and ends
with a result or an exception; the effects up to the exception stay. The lemmas about encoding and
releasing are about such programs: encoding keeps the leaves up to the first that is refused, and
releasing pops the targets up to the first that is no number. A turn is right when the table shows
the effects of a result, and none of an error.
-/

open Foundation

namespace Lupine

variable {A E : Type}

namespace WorkerTable

variable {O : Type} (table : WorkerTable O)

/-- `objects.pop`, for which a handle need not be there. -/
def pop (i : ℤ) : WorkerTable O where
  objects h := if (h : ℤ) = i then none else table.objects h
  nextHandle := table.nextHandle
  issued := table.issued
  nodup_issued := table.nodup_issued
  lt_nextHandle := table.lt_nextHandle
  mem_issued h o ho := by
    split_ifs at ho
    exact table.mem_issued h o ho

end WorkerTable

/-- `int`, of any value. -/
def Json.toInt : Json String JsonScalar → Option ℤ
  | .scalar s => s.toInt
  | _ => none

structure TurnEvents (names : TorchNames A) (E : Type) where
  /-- The header is a request, with as many streams as it needs. -/
  parses : Bool := true
  /-- `_discard_bytes`, unless it fails. -/
  discards : Except PyFailure Unit := .ok ()
  /-- The tensor of an upload. -/
  uploaded : Except PyFailure (TorchTensor names E) := .error .exception
  /-- `_read_cuda_tensor`, into a tensor that is there. -/
  copied : Except PyFailure Unit := .ok ()
  /-- The streams of the arguments. -/
  received : Except PyFailure (List (TorchTensor names E)) := .ok []
  /-- The version of torch, whether there is CUDA, and the devices. -/
  status : Option (String × Bool × ℕ × Option String) := none
  /-- What the operator returns, unless there is none or it raises. -/
  result : Option (ValueTree PyKey (OperatorLeaf names E)) := none
  /-- `_tensor_stream_metadata`. -/
  describes : TorchTensor names E → Bool := fun _ ↦ true

inductive WorkerAnswer where
  | ok (result : Json PyKey PyScalar)
  | error

namespace WorkerTurn

open SidecarResults (typed number store encode dumps)

variable {names : TorchNames A} (events : TurnEvents names E)
  (request : List (String × Json String JsonScalar))

/-! ## The operations

The functions are those of `worker.py`. What is given from outside comes with the request. -/

/-- What remains of a stream is thrown away before an exception is raised again. -/
def raiseDiscarding {α : Type} : Deposit PyFailure (WorkerStore names E) α :=
  match events.discards with
  | .ok () => throw .exception
  | .error failure => throw failure

def requestedDtype (names : TorchNames A) (request : List (String × Json String JsonScalar)) :
    Option A :=
  match request.lookup "dtype" with
  | some (.scalar (.str name)) => names.attr name
  | _ => none

def requestedTensor (st : WorkerStore names E) : Option (TorchTensor names E) :=
  ((request.lookup "handle").bind Json.toInt).bind (lookupAt st.table.objects)

/-- `handle`, for `upload`. -/
def upload : Deposit PyFailure (WorkerStore names E) (Json PyKey PyScalar) :=
  if (requestedDtype names request).isSome ∧ (request.lookup "device").isSome then
    match events.uploaded with
    | .ok t => store t
    | .error failure => throw failure
  else raiseDiscarding events

/-- `handle`, for `copy_from_cpu`. -/
def copyFromCpu : Deposit PyFailure (WorkerStore names E) (Json PyKey PyScalar) := do
  let st ← get
  match requestedTensor request st, events.copied with
  | some _, .ok () => return .scalar (.json (.bool true))
  | some _, .error failure => throw failure
  | none, _ => raiseDiscarding events

/-- `handle`, for `ping`. -/
def ping : Deposit PyFailure (WorkerStore names E) (Json PyKey PyScalar) :=
  match events.status with
  | some (version, available, count, gpu) =>
    return .object [(.str "torch", .scalar (.json (.str version))),
      (.str "cuda_available", .scalar (.json (.bool available))),
      (.str "device_count", number count),
      (.str "gpu", .scalar (.json (gpu.elim .null .str)))]
  | none => throw .exception

/-- The arguments of a request can be decoded. -/
def decodes (objects : ℕ → Option (TorchTensor names E)) (tensors : List (TorchTensor names E)) :
    Bool :=
  (SidecarArguments.decode names objects tensors
      ((request.lookup "args").getD (.array []))).isSome &&
    (SidecarArguments.decode names objects tensors
      ((request.lookup "kwargs").getD (.object []))).isSome

/-- `handle`, for `call`. -/
def call (tensors : List (TorchTensor names E)) :
    Deposit PyFailure (WorkerStore names E) (Json PyKey PyScalar) := do
  let st ← get
  if decodes request st.table.objects tensors then
    match events.result with
    | some result => encode result
    | none => throw .exception
  else throw .exception

/-- `handle`, for `download`. The type that the tensor is sent in is not kept. -/
def download : Deposit PyFailure (WorkerStore names E) (Json PyKey PyScalar) := do
  let st ← get
  match requestedTensor request st with
  | some t =>
    if t.device = "cuda" ∧ t.isContiguous = true ∧
        (requestedDtype names request).isSome then
      set { st with outputs := st.outputs ++ [t] }
      return typed "tensor_data" "stream" (number st.outputs.length)
    else throw .exception
  | none => throw .exception

mutual

/-- `release`. -/
def release : Json String JsonScalar → Deposit PyFailure (WorkerStore names E) Unit
  | .scalar _ => return ()
  | .array items => releaseItems items
  | .object fields =>
    if "__sidecar_tensor__" ∈ fields.map Prod.fst then
      match (fields.lookup "__sidecar_tensor__").bind Json.toInt with
      | some i => modify fun st ↦ { st with table := st.table.pop i }
      | none => throw .exception
    else releaseFields fields

def releaseItems : List (Json String JsonScalar) → Deposit PyFailure (WorkerStore names E) Unit
  | [] => return ()
  | item :: items => do
    release item
    releaseItems items

def releaseFields : List (String × Json String JsonScalar) →
    Deposit PyFailure (WorkerStore names E) Unit
  | [] => return ()
  | (_, item) :: fields => do
    release item
    releaseFields fields

end

/-- `handle`, for `release`. -/
def releaseAll (value : Json String JsonScalar) :
    Deposit PyFailure (WorkerStore names E) (Json PyKey PyScalar) := do
  release value
  return .scalar (.json (.bool true))

/-- `handle`, for all operations that have received the tensors of the request. -/
def operate (op : Json String JsonScalar) (tensors : List (TorchTensor names E)) :
    Deposit PyFailure (WorkerStore names E) (Json PyKey PyScalar) :=
  match op with
  | .scalar (.str "ping") => ping events
  | .scalar (.str "call") => call events request tensors
  | .scalar (.str "download") => download request
  | .scalar (.str "release") =>
    match request.lookup "value" with
    | some value => releaseAll value
    | none => throw .exception
  | _ => throw .exception

/-- `handle`. -/
def handle : Deposit PyFailure (WorkerStore names E) (Json PyKey PyScalar) :=
  match request.lookup "op" with
  | some (.scalar (.str "upload")) => upload events request
  | some (.scalar (.str "copy_from_cpu")) => copyFromCpu events request
  | some op =>
    match events.received with
    | .ok tensors => operate events request op tensors
    | .error failure => throw failure
  | none => throw .exception

/-- What `main` makes of how `handle` ends: the answer, and the table after it. A result that cannot
be described or printed is answered with an error. -/
def respond : Except PyFailure (Json PyKey PyScalar) × WorkerStore names E →
    Option (WorkerAnswer × WorkerTable (TorchTensor names E))
  | (.ok reply, st) =>
    if (∀ t ∈ st.outputs, events.describes t = true) ∧ (dumps reply).isSome = true then
      some (.ok reply, st.table)
    else some (.error, st.table)
  | (.error .exception, st) => some (.error, st.table)
  | (.error .tensorStreamError, _) => none

/-- A turn of `main`, unless it stops the worker. -/
def turn (table : WorkerTable (TorchTensor names E)) :
    Option (WorkerAnswer × WorkerTable (TorchTensor names E)) :=
  if events.parses = true then respond events ((handle events request).exec ⟨table, []⟩) else none

/-! ## The law

The handles of a result are read off the JSON value that is sent, in the order in which it is
printed. -/

/-- The handle that an object has for a `SidecarTensor`. -/
def ownHandle (fields : List (PyKey × Json PyKey PyScalar)) : List ℕ :=
  match fields.lookup (.str "type"), fields.lookup (.str "handle") with
  | some (.scalar (.json (.str "tensor"))), some (.scalar (.json (.int (.ofNat n)))) => [n]
  | _, _ => []

mutual

def handles : Json PyKey PyScalar → List ℕ
  | .scalar _ => []
  | .array items => handlesOfItems items
  | .object fields => ownHandle fields ++ handlesOfFields fields

def handlesOfItems : List (Json PyKey PyScalar) → List ℕ
  | [] => []
  | item :: items => handles item ++ handlesOfItems items

def handlesOfFields : List (PyKey × Json PyKey PyScalar) → List ℕ
  | [] => []
  | (_, item) :: fields => handles item ++ handlesOfFields fields

end

/-- New entries of a table: each handle once, and never used before. -/
structure Added {O : Type} (table table' : WorkerTable O) (new : List ℕ) : Prop where
  nodup : new.Nodup
  fresh : ∀ h ∈ new, h ∉ table.issued
  there : ∀ h ∈ new, table'.objects h ≠ none
  /-- No other tensor has come in. -/
  known : ∀ h o, table'.objects h = some o → table.objects h = some o ∨ h ∈ new

/-- An error leaves the table as it was, and a result names what has been added. -/
def TableRight {O : Type} (table : WorkerTable O) : WorkerAnswer × WorkerTable O → Prop
  | (.ok reply, table') => Added table table' (handles reply)
  | (.error, table') => table'.objects = table.objects

/-! ## The condition

What is asked of a request is stated on the value that the operator returns and on the handles of
the request, before anything is stored or popped. -/

/-- A leaf that `store` takes. -/
def Storable : OperatorLeaf names E → Prop
  | .tensor t => if t.device = "cpu" then t.isPlainCpu = true else t.device = "cuda"
  | _ => True

instance : DecidablePred (Storable : OperatorLeaf names E → Prop) := fun x ↦ by
  unfold Storable
  cases x <;> infer_instance

/-- A value that `json.dumps` takes. -/
def Printable (result : ValueTree PyKey (OperatorLeaf names E)) : Prop :=
  result.Each (fun _ ↦ True) (· ≠ .other) (· ≠ .other)

/-- A result that the worker can answer with. -/
def Answerable (result : ValueTree PyKey (OperatorLeaf names E)) : Prop :=
  (∀ x ∈ result.leaves, Storable x) ∧ Printable result ∧
    ∀ t, .tensor t ∈ result.leaves → t.device = "cpu" → events.describes t = true

/-- The tensors before the first leaf that is refused. -/
def tensorsBefore (result : ValueTree PyKey (OperatorLeaf names E)) :
    List (OperatorLeaf names E) := result.leaves.takeWhile fun x ↦ Storable x

mutual

/-- The handles that `release` comes to, as far as they are numbers. -/
def releaseTargets : Json String JsonScalar → List (Option ℤ)
  | .scalar _ => []
  | .array items => targetsOfItems items
  | .object fields =>
    if "__sidecar_tensor__" ∈ fields.map Prod.fst then
      [(fields.lookup "__sidecar_tensor__").bind Json.toInt]
    else targetsOfFields fields

def targetsOfItems : List (Json String JsonScalar) → List (Option ℤ)
  | [] => []
  | item :: items => releaseTargets item ++ targetsOfItems items

def targetsOfFields : List (String × Json String JsonScalar) → List (Option ℤ)
  | [] => []
  | (_, item) :: fields => releaseTargets item ++ targetsOfFields fields

end

/-- The operator of a request returns a result. -/
def Returned (table : WorkerTable (TorchTensor names E))
    (result : ValueTree PyKey (OperatorLeaf names E)) : Prop :=
  events.parses = true ∧ request.lookup "op" = some (.scalar (.str "call")) ∧
    (∃ tensors, events.received = .ok tensors ∧ decodes request table.objects tensors = true) ∧
      events.result = some result

/-- A request to release what is in a value. -/
def Releases (value : Json String JsonScalar) : Prop :=
  events.parses = true ∧ request.lookup "op" = some (.scalar (.str "release")) ∧
    (∃ tensors, events.received = .ok tensors) ∧ request.lookup "value" = some value

/-- **The condition.** Of a result that the worker cannot answer with, no CUDA tensor comes before
what is refused; and where a handle is no number, none that comes before it is in the table. -/
def Atomic (table : WorkerTable (TorchTensor names E)) : Prop :=
  (∀ result, Returned events request table result →
    Answerable events result ∨ ∀ t, .tensor t ∈ tensorsBefore result → t.device ≠ "cuda") ∧
  ∀ value, Releases events request value →
    (∀ target ∈ releaseTargets value, target.isSome) ∨
      ∀ i, some i ∈ (releaseTargets value).takeWhile Option.isSome →
        lookupAt table.objects i = none

/-! ## What a result leaves in the table

Leaves are stored in order, and the table is as it was exactly when there is no CUDA tensor among
those that were reached. -/

/-- A leaf that `store` takes is kept. -/
def keep : OperatorLeaf names E → WorkerStore names E → WorkerStore names E
  | .tensor t, st =>
    if t.device = "cpu" then { st with outputs := st.outputs ++ [t] }
    else { st with table := st.table.store t }
  | _, st => st

/-- **A result is stored leaf by leaf**, up to the first that is refused. -/
theorem performs_encode (result : ValueTree PyKey (OperatorLeaf names E)) :
    Deposit.Performs Storable keep .exception (encode result) result.leaves := by
  induction result using ValueTree.induction with
  | leaf x =>
    cases x with
    | tensor t =>
      intro st
      rw [encode, SidecarResults.encodeLeaf, SidecarResults.exec_store, ValueTree.leaves]
      simp only [Deposit.perform, Storable, keep]
      split_ifs with hcpu hplain hcuda
      · exact ⟨rfl, rfl⟩
      · exact ⟨rfl, rfl, rfl⟩
      · exact ⟨rfl, rfl⟩
      · exact ⟨rfl, rfl, rfl⟩
    | _ => exact fun _ ↦ ⟨rfl, rfl⟩
  | size dims => exact Deposit.performs_pure _
  | tuple items ih | list items ih =>
    rw [encode, SidecarResults.encodeItems_eq, ValueTree.leaves, ValueTree.leavesOfItems_eq]
    exact (Deposit.performs_mapM ih).map _
  | dict entries ih =>
    rw [encode, SidecarResults.encodeEntries_eq, ValueTree.leaves, ValueTree.leavesOfEntries_eq]
    exact (Deposit.performs_mapM fun e he ↦ (ih e he).map (e.1, ·)).map _

theorem le_keep (x : OperatorLeaf names E) (st : WorkerStore names E) : st ≤ keep x st := by
  cases x with
  | tensor t =>
    rw [keep]
    split_ifs
    · exact st.le_output t
    · exact st.le_store t
  | _ => exact le_rfl

theorem le_foldl_keep (l : List (OperatorLeaf names E)) (st : WorkerStore names E) :
    st ≤ l.foldl (fun st x ↦ keep x st) st := by
  induction l generalizing st with
  | nil => exact le_rfl
  | cons x l ih => exact (le_keep x st).trans (ih (keep x st))

theorem objects_keep_ne {t : TorchTensor names E} (hcuda : t.device = "cuda")
    {st later : WorkerStore names E} (hle : keep (.tensor t) st ≤ later) :
    later.table.objects ≠ st.table.objects := by
  have hcpu : t.device ≠ "cpu" := by
    rw [hcuda]
    decide
  rw [keep, if_neg hcpu] at hle
  have hthere : later.table.objects st.table.nextHandle = some t :=
    (WorkerStore.objects_of_le hle (List.mem_append_right _ (List.mem_singleton_self _))).trans
      (Function.update_self _ _ _)
  intro heq
  rw [heq] at hthere
  exact lt_irrefl _ (st.table.lt_nextHandle _ (st.table.mem_issued _ _ hthere))

/-- The table is as it was exactly when there is no CUDA tensor among the leaves. -/
theorem objects_foldl_keep_iff {l : List (OperatorLeaf names E)} (hl : ∀ x ∈ l, Storable x)
    (st : WorkerStore names E) :
    (l.foldl (fun st x ↦ keep x st) st).table.objects = st.table.objects ↔
      ∀ t, .tensor t ∈ l → t.device ≠ "cuda" := by
  induction l generalizing st with
  | nil => simp
  | cons x l ih =>
    obtain ⟨hx, hl⟩ := List.forall_mem_cons.mp hl
    rw [List.foldl_cons]
    by_cases hcuda : ∃ t, x = .tensor t ∧ t.device = "cuda"
    · obtain ⟨t, rfl, hcuda⟩ := hcuda
      exact iff_of_false (objects_keep_ne hcuda (le_foldl_keep l _)) fun h ↦
        h t List.mem_cons_self hcuda
    · have hsame : (keep x st).table.objects = st.table.objects := by
        cases x with
        | tensor t =>
          have hcpu : t.device = "cpu" := by
            by_contra hcpu
            rw [Storable, if_neg hcpu] at hx
            exact hcuda ⟨t, rfl, hx⟩
          rw [keep, if_pos hcpu]
        | _ => rfl
      rw [← hsame, ih hl]
      refine forall_congr' fun t ↦ ?_
      rw [List.mem_cons]
      constructor
      · rintro h (rfl | hmem) hdevice
        · exact hcuda ⟨t, rfl, hdevice⟩
        · exact h hmem hdevice
      · exact fun h hmem ↦ h (.inr hmem)

theorem outputs_foldl_keep (l : List (OperatorLeaf names E)) (st : WorkerStore names E)
    (p : TorchTensor names E → Prop) :
    (∀ t ∈ (l.foldl (fun st x ↦ keep x st) st).outputs, p t) ↔
      (∀ t ∈ st.outputs, p t) ∧ ∀ t, .tensor t ∈ l → t.device = "cpu" → p t := by
  induction l generalizing st with
  | nil => simp
  | cons x l ih =>
    rw [List.foldl_cons, ih]
    cases x with
    | tensor t =>
      rw [keep]
      split_ifs with hcpu
      · simp only [List.mem_append, List.mem_cons, List.not_mem_nil, or_false,
          OperatorLeaf.tensor.injEq]
        constructor
        · rintro ⟨hout, hrest⟩
          refine ⟨fun u hu ↦ hout u (.inl hu), ?_⟩
          rintro u (rfl | hu) hdevice
          · exact hout _ (.inr rfl)
          · exact hrest u hu hdevice
        · rintro ⟨hout, hrest⟩
          refine ⟨?_, fun u hu ↦ hrest u (.inr hu)⟩
          rintro u (hu | rfl)
          · exact hout u hu
          · exact hrest _ (.inl rfl) hcpu
      · simp only [List.mem_cons, OperatorLeaf.tensor.injEq]
        refine and_congr_right fun _ ↦ forall_congr' fun u ↦ ?_
        constructor
        · rintro h (rfl | hu) hdevice
          · exact absurd hdevice hcpu
          · exact h hu hdevice
        · exact fun h hu ↦ h (.inr hu)
    | _ => simp [keep]

/-! ## What a result names

What is written for a value is an object, and an object whose fields are objects has no handle of
its own. So the handles of a result are those of the leaves, and these are the ones that were given
out. -/

theorem handlesOfItems_eq (items : List (Json PyKey PyScalar)) :
    handlesOfItems items = items.flatMap handles := by
  induction items with
  | nil => rfl
  | cons item items ih => rw [handlesOfItems, ih, List.flatMap_cons]

theorem handlesOfFields_eq (fields : List (PyKey × Json PyKey PyScalar)) :
    handlesOfFields fields = fields.flatMap fun field ↦ handles field.2 := by
  induction fields with
  | nil => rfl
  | cons field fields ih => rw [handlesOfFields, ih, List.flatMap_cons]

theorem handles_typed {kind field : String} (hkind : kind ≠ "tensor")
    (value : Json PyKey PyScalar) : handles (typed kind field value) = handles value := by
  have hown : ownHandle [(.str "type", .scalar (.json (.str kind))), (.str field, value)] = [] := by
    rw [ownHandle]
    split
    · rename_i heq _
      exact absurd (JsonScalar.str.inj (PyScalar.json.inj (Json.scalar.inj (Option.some.inj heq))))
        hkind
    · rfl
  rw [typed, handles, hown, handlesOfFields_eq]
  simp [handles]

theorem handlesOfItems_numbers (dims : List ℕ) : handlesOfItems (dims.map number) = [] := by
  rw [handlesOfItems_eq, List.flatMap_map]
  exact List.flatMap_eq_nil_iff.mpr fun _ _ ↦ rfl

theorem handles_handleReply (handle : ℕ) (t : TorchTensor names E) :
    handles (SidecarResults.handleReply handle t) = [handle] := by
  have hshape : handles (.array (t.shape.map number)) = [] := by
    rw [handles, handlesOfItems_numbers]
  rw [SidecarResults.handleReply, handles, handlesOfFields, handlesOfFields, handlesOfFields,
    hshape]
  rfl

theorem returns_object (result : ValueTree PyKey (OperatorLeaf names E)) :
    (encode result).Returns fun reply ↦ ∃ fields, reply = .object fields := by
  cases result with
  | leaf x =>
    cases x with
    | tensor t =>
      intro st reply st' hrun
      rw [encode, SidecarResults.encodeLeaf, SidecarResults.exec_store] at hrun
      split_ifs at hrun
      · exact ⟨_, (Except.ok.inj (Prod.mk.inj hrun).1).symm⟩
      · have herror := (Prod.mk.inj hrun).1
        contradiction
      · exact ⟨_, (Except.ok.inj (Prod.mk.inj hrun).1).symm⟩
      · have herror := (Prod.mk.inj hrun).1
        contradiction
    | _ => exact Deposit.returns_pure ⟨_, rfl⟩
  | size dims => exact Deposit.returns_pure ⟨_, rfl⟩
  | tuple items | list items | dict entries =>
    intro st reply st' hrun
    rw [encode] at hrun
    obtain ⟨_, _, -, hpure⟩ := Deposit.exec_bind_eq_ok.mp hrun
    exact ⟨_, (Except.ok.inj (Prod.mk.inj hpure).1).symm⟩

/-- An object whose fields are objects has no handle of its own. -/
theorem ownHandle_eq_nil {fields : List (PyKey × Json PyKey PyScalar)}
    (h : ∀ field ∈ fields, ∃ inner, field.2 = .object inner) : ownHandle fields = [] := by
  rw [ownHandle]
  split
  · rename_i heq _
    obtain ⟨before, after, rfl, -⟩ := List.lookup_eq_some_iff.mp heq
    obtain ⟨inner, hinner⟩ := h _ (List.mem_append_right before List.mem_cons_self)
    exact nomatch hinner
  · rfl

/-- **The handles that are given out** are those that the result names, in order. -/
theorem logs_encode (result : ValueTree PyKey (OperatorLeaf names E)) :
    (encode result).Logs (fun st ↦ st.table.issued) handles := by
  induction result using ValueTree.induction with
  | leaf x =>
    cases x with
    | tensor t =>
      -- a tensor is sent by value or stored under a handle, and either may fail
      intro st reply st' hrun
      rw [encode, SidecarResults.encodeLeaf, SidecarResults.exec_store] at hrun
      split_ifs at hrun
      · obtain ⟨hreply, rfl⟩ := Prod.mk.inj hrun
        obtain rfl := Except.ok.inj hreply
        rw [handles_typed (by decide)]
        exact (List.append_nil _).symm
      · have herror := (Prod.mk.inj hrun).1
        contradiction
      · obtain ⟨hreply, rfl⟩ := Prod.mk.inj hrun
        obtain rfl := Except.ok.inj hreply
        rw [handles_handleReply]
        rfl
      · have herror := (Prod.mk.inj hrun).1
        contradiction
    | scalar s | other => exact Deposit.logs_pure (handles_typed (by decide) _)
  | size dims =>
    refine Deposit.logs_pure ?_
    rw [handles_typed (by decide), handles, handlesOfItems_numbers]
  | tuple items ih | list items ih =>
    rw [encode, SidecarResults.encodeItems_eq]
    refine (Deposit.logs_mapM ih).map fun _ replies _ _ ↦ ?_
    rw [handles_typed (by decide), handles, handlesOfItems_eq]
  | dict entries ih =>
    rw [encode, SidecarResults.encodeEntries_eq]
    have hentries : (entries.mapM SidecarResults.encodeEntry).Logs (fun st ↦ st.table.issued)
        (List.flatMap fun field ↦ handles field.2) :=
      Deposit.logs_mapM fun e he ↦ (ih e he).map fun _ _ _ _ ↦ rfl
    refine hentries.map fun _ fields _ hrun ↦ ?_
    -- an entry is an object, so the dictionary itself is not read as a handle
    have hobjects : ∀ field ∈ fields, ∃ inner, field.2 = Json.object inner := by
      refine ((Deposit.returns_mapM fun e _ ↦ ?_) hrun).mpr fun _ _ ↦ trivial
      exact (returns_object e.2).map fun _ hobject ↦ iff_true_intro hobject
    rw [handles_typed (by decide), handles, ownHandle_eq_nil hobjects, handlesOfFields_eq]
    rfl

/-! ## What can be printed

Printing fails on a key or a scalar and nowhere else. -/

theorem isSome_dumpsField (field : PyKey × Json PyKey PyScalar) :
    (SidecarResults.dumpsField field).isSome = true ↔
      field.1 ≠ .other ∧ (dumps field.2).isSome = true := by
  rw [SidecarResults.dumpsField]
  cases field.1 with
  | str s | printed s => simp [SidecarResults.dumpsKey]
  | other => simp [SidecarResults.dumpsKey]

theorem isSome_dumps_typed (kind field : String) (value : Json PyKey PyScalar) :
    (dumps (typed kind field value)).isSome = (dumps value).isSome := by
  rw [SidecarResults.dumps_typed, Option.isSome_map]

/-- **A result is printed** exactly when its keys and scalars are. -/
theorem returns_printable (result : ValueTree PyKey (OperatorLeaf names E)) :
    (encode result).Returns fun reply ↦ ((dumps reply).isSome = true ↔ Printable result) := by
  induction result using ValueTree.induction with
  | leaf x =>
    cases x with
    | tensor t =>
      intro st reply st' hrun
      refine iff_of_true ?_ (by rintro ⟨⟩)
      rw [encode, SidecarResults.encodeLeaf, SidecarResults.exec_store] at hrun
      split_ifs at hrun
      · obtain rfl := Except.ok.inj (Prod.mk.inj hrun).1
        rw [isSome_dumps_typed]
        rfl
      · have herror := (Prod.mk.inj hrun).1
        contradiction
      · obtain rfl := Except.ok.inj (Prod.mk.inj hrun).1
        rw [SidecarResults.dumps_handleReply]
        rfl
      · have herror := (Prod.mk.inj hrun).1
        contradiction
    | scalar s =>
      refine Deposit.returns_pure (iff_of_true ?_ (by rintro ⟨⟩))
      rw [isSome_dumps_typed]
      rfl
    | other =>
      refine Deposit.returns_pure (iff_of_false ?_ fun h ↦ h rfl)
      rw [isSome_dumps_typed]
      exact Bool.false_ne_true
  | size dims =>
    refine Deposit.returns_pure (iff_of_true ?_ trivial)
    rw [isSome_dumps_typed, dumps, SidecarResults.dumpsItems_eq, SidecarResults.dumps_numbers]
    rfl
  | tuple items ih | list items ih =>
    rw [encode, SidecarResults.encodeItems_eq]
    refine (Deposit.returns_mapM ih).map fun replies hreplies ↦ ?_
    rw [isSome_dumps_typed, dumps, SidecarResults.dumpsItems_eq, Option.isSome_map, isSome_mapM,
      hreplies]
    exact ValueTree.eachItem_iff.symm
  | dict entries ih =>
    -- a key of a dictionary must be written as text, and so must its value
    have hentry : ∀ e ∈ entries, (SidecarResults.encodeEntry e).Returns fun field ↦
        ((SidecarResults.dumpsField field).isSome = true ↔ e.1 ≠ .other ∧ Printable e.2) := by
      refine fun e he ↦ (ih e he).map fun reply hreply ↦ ?_
      rw [isSome_dumpsField, hreply]
    have hiff : Printable (.dict entries) ↔ ∀ e ∈ entries, e.1 ≠ .other ∧ Printable e.2 :=
      ValueTree.eachEntry_iff
    rw [encode, SidecarResults.encodeEntries_eq, hiff]
    refine (Deposit.returns_mapM hentry).map fun fields hfields ↦ ?_
    rw [isSome_dumps_typed, dumps, SidecarResults.dumpsFields_eq, Option.isSome_map, isSome_mapM,
      hfields]

/-! ## What a release takes out of the table

Handles that are numbers are popped whether they are there or not. -/

/-- A handle that is a number is popped. -/
def popTarget : Option ℤ → WorkerStore names E → WorkerStore names E
  | some i, st => { st with table := st.table.pop i }
  | none, st => st

/-- **A release pops handle by handle**, up to the first that is no number. -/
theorem performs_release (value : Json String JsonScalar) :
    Deposit.Performs (fun target : Option ℤ ↦ target.isSome = true) popTarget PyFailure.exception
      (release value : Deposit PyFailure (WorkerStore names E) Unit) (releaseTargets value) := by
  induction value using Json.induction with
  | scalar s => exact Deposit.performs_pure _
  | array items ih =>
    rw [release, releaseTargets]
    induction items with
    | nil => exact Deposit.performs_pure _
    | cons item items ihitems =>
      obtain ⟨hitem, hitems⟩ := List.forall_mem_cons.mp ih
      exact hitem.bind fun _ ↦ ihitems hitems
  | object fields ih =>
    rw [release, releaseTargets]
    split_ifs with htag
    · intro st
      cases (fields.lookup "__sidecar_tensor__").bind Json.toInt with
      | none => exact ⟨rfl, rfl, rfl⟩
      | some i => exact ⟨rfl, rfl⟩
    · clear htag
      induction fields with
      | nil => exact Deposit.performs_pure _
      | cons field fields ihfields =>
        obtain ⟨hfield, hfields⟩ := List.forall_mem_cons.mp ih
        exact hfield.bind fun _ ↦ ihfields hfields

theorem outputs_foldl_popTarget (l : List (Option ℤ)) (st : WorkerStore names E) :
    (l.foldl (fun st x ↦ popTarget x st) st).outputs = st.outputs := by
  induction l generalizing st with
  | nil => rfl
  | cons x l ih =>
    rw [List.foldl_cons, ih]
    cases x <;> rfl

theorem objects_foldl_popTarget (l : List (Option ℤ)) (st : WorkerStore names E) (h : ℕ) :
    (l.foldl (fun st x ↦ popTarget x st) st).table.objects h =
      if some (h : ℤ) ∈ l then none else st.table.objects h := by
  induction l generalizing st with
  | nil => rfl
  | cons x l ih =>
    rw [List.foldl_cons, ih]
    cases x with
    | none => simp [popTarget]
    | some i =>
      by_cases hi : (h : ℤ) = i
      · simp [popTarget, WorkerTable.pop, hi]
      · simp [popTarget, WorkerTable.pop, hi]

/-! ## Turns

An operation that leaves the table alone and has no handles in its result is right. What has been
added to a store is new, since handles are counted up. -/

/-- The turn that answers with this program is right. -/
def Right (events : TurnEvents names E) (table : WorkerTable (TorchTensor names E))
    (p : Deposit PyFailure (WorkerStore names E) (Json PyKey PyScalar)) : Prop :=
  ∀ answer, respond events (p.exec ⟨table, []⟩) = some answer → TableRight table answer

variable {events} {request} {table : WorkerTable (TorchTensor names E)}
  {p : Deposit PyFailure (WorkerStore names E) (Json PyKey PyScalar)} {st : WorkerStore names E}
  {reply : Json PyKey PyScalar} {new : List ℕ}

theorem added_nil {table' : WorkerTable (TorchTensor names E)}
    (h : ∀ n o, table'.objects n = some o → table.objects n = some o) : Added table table' [] where
  nodup := List.nodup_nil
  fresh _ hmem := absurd hmem List.not_mem_nil
  there _ hmem := absurd hmem List.not_mem_nil
  known n o ho := .inl (h n o ho)

theorem added_of_le (hle : (⟨table, []⟩ : WorkerStore names E) ≤ st)
    (hlog : st.table.issued = table.issued ++ new) : Added table st.table new := by
  obtain ⟨-, new', hnew, hthere, hsame⟩ := hle
  obtain rfl : new = new' := List.append_cancel_left (hlog.symm.trans hnew)
  have hnodup := st.table.nodup_issued
  rw [hlog] at hnodup
  obtain ⟨-, hnodup', hdisjoint⟩ := List.nodup_append.mp hnodup
  refine ⟨hnodup', fun h hmem hissued ↦ hdisjoint h hissued h hmem rfl, hthere, fun h o ho ↦ ?_⟩
  by_cases hmem : h ∈ new
  · exact .inr hmem
  · exact .inl ((hsame h hmem).symm.trans ho)

theorem right_of_kept {r : Except PyFailure (Json PyKey PyScalar)}
    (hrun : p.exec ⟨table, []⟩ = (r, st)) (htable : st.table = table)
    (hreply : ∀ reply, r = .ok reply → handles reply = []) : Right events table p := by
  intro answer h
  rw [hrun] at h
  rcases r with (failure | failure) | reply
  · exact nomatch h
  · obtain rfl := Option.some.inj h
    exact congrArg WorkerTable.objects htable
  · rw [respond, htable] at h
    split_ifs at h
    · obtain rfl := Option.some.inj h
      rw [TableRight, hreply reply rfl]
      exact added_nil fun _ _ ho ↦ ho
    · obtain rfl := Option.some.inj h
      rfl

theorem right_iff_of_exception (hrun : p.exec ⟨table, []⟩ = (.error .exception, st)) :
    Right events table p ↔ st.table.objects = table.objects := by
  rw [Right, hrun]
  constructor
  · exact fun h ↦ h _ rfl
  · intro h answer heq
    obtain rfl := Option.some.inj heq
    exact h

theorem right_iff_of_ok (hrun : p.exec ⟨table, []⟩ = (.ok reply, st)) :
    Right events table p ↔
      if (∀ t ∈ st.outputs, events.describes t = true) ∧ (dumps reply).isSome = true then
        Added table st.table (handles reply)
      else st.table.objects = table.objects := by
  rw [Right, hrun, respond]
  split_ifs
  · constructor
    · exact fun h ↦ h _ rfl
    · intro h answer heq
      obtain rfl := Option.some.inj heq
      exact h
  · constructor
    · exact fun h ↦ h _ rfl
    · intro h answer heq
      obtain rfl := Option.some.inj heq
      exact h

theorem storable_of_before {result : ValueTree PyKey (OperatorLeaf names E)}
    {x : OperatorLeaf names E} (hx : x ∈ tensorsBefore result) : Storable x := by
  exact of_decide_eq_true (List.mem_takeWhile_imp (p := fun x ↦ decide (Storable x)) hx)

/-- **A result.** Its turn is right when it can be answered with, or when nothing was stored. -/
theorem right_encode_iff (result : ValueTree PyKey (OperatorLeaf names E)) :
    Right events table (encode result) ↔
      Answerable events result ∨ ∀ t, .tensor t ∈ tensorsBefore result → t.device ≠ "cuda" := by
  have hobjects := objects_foldl_keep_iff (l := tensorsBefore result)
    (fun x hx ↦ storable_of_before hx) (⟨table, []⟩ : WorkerStore names E)
  rcases hrun : (encode result).exec ⟨table, []⟩ with ⟨failure | reply, st⟩
  · obtain ⟨rfl, hrefused, rfl⟩ := (performs_encode result).of_error hrun
    rw [right_iff_of_exception hrun]
    exact hobjects.trans (or_iff_right fun h ↦ hrefused h.1).symm
  · obtain ⟨rfl, hall⟩ := (performs_encode result).of_ok hrun
    have hbefore : tensorsBefore result = result.leaves :=
      List.takeWhile_eq_self_iff.mpr fun x hx ↦ decide_eq_true (hall x hx)
    have hprinted : (dumps reply).isSome = true ↔ Printable result := returns_printable result hrun
    rw [hbefore] at hobjects
    have houtputs := outputs_foldl_keep result.leaves (⟨table, []⟩ : WorkerStore names E)
      fun t ↦ events.describes t = true
    -- what is asked of a response that can be written is what is asked of the result
    have hanswerable : ((∀ t ∈ (result.leaves.foldl (fun st x ↦ keep x st)
        (⟨table, []⟩ : WorkerStore names E)).outputs, events.describes t = true) ∧
          (dumps reply).isSome = true) ↔ Answerable events result := by
      rw [Answerable, and_iff_right hall, hprinted, and_comm, houtputs]
      exact and_congr_right fun _ ↦ and_iff_right fun t ht ↦ absurd ht List.not_mem_nil
    rw [right_iff_of_ok hrun, hbefore]
    by_cases hgood : Answerable events result
    · rw [if_pos (hanswerable.mpr hgood)]
      refine iff_of_true ?_ (.inl hgood)
      exact added_of_le ((SidecarResults.adds_encode result).le hrun) (logs_encode result hrun)
    · rw [if_neg (mt hanswerable.mp hgood), or_iff_right hgood]
      exact hobjects

/-- **A release.** Its turn is right when all handles are numbers, or when nothing was popped. -/
theorem right_release_iff (value : Json String JsonScalar) :
    Right events table (releaseAll value) ↔
      (∀ target ∈ releaseTargets value, target.isSome) ∨
        ∀ i, some i ∈ (releaseTargets value).takeWhile Option.isSome →
          lookupAt table.objects i = none := by
  have hperforms : Deposit.Performs (fun target : Option ℤ ↦ target.isSome = true) popTarget
      PyFailure.exception (releaseAll value : Deposit PyFailure (WorkerStore names E) _)
      (releaseTargets value) := (performs_release value).map _
  rcases hrun : (releaseAll value).exec (⟨table, []⟩ : WorkerStore names E)
    with ⟨failure | reply, st⟩
  · obtain ⟨rfl, hrefused, rfl⟩ := hperforms.of_error hrun
    rw [right_iff_of_exception hrun, or_iff_right hrefused, funext_iff]
    simp only [Bool.decide_eq_true, objects_foldl_popTarget]
    constructor
    · intro h i hi
      rcases i with n | n
      · exact (h n).symm.trans (if_pos hi)
      · rfl
    · intro h n
      split_ifs with hn
      · exact (h n hn).symm
      · rfl
  · obtain ⟨rfl, hall⟩ := hperforms.of_ok hrun
    refine iff_of_true ?_ (.inl hall)
    obtain ⟨_, _, -, hpure⟩ := Deposit.exec_bind_eq_ok.mp hrun
    obtain rfl := Except.ok.inj (Prod.mk.inj hpure).1
    have hdescribed : ∀ t ∈ ((releaseTargets value).foldl (fun st x ↦ popTarget x st)
        (⟨table, []⟩ : WorkerStore names E)).outputs, events.describes t = true := by
      rw [outputs_foldl_popTarget]
      exact fun t ht ↦ absurd ht List.not_mem_nil
    rw [right_iff_of_ok hrun, if_pos ⟨hdescribed, rfl⟩]
    refine added_nil fun h o ho ↦ ?_
    rw [objects_foldl_popTarget] at ho
    exact (Option.ite_none_left_eq_some.mp ho).2

/-! ## The operations that are always right

All but `call` and `release`. An upload stores one tensor, and its answer is one handle. -/

theorem right_throw (failure : PyFailure) : Right events table (throw failure) :=
  right_of_kept rfl rfl nofun

theorem right_raiseDiscarding : Right events table (raiseDiscarding events) := by
  rw [raiseDiscarding]
  cases events.discards with
  | ok _ => exact right_throw _
  | error failure => exact right_throw failure

theorem right_pure (h : handles reply = []) : Right events table (pure reply) := by
  refine right_of_kept rfl rfl fun reply' heq ↦ ?_
  obtain rfl := Except.ok.inj heq
  exact h

theorem right_get {f : WorkerStore names E → Deposit PyFailure (WorkerStore names E)
    (Json PyKey PyScalar)} : Right events table (get >>= f) ↔ Right events table (f ⟨table, []⟩) :=
  Iff.rfl

theorem right_copyFromCpu : Right events table (copyFromCpu events request) := by
  rw [copyFromCpu, right_get]
  cases requestedTensor request (⟨table, []⟩ : WorkerStore names E) with
  | none => exact right_raiseDiscarding
  | some t =>
    cases events.copied with
    | ok _ => exact right_pure rfl
    | error failure => exact right_throw failure

theorem right_ping : Right events table (ping events) := by
  rw [ping]
  cases events.status with
  | none => exact right_throw _
  | some status => exact right_pure rfl

theorem right_download : Right events table (download request) := by
  rw [download, right_get]
  cases requestedTensor request (⟨table, []⟩ : WorkerStore names E) with
  | none => exact right_throw _
  | some t =>
    dsimp only
    split_ifs
    · refine right_of_kept rfl rfl fun reply heq ↦ ?_
      obtain rfl := Except.ok.inj heq
      exact handles_typed (by decide) _
    · exact right_throw _

theorem right_upload : Right events table (upload events request) := by
  rw [upload]
  split_ifs
  · cases events.uploaded with
    | error failure => exact right_throw failure
    | ok t =>
      refine (right_encode_iff (.leaf (.tensor t))).mpr ?_
      by_cases hcuda : t.device = "cuda"
      · refine .inl ⟨fun x hx ↦ ?_, nofun, fun u hu hcpu ↦ ?_⟩
        · rw [List.mem_singleton.mp hx, Storable, hcuda]
          exact if_neg (by decide) |>.mpr rfl
        · obtain rfl := OperatorLeaf.tensor.inj (List.mem_singleton.mp hu)
          rw [hcuda] at hcpu
          exact absurd hcpu (by decide)
      · refine .inr fun u hu ↦ ?_
        obtain rfl := OperatorLeaf.tensor.inj
          (List.mem_singleton.mp ((List.takeWhile_prefix _).subset hu))
        exact hcuda
  · exact right_raiseDiscarding

theorem right_call_iff {tensors : List (TorchTensor names E)} :
    Right events table (call events request tensors) ↔
      ∀ result, decodes request table.objects tensors = true → events.result = some result →
        Answerable events result ∨ ∀ t, .tensor t ∈ tensorsBefore result → t.device ≠ "cuda" := by
  rw [call, right_get]
  split_ifs with hdecodes
  · cases hresult : events.result with
    | none => exact iff_of_true (right_throw _) nofun
    | some result =>
      refine (right_encode_iff result).trans ⟨fun h result' _ heq ↦ ?_, fun h ↦ ?_⟩
      · rwa [← Option.some.inj heq]
      · exact h result hdecodes rfl
  · exact iff_of_true (right_throw _) fun _ h ↦ absurd h hdecodes

theorem atomic_of_op {op : Option (Json String JsonScalar)} (hop : request.lookup "op" = op)
    (hcall : op ≠ some (.scalar (.str "call"))) (hrelease : op ≠ some (.scalar (.str "release"))) :
    Atomic events request table :=
  ⟨fun _ h ↦ absurd (hop.symm.trans h.2.1) hcall, fun _ h ↦ absurd (hop.symm.trans h.2.1) hrelease⟩

theorem right_operate_iff (hparses : events.parses = true) {op : Json String JsonScalar}
    (hop : request.lookup "op" = some op) {tensors : List (TorchTensor names E)}
    (hreceived : events.received = .ok tensors) :
    Right events table (operate events request op tensors) ↔ Atomic events request table := by
  unfold operate
  split
  · exact iff_of_true right_ping (atomic_of_op hop (by simp) (by simp))
  · refine right_call_iff.trans ⟨fun h ↦ ⟨fun result hreturned ↦ ?_, fun _ hreleases ↦ ?_⟩,
      fun h result hdecodes hresult ↦ ?_⟩
    · obtain ⟨-, -, ⟨tensors', hreceived', hdecodes⟩, hresult⟩ := hreturned
      obtain rfl := Except.ok.inj (hreceived.symm.trans hreceived')
      exact h result hdecodes hresult
    · exact absurd (hop.symm.trans hreleases.2.1) (by simp)
    · exact h.1 result ⟨hparses, hop, ⟨tensors, hreceived, hdecodes⟩, hresult⟩
  · exact iff_of_true right_download (atomic_of_op hop (by simp) (by simp))
  · cases hvalue : request.lookup "value" with
    | none =>
      refine iff_of_true (right_throw _) ⟨fun _ h ↦ ?_, fun _ h ↦ ?_⟩
      · exact absurd (hop.symm.trans h.2.1) (by simp)
      · exact nomatch hvalue.symm.trans h.2.2.2
    | some value =>
      refine (right_release_iff value).trans
        ⟨fun h ↦ ⟨fun _ hreturned ↦ ?_, fun value' hreleases ↦ ?_⟩,
          fun h ↦ h.2 value ⟨hparses, hop, ⟨tensors, hreceived⟩, hvalue⟩⟩
      · exact absurd (hop.symm.trans hreturned.2.1) (by simp)
      · rwa [← Option.some.inj (hvalue.symm.trans hreleases.2.2.2)]
  · rename_i hping hcall hdownload hrelease
    refine iff_of_true (right_throw _) (atomic_of_op hop ?_ ?_)
    · exact fun h ↦ hcall (Option.some.inj h)
    · exact fun h ↦ hrelease (Option.some.inj h)

/-- **The table of the worker** is right after every answer exactly when the request is atomic. -/
theorem tableRight_iff (events : TurnEvents names E)
    (request : List (String × Json String JsonScalar))
    (table : WorkerTable (TorchTensor names E)) :
    (∀ answer, turn events request table = some answer → TableRight table answer) ↔
      Atomic events request table := by
  by_cases hparses : events.parses = true
  · rw [turn, if_pos hparses]
    change Right events table (handle events request) ↔ _
    rw [handle]
    split
    · exact iff_of_true right_upload (atomic_of_op ‹_› (by simp) (by simp))
    · exact iff_of_true right_copyFromCpu (atomic_of_op ‹_› (by simp) (by simp))
    · rename_i op _ _ hop
      cases hreceived : events.received with
      | ok tensors => exact right_operate_iff hparses hop hreceived
      | error failure =>
        refine iff_of_true (right_throw failure) ⟨fun _ h ↦ ?_, fun _ h ↦ ?_⟩
        · obtain ⟨-, -, ⟨_, hok, -⟩, -⟩ := h
          exact nomatch hreceived.symm.trans hok
        · obtain ⟨-, -, ⟨_, hok⟩, -⟩ := h
          exact nomatch hreceived.symm.trans hok
    · exact iff_of_true (right_throw _) (atomic_of_op ‹request.lookup "op" = none› nofun nofun)
  · rw [turn, if_neg hparses]
    exact iff_of_true nofun ⟨fun _ h ↦ absurd h.1 hparses, fun _ h ↦ absurd h.1 hparses⟩

def plainCall : List (String × Json String JsonScalar) :=
  [("op", .scalar (.str "call")), ("args", .array []), ("kwargs", .object [])]

/-- The operator returns a CUDA tensor, and a scalar that JSON does not have. -/
def mixedResult : TurnEvents oneType Unit where
  result := some (.tuple [.leaf (.tensor (twoElements "cuda")), .leaf .other])

/-- **A tensor that nobody can release**: the answer is an error, and the tensor is in the table. -/
theorem unprintable_result_leaks : ∃ table', turn mixedResult plainCall .empty =
    some (.error, table') ∧ table'.objects 1 = some (twoElements "cuda") ∧
      (WorkerTable.empty : WorkerTable (TorchTensor oneType Unit)).objects 1 = none :=
  ⟨_, rfl, rfl, rfl⟩

end WorkerTurn

end Lupine
