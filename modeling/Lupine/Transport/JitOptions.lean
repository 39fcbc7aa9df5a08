import Lupine.Transport.JitOutputs
import Lupine.Transport.OptionLists
import Mathlib.Data.List.ReduceOption

/-!
# The options of the JIT compiler

The client sends its options, and the server puts its own buffers where the options point to the
client's memory. What the compiler leaves in the buffers comes back as outputs, and the client looks
up, in its own copy of the options, where they belong.

## One list, read twice

The server takes an output for captured when the option is there, the client only when it points
somewhere. Both find the size of a log in the same way, so what is stored is as long as the caller
said. An option that occurs again adds nothing: the client stores at the first place given.

## From the request to the stores

The server's state is a fold over the options, and so are the client's bindings. Both are compared
with the first option of a kind that points somewhere: the server writes an output if there is an
option of the kind, and the client stores it at that place if there is one. The rest is about the
lengths of logs.
-/

open Foundation

namespace Lupine

/-! ## The request

The words of the options go through the lists of options that a library uses as well. -/

structure JitOptions where
  options : List JitOption
  length_options : options.length < 2 ^ 32

/-- `rpc_write_jit_options`. -/
def rpcWriteJitOptions (given : JitOptions) (queue : WriteQueue) : Option WriteQueue :=
  rpcWrites (optionPieces (given.options.map JitOption.option) (given.options.map JitOption.value))
    queue

/-- The first `rpc_read_jit_options`: the options and the words. -/
def rpcReadJitOptionWords : Reader UInt8 (List JitOption) := do
  let numOptions ← rpcReadWord 4
  let options ← rpcReadOptionKeys numOptions
  let rawValues ← (rpcReadWord 8).times numOptions
  pure (List.zipWith (fun option value ↦ ⟨UInt32.ofNat option, UInt64.ofNat value⟩) options
    rawValues)

/-! ## The server

The logs are vectors, which `assign` refuses to make too large. -/

/-- The value of an option, as the driver gets it. -/
inductive JitServerValue where
  | wallTime
  | infoLog
  | errorLog
  | null
  | raw (value : UInt64)
  deriving DecidableEq, Repr

/-- `rpc_jit_server_state`; of a log, how many bytes it has. -/
structure JitServerState where
  options : List UInt32 := []
  optionValues : List JitServerValue := []
  infoLogSize : ℕ := 0
  errorLogSize : ℕ := 0
  captureWallTime : Bool := false
  captureInfoLog : Bool := false
  captureErrorLog : Bool := false
  deriving DecidableEq, Repr

def captureJitOption (state : JitServerState) (o : JitOption) : JitServerState :=
  if o.option = jitWallTime then
    { state with
      captureWallTime := true
      optionValues := state.optionValues ++ [.wallTime] }
  else if o.option = jitInfoLogBuffer then
    { state with
      captureInfoLog := decide (state.infoLogSize ≠ 0)
      optionValues := state.optionValues ++ [if state.infoLogSize = 0 then .null else .infoLog] }
  else if o.option = jitErrorLogBuffer then
    { state with
      captureErrorLog := decide (state.errorLogSize ≠ 0)
      optionValues := state.optionValues ++ [if state.errorLogSize = 0 then .null else .errorLog] }
  else { state with optionValues := state.optionValues ++ [.raw o.value] }

/-- What the loop leaves, with logs of the sizes that the options give. -/
def jitServerState (options : List JitOption) : JitServerState :=
  options.foldl captureJitOption
    { options := options.map JitOption.option
      infoLogSize := jitOptionSize options jitInfoLogBufferSizeBytes
      errorLogSize := jitOptionSize options jitErrorLogBufferSizeBytes }

/-- The most characters that a `std::vector` takes: `assign` throws beyond. -/
def vectorMaxSize : ℕ := 2 ^ 63 - 1

/-- No vector takes a log of such a size. -/
def JitSizesTooLarge (options : List JitOption) : Prop :=
  vectorMaxSize < jitOptionSize options jitInfoLogBufferSizeBytes ∨
    vectorMaxSize < jitOptionSize options jitErrorLogBufferSizeBytes

instance (options : List JitOption) : Decidable (JitSizesTooLarge options) :=
  inferInstanceAs (Decidable (_ ∨ _))

/-- The second `rpc_read_jit_options`, with enough memory for the logs. -/
def rpcReadJitOptions : Reader UInt8 JitServerState := do
  let options ← rpcReadJitOptionWords
  if JitSizesTooLarge options then failure else pure (jitServerState options)

/-- The second `rpc_write_jit_outputs`, up to where it calls the first. -/
def JitServerState.outputs (state : JitServerState) (report : JitReport) : List JitOutput :=
  (if state.captureWallTime then [⟨jitWallTime, leBytes 4 report.wallTime.toNat⟩] else []) ++
    ((if state.captureInfoLog then
      [⟨jitInfoLogBuffer, (List.range state.infoLogSize).map report.infoLog⟩] else []) ++
    (if state.captureErrorLog then
      [⟨jitErrorLogBuffer, (List.range state.errorLogSize).map report.errorLog⟩] else []))

/-! ## What belongs in the caller's memory

What is to be stored is said without the server's state, from the report of the compiler and the
caller's options alone. -/

/-- Where the first option of a kind that points somewhere points to. -/
def firstJitBuffer (options : List JitOption) (option : UInt32) : Option HostPtr :=
  (options.find? fun o ↦ o.option = option ∧ o.value ≠ 0).map fun o ↦ o.value.toNat

/-- A log belongs in its buffer, as much of it as the buffer takes. -/
def jitLogStore (options : List JitOption) (buffer sizeOption : UInt32) (log : ℕ → UInt8) :
    List (HostPtr × List UInt8) :=
  if jitOptionSize options sizeOption ≠ 0 then
    (firstJitBuffer options buffer).toList.map fun dst ↦
      (dst, (List.range (jitOptionSize options sizeOption)).map log)
  else []

def jitStores (options : List JitOption) (report : JitReport) : List (HostPtr × List UInt8) :=
  (firstJitBuffer options jitWallTime).toList.map
      (fun dst ↦ (dst, leBytes 4 report.wallTime.toNat)) ++
    (jitLogStore options jitInfoLogBuffer jitInfoLogBufferSizeBytes report.infoLog ++
      jitLogStore options jitErrorLogBuffer jitErrorLogBufferSizeBytes report.errorLog)

/-- The outputs come back: if the options are sent at all, the server reads them, and of what it
writes then the client reads all and stores what belongs in the caller's memory. -/
def JitOutputsRight (given : JitOptions) (queue : WriteQueue) (report : JitReport) : Prop :=
  ∀ queue', rpcWriteJitOptions given queue = some queue' →
    ∃ written state stored, queue'.bytes = queue.bytes ++ written ∧
      rpcReadJitOptions.Reads written state ∧
      (rpcReadJitOutputs (captureJitClientBindings given.options)).Reads
        (rpcWriteJitOutputs (state.outputs report)) stored ∧
      stored.reduceOption = jitStores given.options report

/-! ## The server's state

The loop changes a log only at its own options, so the sizes are those that the options give. -/

section Server

variable {state : JitServerState} {o : JitOption} {options : List JitOption}

theorem captureJitOption_infoLogSize (state : JitServerState) (o : JitOption) :
    (captureJitOption state o).infoLogSize = state.infoLogSize := by
  rw [captureJitOption]
  split_ifs <;> rfl

theorem captureJitOption_errorLogSize (state : JitServerState) (o : JitOption) :
    (captureJitOption state o).errorLogSize = state.errorLogSize := by
  rw [captureJitOption]
  split_ifs <;> rfl

theorem foldl_captureJitOption_sizes (options : List JitOption) (state : JitServerState) :
    (options.foldl captureJitOption state).infoLogSize = state.infoLogSize ∧
      (options.foldl captureJitOption state).errorLogSize = state.errorLogSize := by
  induction options generalizing state with
  | nil => exact ⟨rfl, rfl⟩
  | cons o options ih =>
    obtain ⟨hinfo, herror⟩ := ih (captureJitOption state o)
    rw [captureJitOption_infoLogSize] at hinfo
    rw [captureJitOption_errorLogSize] at herror
    exact ⟨hinfo, herror⟩

theorem captureWallTime_foldl (options : List JitOption) (state : JitServerState) :
    (options.foldl captureJitOption state).captureWallTime =
      (state.captureWallTime || options.any fun o ↦ o.option = jitWallTime) := by
  induction options generalizing state with
  | nil => exact (Bool.or_false _).symm
  | cons o options ih =>
    have hstep : (captureJitOption state o).captureWallTime =
        (state.captureWallTime || decide (o.option = jitWallTime)) := by
      rw [captureJitOption]
      split_ifs with h <;> simp [h]
    rw [List.foldl_cons, ih, hstep, List.any_cons, Bool.or_assoc]

theorem captureInfoLog_foldl (options : List JitOption) (state : JitServerState) :
    (options.foldl captureJitOption state).captureInfoLog =
      if options.any fun o ↦ o.option = jitInfoLogBuffer then decide (state.infoLogSize ≠ 0)
      else state.captureInfoLog := by
  induction options generalizing state with
  | nil => rfl
  | cons o options ih =>
    have hstep : (captureJitOption state o).captureInfoLog =
        if o.option = jitInfoLogBuffer then decide (state.infoLogSize ≠ 0)
        else state.captureInfoLog := by
      have hne : jitWallTime ≠ jitInfoLogBuffer := by decide
      rw [captureJitOption]
      split_ifs with h₁ h₂ <;> simp_all
    rw [List.foldl_cons, ih, captureJitOption_infoLogSize, hstep, List.any_cons]
    by_cases h : o.option = jitInfoLogBuffer <;> simp [h]

theorem captureErrorLog_foldl (options : List JitOption) (state : JitServerState) :
    (options.foldl captureJitOption state).captureErrorLog =
      if options.any fun o ↦ o.option = jitErrorLogBuffer then decide (state.errorLogSize ≠ 0)
      else state.captureErrorLog := by
  induction options generalizing state with
  | nil => rfl
  | cons o options ih =>
    have hstep : (captureJitOption state o).captureErrorLog =
        if o.option = jitErrorLogBuffer then decide (state.errorLogSize ≠ 0)
        else state.captureErrorLog := by
      have hne : jitWallTime ≠ jitErrorLogBuffer := by decide
      have hne' : jitInfoLogBuffer ≠ jitErrorLogBuffer := by decide
      rw [captureJitOption]
      split_ifs with h₁ h₂ h₃ <;> simp_all
    rw [List.foldl_cons, ih, captureJitOption_errorLogSize, hstep, List.any_cons]
    by_cases h : o.option = jitErrorLogBuffer <;> simp [h]

/-- **What the server writes** are the outputs that the options ask for. -/
theorem outputs_jitServerState (options : List JitOption) (report : JitReport) :
    (jitServerState options).outputs report = jitOutputs options report := by
  have hlog : ∀ (buffer sizeOption : UInt32) (log : ℕ → UInt8),
      (if (if options.any fun o ↦ o.option = buffer then
          decide (jitOptionSize options sizeOption ≠ 0) else false) = true then
        [(⟨buffer, (List.range (jitOptionSize options sizeOption)).map log⟩ : JitOutput)] else []) =
        jitLogOutput options buffer sizeOption log := by
    intro buffer sizeOption log
    rw [jitLogOutput]
    refine if_congr ?_ rfl rfl
    split_ifs with h
    · rw [decide_eq_true_eq, and_iff_right h]
    · exact iff_of_false (by simp) fun hand ↦ h hand.1
  rw [jitServerState, JitServerState.outputs, jitOutputs, captureWallTime_foldl,
    captureInfoLog_foldl, captureErrorLog_foldl, (foldl_captureJitOption_sizes _ _).1,
    (foldl_captureJitOption_sizes _ _).2, hlog, hlog, Bool.false_or]

/-! ## The request is read

The first read takes the keys and the words, and the second one puts the buffers in place. -/

theorem zipWith_words (options : List JitOption) :
    List.zipWith (fun option value ↦ ⟨UInt32.ofNat option, UInt64.ofNat value⟩)
      ((options.map JitOption.option).map UInt32.toNat)
      ((options.map JitOption.value).map UInt64.toNat) = options := by
  rw [List.map_map, List.map_map, List.zipWith_map, List.zipWith_self]
  refine (List.map_congr_left fun o _ ↦ ?_).trans (List.map_id options)
  rw [Function.comp_apply, Function.comp_apply, UInt32.ofNat_toNat, UInt64.ofNat_toNat, id_eq]

def jitOptionBytes (options : List JitOption) : List UInt8 :=
  leBytes 4 options.length ++
    (((options.map JitOption.option).map UInt32.toNat).flatMap (leBytes 4) ++
      (options.map JitOption.value).flatMap fun value ↦ leBytes 8 value.toNat)

theorem bytes_of_rpcWriteJitOptions {given : JitOptions} {queue queue' : WriteQueue}
    (h : rpcWriteJitOptions given queue = some queue') :
    queue'.bytes = queue.bytes ++ jitOptionBytes given.options := by
  rw [bytes_of_rpcWrites h, flatten_optionPieces, List.length_map, jitOptionBytes]

theorem isSome_rpcWriteJitOptions (given : JitOptions) (queue : WriteQueue) :
    (rpcWriteJitOptions given queue).isSome ↔
      queue.count + (1 + min 1 given.options.length + given.options.length) ≤ intMax := by
  rw [rpcWriteJitOptions, isSome_rpcWrites, length_optionPieces, List.length_map, List.length_map]

theorem reads_rpcReadJitOptionWords (hlength : options.length < 2 ^ 32)
    (h : 0 ≤ staticCastInt (options.length * 4)) :
    rpcReadJitOptionWords.Reads (jitOptionBytes options) options := by
  have hkeys : (rpcReadOptionKeys (options.map JitOption.option).length).Reads _ _ :=
    reads_rpcReadOptionKeys (by rwa [List.length_map])
  have hvalues : ((rpcReadWord 8).times options.length).Reads
      ((options.map JitOption.value).flatMap fun value ↦ leBytes 8 value.toNat)
      ((options.map JitOption.value).map UInt64.toNat) := by
    have htimes := Reader.reads_times (r := rpcReadWord 8) (l := options.map JitOption.value)
      (w := fun value ↦ leBytes 8 value.toNat) (v := UInt64.toNat)
      fun value _ ↦ reads_rpcReadWord (by decide) value.toNat_lt
    rwa [List.length_map] at htimes
  rw [List.length_map] at hkeys
  refine (reads_rpcReadWord (by decide) hlength).bind (hkeys.bind (hvalues.bind_nil ?_))
  rw [zipWith_words]
  exact Reader.reads_pure options

theorem rejects_rpcReadJitOptionWords (hlength : options.length < 2 ^ 32)
    (h : staticCastInt (options.length * 4) < 0) :
    rpcReadJitOptionWords.Rejects (jitOptionBytes options) :=
  (reads_rpcReadWord (by decide) hlength).bind_rejects (rejects_rpcReadOptionKeys h _).bind_left

theorem reads_rpcReadJitOptions (hlength : options.length < 2 ^ 32)
    (h : 0 ≤ staticCastInt (options.length * 4)) (hsizes : ¬JitSizesTooLarge options) :
    rpcReadJitOptions.Reads (jitOptionBytes options) (jitServerState options) := by
  refine (reads_rpcReadJitOptionWords hlength h).bind_nil ?_
  rw [if_neg hsizes]
  exact Reader.reads_pure _

theorem rejects_rpcReadJitOptions (hlength : options.length < 2 ^ 32)
    (h : staticCastInt (options.length * 4) < 0 ∨ JitSizesTooLarge options) :
    rpcReadJitOptions.Rejects (jitOptionBytes options) := by
  by_cases hneg : staticCastInt (options.length * 4) < 0
  · exact (rejects_rpcReadJitOptionWords hlength hneg).bind_left
  · refine (reads_rpcReadJitOptionWords hlength (Int.not_lt.mp hneg)).bind_nil_rejects ?_
    rw [if_pos (h.resolve_left hneg)]
    exact Reader.rejects_failure

end Server

/-! ## The response is stored

An output is as long as the caller has room for it, so it is stored whole. -/

section Client

variable {options : List JitOption} {option : UInt32}

/-- How much the caller has room for at an option. -/
def jitBufferSize (options : List JitOption) (option : UInt32) : ℕ :=
  if option = jitWallTime then 4
  else if option = jitInfoLogBuffer then jitOptionSize options jitInfoLogBufferSizeBytes
  else if option = jitErrorLogBuffer then jitOptionSize options jitErrorLogBufferSizeBytes
  else 0

theorem captureJitClientBindings_eq (options : List JitOption) :
    captureJitClientBindings options = options.filterMap fun o ↦
      if o.value ≠ 0 ∧ jitBufferSize options o.option ≠ 0 then
        some ⟨o.option, o.value.toNat, jitBufferSize options o.option⟩
      else none := by
  refine List.filterMap_congr fun o _ ↦ ?_
  rw [jitBufferSize]
  by_cases hwall : o.option = jitWallTime
  · simp only [hwall, true_and, if_true, and_iff_left (show (4 : ℕ) ≠ 0 by decide)]
    have hinfo : jitWallTime ≠ jitInfoLogBuffer := by decide
    have herror : jitWallTime ≠ jitErrorLogBuffer := by decide
    simp only [hinfo, herror, false_and, if_false]
  · by_cases hinfo : o.option = jitInfoLogBuffer
    · have herror : jitInfoLogBuffer ≠ jitErrorLogBuffer := by decide
      have hwall' : jitInfoLogBuffer ≠ jitWallTime := by decide
      simp only [hinfo, hwall', herror, true_and, false_and, if_true, if_false]
    · by_cases herror : o.option = jitErrorLogBuffer
      · have hwall' : jitErrorLogBuffer ≠ jitWallTime := by decide
        have hinfo' : jitErrorLogBuffer ≠ jitInfoLogBuffer := by decide
        simp only [herror, hwall', hinfo', true_and, false_and, if_true, if_false]
      · simp only [hwall, hinfo, herror, false_and, if_false, ne_eq, not_true, and_false]

/-- **The binding of a kind** of outputs: the first option of it that points somewhere. -/
theorem findJitOutputBinding_capture (h : jitBufferSize options option ≠ 0) :
    findJitOutputBinding (captureJitClientBindings options) option.toNat =
      (firstJitBuffer options option).map
        fun dst ↦ ⟨option, dst, jitBufferSize options option⟩ := by
  have hfind : ∀ l : List JitOption, findJitOutputBinding (l.filterMap fun o ↦
      if o.value ≠ 0 ∧ jitBufferSize options o.option ≠ 0 then
        some ⟨o.option, o.value.toNat, jitBufferSize options o.option⟩
      else none) option.toNat =
        (firstJitBuffer l option).map fun dst ↦ ⟨option, dst, jitBufferSize options option⟩ := by
    intro l
    induction l with
    | nil => rfl
    | cons o l ih =>
      rw [firstJitBuffer] at ih ⊢
      rw [List.filterMap_cons, List.find?_cons]
      by_cases hbound : o.option = option ∧ o.value ≠ 0
      · obtain ⟨rfl, hvalue⟩ := hbound
        have hdst : o.value.toNat ≠ 0 := by simpa [← UInt64.toNat_inj] using hvalue
        simp [hvalue, h, hdst, findJitOutputBinding]
      · rw [decide_eq_false hbound]
        refine Eq.trans ?_ ih
        split_ifs with hsome
        · have hother : ¬o.option = option := fun heq ↦ hbound ⟨heq, hsome.1⟩
          simp [findJitOutputBinding, hother, UInt32.toNat_inj]
        · rfl
  rw [captureJitClientBindings_eq]
  exact hfind options

/-- A kind of which there is no option has no place. -/
theorem firstJitBuffer_of_not_any (h : ¬options.any (fun o ↦ o.option = option) = true) :
    firstJitBuffer options option = none := by
  rw [firstJitBuffer, Option.map_eq_none_iff, List.find?_eq_none]
  intro o ho hfound
  exact h (List.any_eq_true.mpr ⟨o, ho, decide_eq_true (of_decide_eq_true hfound).1⟩)

theorem storedJitOutput_capture {output : JitOutput}
    (h : output.data.length = jitBufferSize options output.option)
    (hne : jitBufferSize options output.option ≠ 0) :
    storedJitOutput (captureJitClientBindings options) output =
      (firstJitBuffer options output.option).map fun dst ↦ (dst, output.data) := by
  rw [storedJitOutput, findJitOutputBinding_capture hne, Option.map_map]
  refine Option.map_congr fun dst _ ↦ ?_
  rw [Function.comp_apply, h, Nat.min_self, ← h, List.take_length]

theorem length_of_mem_jitOutputs_eq {report : JitReport} {output : JitOutput}
    (h : output ∈ jitOutputs options report) :
    output.data.length = jitBufferSize options output.option ∧
      jitBufferSize options output.option ≠ 0 := by
  rw [jitOutputs, List.mem_append, List.mem_append, jitLogOutput, jitLogOutput] at h
  rcases h with h | h | h <;> split_ifs at h with hcaptured
  · obtain rfl := List.mem_singleton.mp h
    exact ⟨length_leBytes _ _, Nat.succ_ne_zero 3⟩
  · exact absurd h List.not_mem_nil
  · obtain rfl := List.mem_singleton.mp h
    exact ⟨by rw [List.length_map, List.length_range]; rfl, hcaptured.2⟩
  · exact absurd h List.not_mem_nil
  · obtain rfl := List.mem_singleton.mp h
    exact ⟨by rw [List.length_map, List.length_range]; rfl, hcaptured.2⟩
  · exact absurd h List.not_mem_nil

theorem filterMap_jitLogOutput (options : List JitOption) (buffer sizeOption : UInt32)
    (log : ℕ → UInt8) :
    ((jitLogOutput options buffer sizeOption log).filterMap fun output ↦
      (firstJitBuffer options output.option).map fun dst ↦ (dst, output.data)) =
        jitLogStore options buffer sizeOption log := by
  rw [jitLogOutput, jitLogStore]
  by_cases hsize : jitOptionSize options sizeOption ≠ 0
  · by_cases hany : options.any (fun o ↦ o.option = buffer) = true
    · rw [if_pos ⟨hany, hsize⟩, if_pos hsize]
      cases hfirst : firstJitBuffer options buffer <;> simp [hfirst]
    · rw [if_neg fun h ↦ hany h.1, if_pos hsize, firstJitBuffer_of_not_any hany]
      rfl
  · rw [if_neg fun h ↦ hsize h.2, if_neg hsize]
    rfl

/-- **What is stored** of the outputs of a report is what belongs in the caller's memory. -/
theorem reduceOption_storedJitOutputs (options : List JitOption) (report : JitReport) :
    ((jitOutputs options report).map (storedJitOutput
      (captureJitClientBindings options))).reduceOption = jitStores options report := by
  have hstored : ((jitOutputs options report).map (storedJitOutput
      (captureJitClientBindings options))).reduceOption =
        (jitOutputs options report).filterMap fun output ↦
          (firstJitBuffer options output.option).map fun dst ↦ (dst, output.data) := by
    rw [List.reduceOption, List.filterMap_map]
    refine List.filterMap_congr fun output houtput ↦ ?_
    obtain ⟨hlength, hne⟩ := length_of_mem_jitOutputs_eq houtput
    exact storedJitOutput_capture hlength hne
  rw [hstored, jitOutputs, List.filterMap_append, List.filterMap_append, filterMap_jitLogOutput,
    filterMap_jitLogOutput, jitStores]
  refine congrArg (· ++ _) ?_
  split_ifs with hany
  · cases hfirst : firstJitBuffer options jitWallTime <;> simp [hfirst]
  · rw [firstJitBuffer_of_not_any hany]
    rfl

/-! ## The whole of it

The client takes a log of at most 16 MiB. -/

/-- A log that is asked for has at most 16 MiB. -/
def JitLogFits (options : List JitOption) (buffer sizeOption : UInt32) : Prop :=
  options.any (fun o ↦ o.option = buffer) → jitOptionSize options sizeOption ≤ maxJitOutputBytes

theorem jitLogFits_iff {buffer sizeOption : UInt32} (log : ℕ → UInt8) :
    JitLogFits options buffer sizeOption ↔
      ∀ output ∈ jitLogOutput options buffer sizeOption log,
        output.data.length ≤ maxJitOutputBytes := by
  rw [JitLogFits, jitLogOutput]
  split_ifs with h
  · rw [List.forall_mem_singleton, List.length_map, List.length_range, imp_iff_right h.1]
  · refine iff_of_true (fun hany ↦ ?_) fun _ hmem ↦ absurd hmem List.not_mem_nil
    rw [not_and, not_not] at h
    rw [h hany]
    exact Nat.zero_le _

theorem jitLogsFit_iff (report : JitReport) :
    (JitLogFits options jitInfoLogBuffer jitInfoLogBufferSizeBytes ∧
      JitLogFits options jitErrorLogBuffer jitErrorLogBufferSizeBytes) ↔
        ∀ output ∈ jitOutputs options report, output.data.length ≤ maxJitOutputBytes := by
  rw [jitOutputs, List.forall_mem_append, List.forall_mem_append,
    jitLogFits_iff report.infoLog, jitLogFits_iff report.errorLog]
  refine (and_iff_right ?_).symm
  intro output houtput
  split_ifs at houtput
  · rw [List.mem_singleton.mp houtput, length_leBytes]
    decide
  · exact absurd houtput List.not_mem_nil

/-- **JIT outputs** come back exactly when the options find no room, or when they are read, no
vector is asked for too much, and no log that is asked for has more than 16 MiB. -/
theorem jitOutputsRight_iff (given : JitOptions) (queue : WriteQueue) (report : JitReport) :
    JitOutputsRight given queue report ↔
      intMax < queue.count + (1 + min 1 given.options.length + given.options.length) ∨
        (0 ≤ staticCastInt (given.options.length * 4) ∧ ¬JitSizesTooLarge given.options ∧
          JitLogFits given.options jitInfoLogBuffer jitInfoLogBufferSizeBytes ∧
          JitLogFits given.options jitErrorLogBuffer jitErrorLogBufferSizeBytes) := by
  have hroom := isSome_rpcWriteJitOptions given queue
  have hcount : (jitOutputs given.options report).length ≤ 32 :=
    (length_jitOutputs_le given.options report).trans (by decide)
  rw [jitLogsFit_iff report]
  constructor
  · intro hright
    rw [or_iff_not_imp_left, not_lt]
    intro hle
    obtain ⟨queue', hqueue⟩ := Option.isSome_iff_exists.mp (hroom.mpr hle)
    obtain ⟨written, state, stored, hwritten, hstate, hread, -⟩ := hright queue' hqueue
    rw [bytes_of_rpcWriteJitOptions hqueue] at hwritten
    obtain rfl := List.append_cancel_left hwritten
    have hpos : 0 ≤ staticCastInt (given.options.length * 4) := by
      by_contra hneg
      exact (rejects_rpcReadJitOptions given.length_options
        (Or.inl (Int.not_le.mp hneg))).not_reads hstate
    have hsizes : ¬JitSizesTooLarge given.options := fun hlarge ↦
      (rejects_rpcReadJitOptions given.length_options (Or.inr hlarge)).not_reads hstate
    obtain rfl := hstate.unique (reads_rpcReadJitOptions given.length_options hpos hsizes)
    rw [outputs_jitServerState] at hread
    refine ⟨hpos, hsizes, fun output houtput ↦ ?_⟩
    by_contra hlarge
    exact (rejects_rpcReadJitOutputs hcount (fun _ ↦ length_of_mem_jitOutputs)
      ⟨output, houtput, Nat.not_le.mp hlarge⟩).not_reads hread
  · rintro (hfull | ⟨hpos, hsizes, hfit⟩) queue' hqueue
    · have hle := hroom.mp (Option.isSome_iff_exists.mpr ⟨queue', hqueue⟩)
      exact absurd hle hfull.not_ge
    · refine ⟨_, _, _, bytes_of_rpcWriteJitOptions hqueue,
        reads_rpcReadJitOptions given.length_options hpos hsizes, ?_,
        reduceOption_storedJitOutputs given.options report⟩
      rw [outputs_jitServerState]
      exact reads_rpcReadJitOutputs hcount hfit

/-- A caller asks for an error log and has room for one byte more than 16 MiB. -/
def largeErrorLog : JitOptions where
  options := [⟨jitErrorLogBuffer, 4096⟩, ⟨jitErrorLogBufferSizeBytes, 16777217⟩]
  length_options := by decide

/-- The server writes the log and the client gives up on it. -/
theorem largeErrorLog_not_read :
    ¬JitOutputsRight largeErrorLog ⟨3, [], by decide⟩ ⟨0, fun _ ↦ 0, fun _ ↦ 0⟩ := by
  intro hright
  have hqueue : rpcWriteJitOptions largeErrorLog ⟨3, [], by decide⟩ = some _ := rfl
  obtain ⟨written, state, stored, hwritten, hstate, hread, -⟩ := hright _ hqueue
  rw [bytes_of_rpcWriteJitOptions hqueue] at hwritten
  obtain rfl := List.append_cancel_left hwritten
  have hsizes : ¬JitSizesTooLarge largeErrorLog.options := by decide
  obtain rfl := hstate.unique (reads_rpcReadJitOptions largeErrorLog.length_options
    (staticCastInt_nonneg (by decide)) hsizes)
  rw [outputs_jitServerState] at hread
  refine absurd (rejects_rpcReadJitOutputs ((length_jitOutputs_le _ _).trans (by decide))
    (fun _ ↦ length_of_mem_jitOutputs) ?_) (fun hrejects ↦ hrejects.not_reads hread)
  by_contra hall
  push Not at hall
  obtain ⟨-, hfit⟩ := (jitLogsFit_iff _).mpr hall
  exact absurd (hfit (by decide)) (by decide +kernel)

end Client

end Lupine
