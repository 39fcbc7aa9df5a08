import Lupine.Cuda
import Lupine.Transport.Words

/-!
# The outputs of the JIT compiler

A request that compiles code sends its JIT options along. Three of them ask for an output: the time
the compiler took, and what it has to say in two logs, whose sizes are options too. The response
brings the outputs back, and the client stores them where the options point.

## Sizes

The server sends the whole buffer of a log, which has the size that the caller gave. The client
takes no output of more than 16 MiB: it gives up, with the output still inbound.
-/

open Foundation

namespace Lupine

/-! ## Options

A size option may stand before or behind its buffer. -/

/-- A JIT option and its value, which is a word. -/
structure JitOption where
  option : UInt32
  value : UInt64
  deriving DecidableEq, Repr

/-- `CU_JIT_WALL_TIME`. -/
def jitWallTime : UInt32 := 2

/-- `CU_JIT_INFO_LOG_BUFFER`. -/
def jitInfoLogBuffer : UInt32 := 3

/-- `CU_JIT_INFO_LOG_BUFFER_SIZE_BYTES`. -/
def jitInfoLogBufferSizeBytes : UInt32 := 4

/-- `CU_JIT_ERROR_LOG_BUFFER`. -/
def jitErrorLogBuffer : UInt32 := 5

/-- `CU_JIT_ERROR_LOG_BUFFER_SIZE_BYTES`. -/
def jitErrorLogBufferSizeBytes : UInt32 := 6

/-- The client's `lupine_jit_option_size` and the server's `rpc_find_jit_size_option`. -/
def jitOptionSize (options : List JitOption) (sizeOption : UInt32) : ℕ :=
  match options.find? fun o ↦ o.option = sizeOption with
  | some o => o.value.toNat
  | none => 0

/-! ## The server

The outputs are in the order of the source, at most one of each kind. -/

/-- What the compiler writes: the bits of the wall time, and the bytes of the logs. -/
structure JitReport where
  wallTime : UInt32
  infoLog : ℕ → UInt8
  errorLog : ℕ → UInt8

structure JitOutput where
  option : UInt32
  data : List UInt8
  deriving DecidableEq, Repr

/-- A log is captured when it is asked for and has a size. -/
def jitLogOutput (options : List JitOption) (buffer sizeOption : UInt32) (log : ℕ → UInt8) :
    List JitOutput :=
  if options.any (fun o ↦ o.option = buffer) ∧ jitOptionSize options sizeOption ≠ 0 then
    [⟨buffer, (List.range (jitOptionSize options sizeOption)).map log⟩]
  else []

/-- The outputs that `rpc_read_jit_options` captures and `rpc_write_jit_outputs` collects. -/
def jitOutputs (options : List JitOption) (report : JitReport) : List JitOutput :=
  (if options.any (fun o ↦ o.option = jitWallTime) then
    [⟨jitWallTime, leBytes 4 report.wallTime.toNat⟩] else []) ++
    (jitLogOutput options jitInfoLogBuffer jitInfoLogBufferSizeBytes report.infoLog ++
      jitLogOutput options jitErrorLogBuffer jitErrorLogBufferSizeBytes report.errorLog)

def writeJitOutput (output : JitOutput) : List UInt8 :=
  leBytes 4 output.option.toNat ++ (leBytes 8 output.data.length ++ output.data)

/-- `rpc_write_jit_outputs`. -/
def rpcWriteJitOutputs (outputs : List JitOutput) : List UInt8 :=
  leBytes 4 outputs.length ++ outputs.flatMap writeJitOutput

/-! ## The client

An output without a binding is read and dropped. -/

/-- `rpc_jit_output_binding`. -/
structure JitBinding where
  option : UInt32
  dst : HostPtr
  size : ℕ
  deriving DecidableEq, Repr

/-- `lupine_capture_jit_client_bindings`. -/
def captureJitClientBindings (options : List JitOption) : List JitBinding :=
  options.filterMap fun o ↦
    if o.option = jitWallTime ∧ o.value ≠ 0 then some ⟨o.option, o.value.toNat, 4⟩
    else if o.option = jitInfoLogBuffer ∧ o.value ≠ 0 ∧
        jitOptionSize options jitInfoLogBufferSizeBytes ≠ 0 then
      some ⟨o.option, o.value.toNat, jitOptionSize options jitInfoLogBufferSizeBytes⟩
    else if o.option = jitErrorLogBuffer ∧ o.value ≠ 0 ∧
        jitOptionSize options jitErrorLogBufferSizeBytes ≠ 0 then
      some ⟨o.option, o.value.toNat, jitOptionSize options jitErrorLogBufferSizeBytes⟩
    else none

/-- `rpc_find_jit_output_binding`. -/
def findJitOutputBinding (bindings : List JitBinding) (option : ℕ) : Option JitBinding :=
  bindings.find? fun b ↦ b.option.toNat = option ∧ b.dst ≠ 0

/-- The largest output that the client takes. -/
def maxJitOutputBytes : ℕ := 16 * 2 ^ 20

/-- One output: where it is stored, and what. -/
def readJitOutput (bindings : List JitBinding) : Reader UInt8 (Option (HostPtr × List UInt8)) := do
  let option ← rpcReadWord 4
  let payloadSize ← rpcReadWord 8
  if maxJitOutputBytes < payloadSize then failure
  else
    let binding := findJitOutputBinding bindings option
    let directSize := (binding.map fun b ↦ min b.size payloadSize).getD 0
    let stored ← if directSize ≠ 0 then rpcReadBytes directSize else pure []
    rpcDrainBytes (payloadSize - directSize)
    pure (binding.map fun b ↦ (b.dst, stored))

/-- `rpc_read_jit_outputs`. -/
def rpcReadJitOutputs (bindings : List JitBinding) :
    Reader UInt8 (List (Option (HostPtr × List UInt8))) := do
  let outputCount ← rpcReadWord 4
  if 32 < outputCount then failure else (readJitOutput bindings).times outputCount

/-! ## What is sent is read

Both directions are shown: an output that the client takes is read exactly, and a larger one ends
the reading. -/

section Read

variable {bindings : List JitBinding} {output : JitOutput}

def storedJitOutput (bindings : List JitBinding) (output : JitOutput) :
    Option (HostPtr × List UInt8) :=
  (findJitOutputBinding bindings output.option.toNat).map fun b ↦
    (b.dst, output.data.take (min b.size output.data.length))

theorem reads_jitOutput (h : output.data.length ≤ maxJitOutputBytes) :
    (readJitOutput bindings).Reads (writeJitOutput output) (storedJitOutput bindings output) := by
  have hmax : maxJitOutputBytes < 2 ^ 31 := by decide
  have hlength : output.data.length < 256 ^ 8 := by omega
  refine (reads_rpcReadWord (by decide) output.option.toNat_lt).bind
    ((reads_rpcReadWord (by decide) hlength).bind ?_)
  rw [if_neg h.not_gt]
  cases hbinding : findJitOutputBinding bindings output.option.toNat with
  | none =>
    have hnothing : (storedJitOutput bindings output) = none := by
      rw [storedJitOutput, hbinding, Option.map_none]
    have hdrain := reads_rpcDrainBytes output.data
    rw [hnothing]
    exact (Reader.reads_pure (ι := UInt8) ([] : List UInt8)).bind hdrain.bind_pure
  | some b =>
    -- the part that is bound is stored, and the rest is drained
    obtain ⟨n, hn⟩ : ∃ n, min b.size output.data.length = n := ⟨_, rfl⟩
    have hle : n ≤ output.data.length := hn ▸ Nat.min_le_right _ _
    have htake : (output.data.take n).length = n := List.length_take_of_le hle
    have hdrain := reads_rpcDrainBytes (output.data.drop n)
    rw [List.length_drop] at hdrain
    rw [storedJitOutput, hbinding, Option.map_some, hn]
    simp only [Option.map_some, Option.getD_some, hn]
    by_cases hzero : n = 0
    · subst hzero
      exact (Reader.reads_pure (ι := UInt8) ([] : List UInt8)).bind hdrain.bind_pure
    · rw [if_pos hzero]
      have hstore : (rpcReadBytes n).Reads (output.data.take n) (output.data.take n) :=
        reads_rpcReadBytes htake (staticCastInt_nonneg (by omega))
      have hboth := hstore.bind (f := fun stored ↦ rpcDrainBytes (output.data.length - n) >>=
        fun _ ↦ pure (some (b.dst, stored))) hdrain.bind_pure
      rwa [List.take_append_drop] at hboth

theorem rejects_jitOutput (h : maxJitOutputBytes < output.data.length)
    (hlength : output.data.length < 2 ^ 64) :
    (readJitOutput bindings).Rejects (writeJitOutput output) := by
  refine (reads_rpcReadWord (by decide) output.option.toNat_lt).bind_rejects
    ((reads_rpcReadWord (by decide) hlength).bind_rejects ?_)
  rw [if_pos h]
  exact Reader.rejects_failure

theorem length_jitOutputs_le (options : List JitOption) (report : JitReport) :
    (jitOutputs options report).length ≤ 3 := by
  have hlog : ∀ buffer size log, (jitLogOutput options buffer size log).length ≤ 1 := by
    intro buffer size log
    rw [jitLogOutput]
    split_ifs <;> simp
  have hwall : (if options.any (fun o ↦ o.option = jitWallTime) then
      [(⟨jitWallTime, leBytes 4 report.wallTime.toNat⟩ : JitOutput)] else []).length ≤ 1 := by
    split_ifs <;> simp
  have hinfo := hlog jitInfoLogBuffer jitInfoLogBufferSizeBytes report.infoLog
  have herror := hlog jitErrorLogBuffer jitErrorLogBufferSizeBytes report.errorLog
  rw [jitOutputs, List.length_append, List.length_append]
  omega

/-- A log has the size that the options give. -/
theorem length_of_mem_jitOutputs {options : List JitOption} {report : JitReport}
    (h : output ∈ jitOutputs options report) : output.data.length < 2 ^ 64 := by
  have hsize : ∀ sizeOption, jitOptionSize options sizeOption < 2 ^ 64 := by
    intro sizeOption
    rw [jitOptionSize]
    split
    · exact UInt64.toNat_lt _
    · decide
  have hlog : ∀ buffer size log, output ∈ jitLogOutput options buffer size log →
      output.data.length < 2 ^ 64 := by
    intro buffer size log hmem
    rw [jitLogOutput] at hmem
    split_ifs at hmem with hcaptured
    · rw [List.mem_singleton.mp hmem, List.length_map, List.length_range]
      exact hsize size
    · exact absurd hmem List.not_mem_nil
  rw [jitOutputs, List.mem_append, List.mem_append] at h
  rcases h with h | h | h
  · split_ifs at h with hwall
    · rw [List.mem_singleton.mp h, length_leBytes]
      decide
    · exact absurd h List.not_mem_nil
  · exact hlog _ _ _ h
  · exact hlog _ _ _ h

/-- **JIT outputs** of up to 16 MiB are read. -/
theorem reads_rpcReadJitOutputs {outputs : List JitOutput} (hcount : outputs.length ≤ 32)
    (h : ∀ output ∈ outputs, output.data.length ≤ maxJitOutputBytes) :
    (rpcReadJitOutputs bindings).Reads (rpcWriteJitOutputs outputs)
      (outputs.map (storedJitOutput bindings)) := by
  refine (reads_rpcReadWord (by decide) (by omega)).bind ?_
  rw [if_neg hcount.not_gt]
  exact Reader.reads_times fun output houtput ↦ reads_jitOutput (h output houtput)

/-- A larger one ends the reading. -/
theorem rejects_rpcReadJitOutputs {outputs : List JitOutput} (hcount : outputs.length ≤ 32)
    (hlength : ∀ output ∈ outputs, output.data.length < 2 ^ 64)
    (h : ∃ output ∈ outputs, maxJitOutputBytes < output.data.length) :
    (rpcReadJitOutputs bindings).Rejects (rpcWriteJitOutputs outputs) := by
  obtain ⟨large, hlarge, hsize⟩ := h
  refine (reads_rpcReadWord (by decide) (by omega)).bind_rejects ?_
  rw [if_neg hcount.not_gt]
  refine Reader.rejects_times (v := storedJitOutput bindings) (fun output houtput ↦ ?_)
    ⟨large, hlarge, rejects_jitOutput hsize (hlength large hlarge)⟩
  rcases Nat.lt_or_ge maxJitOutputBytes output.data.length with hlt | hle
  · exact Or.inr (rejects_jitOutput hlt (hlength output houtput))
  · exact Or.inl (reads_jitOutput hle)

end Read

end Lupine
