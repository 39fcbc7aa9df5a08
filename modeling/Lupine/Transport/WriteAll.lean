import Lupine.Transport.Words

/-!
# Writing all of a frame

`h2_write_all` writes a list of fragments to a socket, or through TLS. A write may take less than it
is offered, so the loop goes on from where the last one stopped. On a socket it offers up to 512
fragments at once. Through TLS it offers one, or a batch of small ones, which are copied together.

## Where a write stops

The cursor is moved over all that was written, and over empty fragments that follow. So the next
write begins with a byte. Only the first one may not: a write of nothing returns 0, which the loop
takes for a failure.

## The fuel

How often a write is put off is up to the layer, so the loop has fuel. A layer makes progress if it
puts no write off for ever; with such a layer there is an amount of fuel that is enough, and more
does not change the outcome.
-/

namespace Lupine

/-! ## Batches

A batch takes fragments from the front until one is too large or the buffer is full. -/

/-- `kH2TlsCoalesceCapacity`. -/
def tlsCoalesceCapacity : ℕ := 4 * 1024

/-- `kH2TlsCoalesceFragmentMax`. -/
def tlsCoalesceFragmentMax : ℕ := 256

/-- `kH2MaxSendIov`. -/
def maxSendIov : ℕ := 512

/-- `h2_tls_batch`. -/
structure TlsBatch where
  count : ℕ := 0
  size : ℕ := 0
  deriving DecidableEq, Repr

/-- The loop of `h2_plan_tls_batch`. -/
def extendTlsBatch : List (List UInt8) → TlsBatch → TlsBatch
  | [], batch => batch
  | fragment :: iov, batch =>
    if tlsCoalesceFragmentMax < fragment.length ∨
        tlsCoalesceCapacity - batch.size < fragment.length then batch
    else extendTlsBatch iov ⟨batch.count + 1, batch.size + fragment.length⟩

/-- `h2_plan_tls_batch`. -/
def planTlsBatch (iov : List (List UInt8)) : TlsBatch :=
  let batch := extendTlsBatch iov {}
  if batch.count < 2 then {} else batch

/-! ## The loop

What the next write offers is decided by the cursor alone. The writes turn out as a function of
their number and of how much they offer. -/

/-- How a write turns out: so many bytes are taken; or it was interrupted, or TLS wants to read or
write first; or it failed. -/
inductive WriteResult where
  | wrote (n : ℕ)
  | again
  | failed
  deriving DecidableEq, Repr

def offeredBytes (tls : Bool) (iov : List (List UInt8)) : List UInt8 :=
  if tls then
    let batch := planTlsBatch iov
    let data := if batch.count ≠ 0 then (iov.take batch.count).flatten else iov.headD []
    data.take intMax
  else (iov.take maxSendIov).flatten

/-- The cursor is moved over what was written. -/
def advanceIov : ℕ → List (List UInt8) → List (List UInt8)
  | _, [] => []
  | written, fragment :: iov =>
    if fragment.length ≤ written then advanceIov (written - fragment.length) iov
    else fragment.drop written :: iov

/-- `h2_write_all`: what it returns, and what went over the wire. The writes turn out as `result`
says, by their number and by how much they offer. The loop around `SSL_write` offers the same again,
as the outer loop would. -/
def h2WriteAll (tls : Bool) (result : ℕ → ℕ → WriteResult) :
    ℕ → List (List UInt8) → ℕ → List UInt8 → Option (ℤ × List UInt8)
  | _, [], _, wire => some (0, wire)
  | 0, _ :: _, _, _ => none
  | fuel + 1, fragment :: iov, attempt, wire =>
    let data := offeredBytes tls (fragment :: iov)
    match result attempt data.length with
    | .failed => some (-1, wire)
    | .again => h2WriteAll tls result fuel (fragment :: iov) (attempt + 1) wire
    | .wrote n =>
      -- for TLS, the error of a write that returns 0 is none of the two that are tried again
      if n = 0 then some (-1, wire)
      else
        h2WriteAll tls result fuel (advanceIov n (fragment :: iov)) (attempt + 1)
          (wire ++ data.take n)

/-- A layer whose writes make progress: a write does not fail, and is not put off for ever; it takes
something of what it is offered, if it is offered anything. -/
structure WriteLayer where
  result : ℕ → ℕ → WriteResult
  not_failed : ∀ attempt size, result attempt size ≠ .failed
  wrote_le : ∀ attempt size n, result attempt size = .wrote n → n ≤ size
  wrote_pos : ∀ attempt size n, result attempt size = .wrote n → 0 < size → 0 < n
  progress : ∀ attempt size, ∃ later, result (attempt + later) size ≠ .again

/-! ## What is to be shown

The loop should end with everything written. It does unless the first write offers nothing. -/

/-- A batch is fragments from the front, none skipped and none twice, which fit the buffer. -/
structure PlanRight (iov : List (List UInt8)) (batch : TlsBatch) : Prop where
  count_le : batch.count ≤ iov.length
  size_eq : batch.size = (iov.take batch.count).flatten.length
  size_le : batch.size ≤ tlsCoalesceCapacity
  count_ne : batch.count ≠ 1

/-- The loop comes to its end with all fragments written, and the batch of a write is right. -/
def WriteAllRight (tls : Bool) (layer : WriteLayer) (iov : List (List UInt8)) : Prop :=
  PlanRight iov (planTlsBatch iov) ∧
    ∃ fuel, ∀ more, h2WriteAll tls layer.result (fuel + more) iov 0 [] = some (0, iov.flatten)

/-- The first write offers something: on a socket, one of the first 512 fragments is not empty;
through TLS, the first fragment is not empty, or the first one that is not empty is small. -/
def StartsWriting (tls : Bool) (iov : List (List UInt8)) : Prop :=
  iov ≠ [] →
    if tls then iov.head? ≠ some [] ∨
      ∃ fragment ∈ iov.find? fun fragment ↦ fragment ≠ [], fragment.length ≤ tlsCoalesceFragmentMax
    else ∃ fragment ∈ iov.take maxSendIov, fragment ≠ []

/-! ## Batches are right

From no bytes the loop plans some when the first fragment that is not empty is small. -/

section Plan

variable {iov : List (List UInt8)} {batch : TlsBatch}

theorem extendTlsBatch_spec (iov : List (List UInt8)) (batch : TlsBatch)
    (h : batch.size ≤ tlsCoalesceCapacity) :
    ∃ k ≤ iov.length, (extendTlsBatch iov batch).count = batch.count + k ∧
      (extendTlsBatch iov batch).size = batch.size + (iov.take k).flatten.length ∧
      (extendTlsBatch iov batch).size ≤ tlsCoalesceCapacity := by
  induction iov generalizing batch with
  | nil => exact ⟨0, le_rfl, rfl, rfl, h⟩
  | cons fragment iov ih =>
    rw [extendTlsBatch]
    split_ifs with hlarge
    · exact ⟨0, Nat.zero_le _, rfl, rfl, h⟩
    · rw [not_or, Nat.not_lt, Nat.not_lt] at hlarge
      have hfits : batch.size + fragment.length ≤ tlsCoalesceCapacity := by omega
      obtain ⟨k, hk, hcount, hsize, hle⟩ := ih ⟨batch.count + 1, batch.size + fragment.length⟩ hfits
      refine ⟨k + 1, Nat.succ_le_succ hk, ?_, ?_, hle⟩
      · rw [hcount]
        exact Nat.add_right_comm _ _ _
      · rw [hsize, List.take_succ_cons, List.flatten_cons, List.length_append]
        exact Nat.add_assoc _ _ _

theorem planTlsBatch_right (iov : List (List UInt8)) : PlanRight iov (planTlsBatch iov) := by
  obtain ⟨k, hk, hcount, hsize, hle⟩ := extendTlsBatch_spec iov {} (Nat.zero_le _)
  rw [Nat.zero_add] at hcount hsize
  rw [planTlsBatch]
  split_ifs with hfew
  · exact ⟨Nat.zero_le _, rfl, Nat.zero_le _, Nat.zero_ne_one⟩
  · refine ⟨hcount ▸ hk, ?_, hle, by omega⟩
    rw [hsize, hcount]

theorem extendTlsBatch_size_ne_zero (iov : List (List UInt8)) (count : ℕ) :
    (extendTlsBatch iov ⟨count, 0⟩).size ≠ 0 ↔
      ∃ fragment ∈ iov.find? fun fragment ↦ fragment ≠ [],
        fragment.length ≤ tlsCoalesceFragmentMax := by
  induction iov generalizing count with
  | nil => exact iff_of_false (not_not.mpr rfl) (by simp)
  | cons fragment iov ih =>
    have hfragment : tlsCoalesceFragmentMax ≤ tlsCoalesceCapacity := by decide
    rw [extendTlsBatch, List.find?_cons]
    rcases eq_or_ne fragment [] with rfl | hne
    · exact ih (count + 1)
    · rw [decide_eq_true hne]
      split_ifs with hlarge
      · refine iff_of_false (not_not.mpr rfl) ?_
        rintro ⟨_, ⟨⟩, hsmall⟩
        dsimp only at hlarge
        omega
      · rw [not_or, Nat.not_lt, Nat.not_lt] at hlarge
        have hpos := List.length_pos_of_ne_nil hne
        obtain ⟨k, -, -, hsize, -⟩ := extendTlsBatch_spec iov ⟨count + 1, 0 + fragment.length⟩
          (by dsimp only; omega)
        refine iff_of_true ?_ ⟨fragment, rfl, hlarge.1⟩
        rw [hsize]
        dsimp only
        omega

end Plan

/-! ## The cursor

After a write the cursor stops at a byte, and what is left is what was not written. A write that
begins with a byte offers it. -/

section Cursor

variable {tls : Bool} {iov : List (List UInt8)} {fragment : List UInt8}

theorem flatten_advanceIov (written : ℕ) (iov : List (List UInt8)) :
    (advanceIov written iov).flatten = iov.flatten.drop written := by
  induction iov generalizing written with
  | nil => exact List.drop_nil.symm
  | cons fragment iov ih =>
    rw [advanceIov, List.flatten_cons, List.drop_append]
    split_ifs with hwhole
    · rw [ih, List.drop_of_length_le hwhole, List.nil_append]
    · rw [List.flatten_cons, Nat.sub_eq_zero_of_le (Nat.le_of_not_le hwhole), List.drop_zero]

theorem advanceIov_head (written : ℕ) (iov : List (List UInt8)) :
    advanceIov written iov = [] ∨
      ∃ fragment rest, advanceIov written iov = fragment :: rest ∧ fragment ≠ [] := by
  induction iov generalizing written with
  | nil => exact Or.inl rfl
  | cons fragment iov ih =>
    rw [advanceIov]
    split_ifs with hwhole
    · exact ih _
    · refine Or.inr ⟨_, _, rfl, fun hnil ↦ hwhole ?_⟩
      exact List.drop_eq_nil_iff.mp hnil

theorem flatten_take_prefix (k : ℕ) (iov : List (List UInt8)) :
    (iov.take k).flatten <+: iov.flatten := by
  refine ⟨(iov.drop k).flatten, ?_⟩
  rw [← List.flatten_append, List.take_append_drop]

theorem offeredBytes_prefix (tls : Bool) (iov : List (List UInt8)) :
    offeredBytes tls iov <+: iov.flatten := by
  rw [offeredBytes]
  split_ifs with htls
  · refine (List.take_prefix _ _).trans ?_
    split_ifs with hbatch
    · exact flatten_take_prefix _ _
    · cases iov with
      | nil => exact List.prefix_refl _
      | cons fragment iov => exact ⟨iov.flatten, rfl⟩
  · exact flatten_take_prefix _ _

theorem take_intMax_ne_nil {data : List UInt8} : data.take intMax ≠ [] ↔ data ≠ [] := by
  have hpos : intMax ≠ 0 := by decide
  rw [ne_eq, List.take_eq_nil_iff, or_iff_right hpos]

theorem flatten_take_ne_nil {k : ℕ} (hk : k ≠ 0) (hne : fragment ≠ []) :
    ((fragment :: iov).take k).flatten ≠ [] := by
  obtain ⟨k, rfl⟩ := Nat.exists_eq_succ_of_ne_zero hk
  rw [List.take_succ_cons, List.flatten_cons]
  exact List.append_ne_nil_of_left_ne_nil hne _

theorem offeredBytes_ne_nil (tls : Bool) (iov : List (List UInt8)) (hne : fragment ≠ []) :
    offeredBytes tls (fragment :: iov) ≠ [] := by
  rw [offeredBytes]
  split_ifs with htls
  · rw [take_intMax_ne_nil]
    split_ifs with hbatch
    · exact flatten_take_ne_nil hbatch hne
    · exact hne
  · exact flatten_take_ne_nil (by decide) hne

/-- A batch with bytes in it has more than the empty fragment that it begins with. -/
theorem planTlsBatch_of_empty (iov : List (List UInt8)) :
    (if (planTlsBatch ([] :: iov)).count ≠ 0 then
      (([] :: iov).take (planTlsBatch ([] :: iov)).count).flatten else []) ≠ [] ↔
        (extendTlsBatch ([] :: iov) {}).size ≠ 0 := by
  obtain ⟨k, -, hcount, hsize, -⟩ := extendTlsBatch_spec ([] :: iov) {} (Nat.zero_le _)
  rw [Nat.zero_add] at hcount hsize
  rw [planTlsBatch, hsize, hcount]
  by_cases hfew : k < 2
  · have hempty : (([] :: iov).take k).flatten = [] := by
      rcases Nat.le_one_iff_eq_zero_or_eq_one.mp (Nat.le_of_lt_succ hfew) with rfl | rfl <;> rfl
    rw [if_pos hfew, hempty]
    exact iff_of_false (not_not.mpr rfl) (not_not.mpr rfl)
  · rw [if_neg hfew, hcount, if_pos (by omega)]
    exact not_congr List.length_eq_zero_iff.symm

/-- **The first write** offers something exactly when the fragments start so. -/
theorem offeredBytes_ne_nil_iff (hne : iov ≠ []) :
    offeredBytes tls iov ≠ [] ↔ StartsWriting tls iov := by
  rw [StartsWriting, imp_iff_right hne, offeredBytes]
  cases tls with
  | false =>
    simp only [Bool.false_eq_true, if_false]
    rw [ne_eq, List.flatten_eq_nil_iff]
    push Not
    rfl
  | true =>
    simp only [if_true]
    rw [take_intMax_ne_nil]
    obtain ⟨fragment, iov, rfl⟩ := List.exists_cons_of_ne_nil hne
    rcases eq_or_ne fragment [] with rfl | hfragment
    · rw [List.headD_cons, planTlsBatch_of_empty, extendTlsBatch_size_ne_zero, List.head?_cons]
      exact (or_iff_right (not_not.mpr rfl)).symm
    · refine iff_of_true ?_ (Or.inl fun h ↦ hfragment (Option.some.inj h))
      have hoffered := offeredBytes_ne_nil true iov hfragment
      rw [offeredBytes, if_pos rfl, take_intMax_ne_nil] at hoffered
      exact hoffered

end Cursor

/-! ## The run

A write that takes something leaves the rest to the next one, and one that is put off is tried
again. A write of nothing is taken for a failure, which can only be the first. -/

section Run

variable {tls : Bool} {layer : WriteLayer} {iov : List (List UInt8)}

theorem h2WriteAll_of_wrote {attempt n : ℕ} (hne : iov ≠ [])
    (hwrote : layer.result attempt (offeredBytes tls iov).length = .wrote n) (hpos : 0 < n)
    (fuel : ℕ) (wire : List UInt8) :
    h2WriteAll tls layer.result (fuel + 1) iov attempt wire =
      h2WriteAll tls layer.result fuel (advanceIov n iov) (attempt + 1)
        (wire ++ (offeredBytes tls iov).take n) := by
  obtain ⟨fragment, rest, rfl⟩ := List.exists_cons_of_ne_nil hne
  rw [h2WriteAll, hwrote]
  dsimp only
  rw [if_neg (Nat.ne_of_gt hpos)]

theorem h2WriteAll_of_again {attempt : ℕ} (hne : iov ≠ [])
    (hagain : layer.result attempt (offeredBytes tls iov).length = .again)
    (fuel : ℕ) (wire : List UInt8) :
    h2WriteAll tls layer.result (fuel + 1) iov attempt wire =
      h2WriteAll tls layer.result fuel iov (attempt + 1) wire := by
  obtain ⟨fragment, rest, rfl⟩ := List.exists_cons_of_ne_nil hne
  rw [h2WriteAll, hagain]

theorem exists_wrote {attempt : ℕ} (hoffered : offeredBytes tls iov ≠ [])
    (h : layer.result attempt (offeredBytes tls iov).length ≠ .again) :
    ∃ n, layer.result attempt (offeredBytes tls iov).length = .wrote n ∧ 0 < n ∧
      n ≤ (offeredBytes tls iov).length := by
  cases hresult : layer.result attempt (offeredBytes tls iov).length with
  | failed => exact absurd hresult (layer.not_failed _ _)
  | again => exact absurd hresult h
  | wrote n =>
    have hpos := layer.wrote_pos _ _ _ hresult (List.length_pos_of_ne_nil hoffered)
    exact ⟨n, rfl, hpos, layer.wrote_le _ _ _ hresult⟩

/-- It is tried until it takes some. -/
theorem exists_write (hne : iov ≠ []) (hoffered : offeredBytes tls iov ≠ []) (later : ℕ)
    (attempt : ℕ)
    (hlater : layer.result (attempt + later) (offeredBytes tls iov).length ≠ .again) :
    ∃ n tries, 0 < n ∧ n ≤ (offeredBytes tls iov).length ∧ ∀ fuel wire,
      h2WriteAll tls layer.result (fuel + tries) iov attempt wire =
        h2WriteAll tls layer.result fuel (advanceIov n iov) (attempt + tries)
          (wire ++ (offeredBytes tls iov).take n) := by
  induction later generalizing attempt with
  | zero =>
    obtain ⟨n, hwrote, hpos, hle⟩ := exists_wrote hoffered hlater
    exact ⟨n, 1, hpos, hle, h2WriteAll_of_wrote hne hwrote hpos⟩
  | succ later ih =>
    by_cases hagain : layer.result attempt (offeredBytes tls iov).length = .again
    · rw [← Nat.add_assoc, Nat.add_right_comm] at hlater
      obtain ⟨n, tries, hpos, hle, hrun⟩ := ih (attempt + 1) hlater
      refine ⟨n, tries + 1, hpos, hle, fun fuel wire ↦ ?_⟩
      rw [← Nat.add_assoc, h2WriteAll_of_again hne hagain, hrun, Nat.add_right_comm attempt,
        Nat.add_assoc]
    · obtain ⟨n, hwrote, hpos, hle⟩ := exists_wrote hoffered hagain
      exact ⟨n, 1, hpos, hle, h2WriteAll_of_wrote hne hwrote hpos⟩

/-- **All is written**, from a cursor whose first write offers something. -/
theorem h2WriteAll_of_offered (layer : WriteLayer) (size : ℕ) (iov : List (List UInt8))
    (hsize : iov.flatten.length ≤ size) (hoffered : iov ≠ [] → offeredBytes tls iov ≠ [])
    (attempt : ℕ) (wire : List UInt8) :
    ∃ fuel, h2WriteAll tls layer.result fuel iov attempt wire = some (0, wire ++ iov.flatten) := by
  induction size generalizing iov attempt wire with
  | zero =>
    rcases eq_or_ne iov [] with rfl | hne
    · exact ⟨0, by rw [h2WriteAll, List.flatten_nil, List.append_nil]⟩
    · -- nothing is left, so nothing can be offered
      have hnil := List.length_eq_zero_iff.mp (Nat.le_zero.mp hsize)
      have hprefix := offeredBytes_prefix tls iov
      rw [hnil, List.prefix_nil] at hprefix
      exact absurd hprefix (hoffered hne)
  | succ size ih =>
    rcases eq_or_ne iov [] with rfl | hne
    · exact ⟨0, by rw [h2WriteAll, List.flatten_nil, List.append_nil]⟩
    · obtain ⟨later, hlater⟩ := layer.progress attempt (offeredBytes tls iov).length
      obtain ⟨n, tries, hpos, hle, hrun⟩ := exists_write hne (hoffered hne) later attempt hlater
      have hleft : (advanceIov n iov).flatten.length ≤ size := by
        rw [flatten_advanceIov, List.length_drop]
        omega
      have hnext : advanceIov n iov ≠ [] → offeredBytes tls (advanceIov n iov) ≠ [] := by
        intro hnonempty
        obtain ⟨fragment, rest, hcons, hfragment⟩ :=
          (advanceIov_head n iov).resolve_left hnonempty
        rw [hcons]
        exact offeredBytes_ne_nil tls rest hfragment
      obtain ⟨fuel, hfuel⟩ := ih (advanceIov n iov) hleft hnext (attempt + tries)
        (wire ++ (offeredBytes tls iov).take n)
      refine ⟨fuel + tries, ?_⟩
      have htake : (offeredBytes tls iov).take n = iov.flatten.take n := by
        obtain ⟨rest, hrest⟩ := offeredBytes_prefix tls iov
        rw [← hrest, List.take_append_of_le_length hle]
      rw [hrun, hfuel, flatten_advanceIov, htake, List.append_assoc, List.take_append_drop]

theorem h2WriteAll_add {result : ℕ → ℕ → WriteResult} {fuel attempt : ℕ} {wire : List UInt8}
    {outcome : ℤ × List UInt8} (h : h2WriteAll tls result fuel iov attempt wire = some outcome)
    (more : ℕ) : h2WriteAll tls result (fuel + more) iov attempt wire = some outcome := by
  induction fuel generalizing iov attempt wire with
  | zero =>
    cases iov with
    | nil =>
      rw [h2WriteAll] at h ⊢
      exact h
    | cons fragment iov => exact absurd h.symm (Option.some_ne_none outcome)
  | succ fuel ih =>
    cases iov with
    | nil =>
      rw [h2WriteAll] at h ⊢
      exact h
    | cons fragment iov =>
      rw [Nat.add_right_comm]
      rw [h2WriteAll] at h ⊢
      cases hresult : result attempt (offeredBytes tls (fragment :: iov)).length with
      | failed =>
        rw [hresult] at h
        exact h
      | again =>
        rw [hresult] at h
        exact ih h
      | wrote n =>
        rw [hresult] at h
        dsimp only at h ⊢
        split_ifs at h ⊢
        · exact h
        · exact ih h

theorem h2WriteAll_of_nothing (hne : iov ≠ []) (hnothing : offeredBytes tls iov = [])
    (fuel attempt : ℕ) (wire wire' : List UInt8) :
    h2WriteAll tls layer.result fuel iov attempt wire ≠ some (0, wire') := by
  obtain ⟨fragment, rest, rfl⟩ := List.exists_cons_of_ne_nil hne
  induction fuel generalizing attempt with
  | zero => exact (Option.some_ne_none _).symm
  | succ fuel ih =>
    rw [h2WriteAll, hnothing, List.length_nil]
    cases hresult : layer.result attempt 0 with
    | failed => exact absurd hresult (layer.not_failed _ _)
    | again => exact ih (attempt + 1)
    | wrote n =>
      dsimp only
      rw [if_pos (Nat.le_zero.mp (layer.wrote_le _ _ _ hresult))]
      intro h
      exact absurd (Prod.mk.inj (Option.some.inj h)).1 (by decide)

/-- **Writing all** is right exactly when the first write has something to offer. -/
theorem writeAllRight_iff (tls : Bool) (layer : WriteLayer) (iov : List (List UInt8)) :
    WriteAllRight tls layer iov ↔ StartsWriting tls iov := by
  constructor
  · rintro ⟨-, fuel, hrun⟩ hne
    by_contra hstart
    have hnothing : offeredBytes tls iov = [] := by
      by_contra hoffered
      exact hstart ((offeredBytes_ne_nil_iff hne).mp hoffered hne)
    exact h2WriteAll_of_nothing hne hnothing fuel 0 [] _ (hrun 0)
  · intro hstart
    refine ⟨planTlsBatch_right iov, ?_⟩
    obtain ⟨fuel, hrun⟩ := h2WriteAll_of_offered layer _ iov le_rfl
      (fun hne ↦ (offeredBytes_ne_nil_iff hne).mpr hstart) 0 []
    rw [List.nil_append] at hrun
    exact ⟨fuel, h2WriteAll_add hrun⟩

end Run

/-! ## An empty fragment before a large one -/

/-- A layer that takes all that it is offered. -/
def wholeWrites : WriteLayer where
  result _ size := .wrote size
  not_failed _ _ := WriteResult.noConfusion
  wrote_le := by
    rintro _ size n ⟨⟩
    exact le_rfl
  wrote_pos := by
    rintro _ size n ⟨⟩ hpos
    exact hpos
  progress _ _ := ⟨0, WriteResult.noConfusion⟩

/-- Through TLS, nothing is written of an empty fragment and one of 257 bytes. -/
theorem empty_fragment_not_written :
    ¬WriteAllRight true wholeWrites [[], List.replicate 257 0] := by
  rintro ⟨-, fuel, hrun⟩
  refine h2WriteAll_of_nothing (List.cons_ne_nil _ _) ?_ fuel 0 [] _ (hrun 0)
  decide +kernel

end Lupine
