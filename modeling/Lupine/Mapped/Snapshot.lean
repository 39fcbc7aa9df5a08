import Lupine.Foundation.Machine
import Lupine.Foundation.PointerTable
import Lupine.Mapped.Coherence

/-!
# Snapshots of mapped host memory

The client asks the server for the contents of a mapping and keeps what it got as its remote view.
After the first answer the server sends only the blocks that changed since the one before. Both
sides keep a base for that: the server's is kept by the thread that serves the lane of the request,
under the server's pointer, the client's under its own pointer and for all lanes.

## Two bases

A view is brought up to date by a delta when the lane's base is what the view holds. The bases part
when another lane answers in between, and when the memory changes between the copy to the base and
the transmission, which reads the memory again. Each exchange reads an offset up to three times, to
compare it, to copy it to the base and to send it; a kernel that runs may change it between any two,
so the three reads are independent here.

The stamps say which exchange wrote a base or a view last. They are not in the source.

## Stamps

A base and a view that the same exchange wrote last hold the same bytes, which is the whole
invariant. The condition asks of an exchange that base and view have the same stamp before it, so
that its delta is made from what the view holds, and that what it sends has not changed since it was
copied. Then both hold afterwards what the exchange observed.
-/

namespace Lupine

open Foundation

/-! ## The server

The comparison goes over the blocks in order, and copies those that changed into the base. -/

/-- What the reads of one exchange saw at each offset. -/
structure SnapshotReads where
  compared : Memory UInt8
  copied : Memory UInt8
  sent : Memory UInt8

/-- A base or a view: its size, its bytes by offset, and the exchange that wrote it last. -/
structure SnapshotCopy where
  size : ℕ
  bytes : Memory UInt8
  stamp : ℕ

/-- `block_bytes`. -/
def blockBytes : ℕ := 64

def blockLength (bytes offset : ℕ) : ℕ := min blockBytes (bytes - offset)

/-- The offsets that the loop over the blocks visits. -/
def blockOffsets (bytes : ℕ) : List ℕ :=
  (List.range ((bytes + (blockBytes - 1)) / blockBytes)).map (blockBytes * ·)

/-- The body of the loop: `changed` and `previous`. -/
def compareBlock (bytes : ℕ) (reads : SnapshotReads) (found : List ℕ × Memory UInt8)
    (offset : ℕ) : List ℕ × Memory UInt8 :=
  let block := blockLength bytes offset
  if memDiffers found.2 reads.compared offset block then
    (found.1 ++ [offset], memcpyAt found.2 reads.copied offset block)
  else found

/-- `changed`, with `previous` as the comparison leaves it. -/
def compareBlocks (bytes : ℕ) (previous : Memory UInt8) (reads : SnapshotReads) :
    List ℕ × Memory UInt8 :=
  (blockOffsets bytes).foldl (compareBlock bytes reads) ([], previous)

/-! ## Lanes and views

The bases are those of the lanes, by the server's pointer; the views are those of the client, by
its own. -/

/-- A client's mapping, by its pointer and the server's. -/
structure SnapshotMapping where
  host : ℕ
  serverHostPtr : ℕ
  size : ℕ
  deriving DecidableEq, Repr

/-- `previous_snapshots` of the thread of every lane, and `remote_views`. -/
structure SnapshotState where
  previousSnapshots : AList (fun _ : ℕ × ℕ ↦ SnapshotCopy) := ∅
  remoteViews : AList (fun _ : ℕ ↦ SnapshotCopy) := ∅
  nextStamp : ℕ := 0

namespace SnapshotState

variable (st : SnapshotState) (lane : ℕ) (mapping : SnapshotMapping) (reads : SnapshotReads)

/-- The base that a delta is made from; with none the answer is `full`. -/
def base : Option SnapshotCopy :=
  (st.previousSnapshots.lookup (lane, mapping.serverHostPtr)).filter fun previous ↦
    previous.size = mapping.size

def remote : SnapshotCopy :=
  match st.remoteViews.lookup mapping.host with
  | some view => if view.size = mapping.size then view else ⟨mapping.size, fun _ ↦ 0, st.nextStamp⟩
  | none => ⟨mapping.size, fun _ ↦ 0, st.nextStamp⟩

/-- `handle_manual_lupineMappedHostSnapshot`: the offsets of the blocks that are sent, or `none`
when everything is, and the base it leaves. -/
def serverAnswer : Option (List ℕ) × Memory UInt8 :=
  match st.base lane mapping with
  | none => (none, reads.copied)
  | some previous =>
    let (changed, previous) := compareBlocks mapping.size previous.bytes reads
    (some changed, previous)

/-- The view after `fetch_remote_changes`. -/
def fetchRemoteChanges : Memory UInt8 :=
  match (st.serverAnswer lane mapping reads).1 with
  | none => reads.sent
  | some changed =>
    changed.foldl (fun remote offset ↦
      memcpyAt remote reads.sent offset (blockLength mapping.size offset)) (st.remote mapping).bytes

/-- The byte at an offset is part of the answer. -/
def Sends (x : ℕ) : Prop :=
  match (st.serverAnswer lane mapping reads).1 with
  | none => True
  | some changed => x / blockBytes * blockBytes ∈ changed

instance (x : ℕ) : Decidable (st.Sends lane mapping reads x) := by
  unfold Sends
  cases (st.serverAnswer lane mapping reads).1 <;> infer_instance

/-- What the exchange observed at an offset: what it sent, and else what it compared. -/
def observed (x : ℕ) : UInt8 :=
  if st.Sends lane mapping reads x then reads.sent x else reads.compared x

end SnapshotState

/-! ## Runs -/

/-- What happens to the bases and the views. The client has one exchange at a time. -/
inductive SnapshotStep where
  /-- A successful exchange on a lane. -/
  | exchange (lane : ℕ) (mapping : SnapshotMapping) (reads : SnapshotReads)
  /-- An exchange that fails at the client, which leaves the view in some state. -/
  | broken (lane : ℕ) (mapping : SnapshotMapping) (reads : SnapshotReads) (left : Memory UInt8)
  /-- A new connection has new threads at the server. -/
  | reconnect

/-- One step. A request for more than 2^30 bytes is not answered. -/
def SnapshotState.step (st : SnapshotState) : SnapshotStep → Option SnapshotState
  | .exchange lane mapping reads =>
    if 2 ^ 30 < mapping.size then none
    else some
      { previousSnapshots := st.previousSnapshots.insert (lane, mapping.serverHostPtr)
          ⟨mapping.size, (st.serverAnswer lane mapping reads).2, st.nextStamp⟩
        remoteViews := st.remoteViews.insert mapping.host
          ⟨mapping.size, st.fetchRemoteChanges lane mapping reads, st.nextStamp⟩
        nextStamp := st.nextStamp + 1 }
  | .broken lane mapping reads left =>
    some
      { previousSnapshots := st.previousSnapshots.insert (lane, mapping.serverHostPtr)
          ⟨mapping.size, (st.serverAnswer lane mapping reads).2, st.nextStamp⟩
        remoteViews := st.remoteViews.insert mapping.host ⟨mapping.size, left, st.nextStamp + 1⟩
        nextStamp := st.nextStamp + 2 }
  | .reconnect => some { st with previousSnapshots := ∅ }

def snapshotMachine : Machine SnapshotState SnapshotStep := ⟨SnapshotState.step⟩

/-- A delta is asked of the lane, and for the view, that the last exchange of either was between;
and what is sent has not changed since it was copied to the base. -/
def SnapshotCond (st : SnapshotState) : SnapshotStep → Prop
  | .exchange lane mapping reads =>
    (∀ previous ∈ st.base lane mapping, ∃ view ∈ st.remoteViews.lookup mapping.host,
      view.stamp = previous.stamp) ∧
    ∀ x < mapping.size, st.Sends lane mapping reads x → reads.copied x = reads.sent x
  | _ => True

instance (st : SnapshotState) (step : SnapshotStep) : Decidable (SnapshotCond st step) := by
  cases step <;> unfold SnapshotCond <;> infer_instance

/-! ## One exchange

Blocks are disjoint, so a list of them is compared, or patched into a view, one block at a time: the
blocks of the list are done, and the rest is not touched. A byte that is not sent was found to be as
in the base. -/

theorem mem_blockOffsets {bytes offset : ℕ} :
    offset ∈ blockOffsets bytes ↔ offset < bytes ∧ offset / blockBytes * blockBytes = offset := by
  rw [blockOffsets, List.mem_map]
  simp only [List.mem_range, blockBytes]
  constructor
  · rintro ⟨k, hk, rfl⟩
    omega
  · rintro ⟨hlt, hmul⟩
    exact ⟨offset / 64, by omega, by omega⟩

/-- An offset is in the block that it rounds down to. -/
theorem mem_block_iff {bytes offset x : ℕ} (hx : x < bytes)
    (hoffset : offset / blockBytes * blockBytes = offset) :
    offset ≤ x ∧ x < offset + blockLength bytes offset ↔ x / blockBytes * blockBytes = offset := by
  simp only [blockLength, blockBytes] at hoffset ⊢
  omega

theorem memcpyAt_block {bytes offset x : ℕ} (hx : x < bytes)
    (hoffset : offset / blockBytes * blockBytes = offset) (dst src : Memory UInt8) :
    memcpyAt dst src offset (blockLength bytes offset) x =
      if x / blockBytes * blockBytes = offset then src x else dst x :=
  if_congr (mem_block_iff hx hoffset) rfl rfl

variable {bytes : ℕ} {previous : Memory UInt8} {reads : SnapshotReads}

/-- The blocks of a list have been compared: those that changed are copied, the others are as they
were and as they were compared, and the rest is not touched. -/
structure Compared (bytes : ℕ) (previous : Memory UInt8) (reads : SnapshotReads) (offsets : List ℕ)
    (found : List ℕ × Memory UInt8) : Prop where
  subset : found.1 ⊆ offsets
  changed : ∀ x < bytes, x / blockBytes * blockBytes ∈ found.1 → found.2 x = reads.copied x
  unchanged : ∀ x < bytes, x / blockBytes * blockBytes ∉ found.1 → found.2 x = previous x
  same : ∀ x < bytes, x / blockBytes * blockBytes ∈ offsets →
    x / blockBytes * blockBytes ∉ found.1 → reads.compared x = previous x

theorem Compared.compareBlock {offsets : List ℕ} {found : List ℕ × Memory UInt8} {offset : ℕ}
    (h : Compared bytes previous reads offsets found)
    (hblock : offset / blockBytes * blockBytes = offset) (hnew : offset ∉ offsets) :
    Compared bytes previous reads (offsets ++ [offset])
      (compareBlock bytes reads found offset) := by
  have hfound : offset ∉ found.1 := fun hmem ↦ hnew (h.subset hmem)
  rw [Lupine.compareBlock]
  split_ifs with hdiffers
  · constructor
    · exact List.append_subset.mpr ⟨List.Subset.trans h.subset (List.subset_append_left _ _),
        List.subset_append_right _ _⟩
    · intro x hx hmem
      apply (memcpyAt_block hx hblock _ _).trans
      split_ifs with hin
      · rfl
      · rw [List.mem_append, List.mem_singleton] at hmem
        exact h.changed x hx (hmem.resolve_right hin)
    · intro x hx hmem
      rw [List.mem_append, List.mem_singleton, not_or] at hmem
      apply (memcpyAt_block hx hblock _ _).trans
      rw [if_neg hmem.2]
      exact h.unchanged x hx hmem.1
    · intro x hx hoffset hmem
      rw [List.mem_append, List.mem_singleton, not_or] at hmem
      rw [List.mem_append, List.mem_singleton] at hoffset
      exact h.same x hx (hoffset.resolve_right hmem.2) hmem.1
  · constructor
    · exact List.Subset.trans h.subset (List.subset_append_left _ _)
    · exact h.changed
    · exact h.unchanged
    · intro x hx hoffset hmem
      rw [List.mem_append, List.mem_singleton] at hoffset
      rcases hoffset with hoffset | hoffset
      · exact h.same x hx hoffset hmem
      · have hblock' := (mem_block_iff hx hblock).mpr hoffset
        rw [← h.unchanged x hx hmem]
        exact (LiveMapping.eq_of_not_memDiffers (Bool.eq_false_of_not_eq_true hdiffers)
          hblock'.1 hblock'.2).symm

theorem compared_compareBlocks (bytes : ℕ) (previous : Memory UInt8) (reads : SnapshotReads) :
    Compared bytes previous reads (blockOffsets bytes) (compareBlocks bytes previous reads) := by
  have hall : ∀ offsets : List ℕ, offsets.Nodup → offsets ⊆ blockOffsets bytes →
      Compared bytes previous reads offsets
        (offsets.foldl (compareBlock bytes reads) ([], previous)) := by
    intro offsets
    induction offsets using List.reverseRecOn with
    | nil =>
      intro _ _
      constructor
      · exact List.Subset.refl _
      · exact fun _ _ h ↦ (nomatch h)
      · exact fun _ _ _ ↦ rfl
      · exact fun _ _ h ↦ (nomatch h)
    | append_singleton offsets offset ih =>
      intro hnodup hsubset
      rw [List.foldl_append]
      have hoffset : offset ∈ blockOffsets bytes :=
        hsubset (List.mem_append_right _ (List.mem_singleton_self offset))
      apply (ih (hnodup.sublist (List.sublist_append_left _ _))
        (List.Subset.trans (List.subset_append_left _ _) hsubset)).compareBlock
      · exact (mem_blockOffsets.mp hoffset).2
      · intro hmem
        exact (List.nodup_append.mp hnodup).2.2 offset hmem offset
          (List.mem_singleton_self offset) rfl
  apply hall
  · exact List.nodup_range.map fun _ _ h ↦ Nat.eq_of_mul_eq_mul_left (by decide) h
  · exact List.Subset.refl _

theorem foldl_memcpyAt {offsets : List ℕ}
    (hblocks : ∀ offset ∈ offsets, offset / blockBytes * blockBytes = offset)
    (remote sent : Memory UInt8) {x : ℕ} (hx : x < bytes) :
    offsets.foldl (fun remote offset ↦ memcpyAt remote sent offset (blockLength bytes offset))
      remote x = if x / blockBytes * blockBytes ∈ offsets then sent x else remote x := by
  induction offsets using List.reverseRecOn with
  | nil => rw [List.foldl_nil, if_neg List.not_mem_nil]
  | append_singleton offsets offset ih =>
    have hoffset := hblocks offset (List.mem_append_right _ (List.mem_singleton_self offset))
    rw [List.foldl_append, List.foldl_cons, List.foldl_nil, memcpyAt_block hx hoffset,
      ih fun o ho ↦ hblocks o (List.mem_append_left _ ho)]
    simp only [List.mem_append, List.mem_singleton]
    split_ifs <;> tauto

namespace SnapshotState

variable {st st' : SnapshotState} {lane : ℕ} {mapping : SnapshotMapping} {x : ℕ}

theorem serverAnswer_of_none (hbase : st.base lane mapping = none) :
    st.serverAnswer lane mapping reads = (none, reads.copied) := by
  rw [serverAnswer, hbase]

theorem serverAnswer_of_some {previous : SnapshotCopy}
    (hbase : st.base lane mapping = some previous) :
    st.serverAnswer lane mapping reads =
      (some (compareBlocks mapping.size previous.bytes reads).1,
        (compareBlocks mapping.size previous.bytes reads).2) := by
  rw [serverAnswer, hbase]

theorem sends_of_none (hbase : st.base lane mapping = none) : st.Sends lane mapping reads x := by
  unfold Sends
  rw [serverAnswer_of_none hbase]
  trivial

theorem sends_iff_of_some {previous : SnapshotCopy} (hbase : st.base lane mapping = some previous) :
    st.Sends lane mapping reads x ↔
      x / blockBytes * blockBytes ∈ (compareBlocks mapping.size previous.bytes reads).1 := by
  unfold Sends
  rw [serverAnswer_of_some hbase]

/-- A byte that is not sent was compared to be as in the base. -/
theorem compared_eq_of_not_sends {previous : SnapshotCopy}
    (hbase : st.base lane mapping = some previous) (hx : x < mapping.size)
    (hsends : ¬st.Sends lane mapping reads x) : reads.compared x = previous.bytes x := by
  rw [sends_iff_of_some hbase] at hsends
  apply (compared_compareBlocks mapping.size previous.bytes reads).same x hx _ hsends
  rw [mem_blockOffsets]
  simp only [blockBytes]
  omega

/-- What a base holds after an exchange, if what was sent is what was copied to it. -/
theorem serverAnswer_apply (hx : x < mapping.size)
    (hsent : st.Sends lane mapping reads x → reads.copied x = reads.sent x) :
    (st.serverAnswer lane mapping reads).2 x = st.observed lane mapping reads x := by
  rw [observed]
  cases hbase : st.base lane mapping with
  | none =>
    have hsends : st.Sends lane mapping reads x := sends_of_none hbase
    rw [serverAnswer_of_none hbase, if_pos hsends]
    exact hsent hsends
  | some previous =>
    have hcompared := compared_compareBlocks mapping.size previous.bytes reads
    rw [serverAnswer_of_some hbase]
    split_ifs with hsends
    · exact (hcompared.changed x hx ((sends_iff_of_some hbase).mp hsends)).trans (hsent hsends)
    · rw [compared_eq_of_not_sends hbase hx hsends]
      exact hcompared.unchanged x hx fun hmem ↦ hsends ((sends_iff_of_some hbase).mpr hmem)

/-- What the view holds after an exchange, if it held what a delta is made from. -/
theorem fetchRemoteChanges_apply (hx : x < mapping.size)
    (hview : ∀ previous ∈ st.base lane mapping, (st.remote mapping).bytes x = previous.bytes x) :
    st.fetchRemoteChanges lane mapping reads x = st.observed lane mapping reads x := by
  rw [observed, fetchRemoteChanges]
  cases hbase : st.base lane mapping with
  | none => rw [serverAnswer_of_none hbase, if_pos (sends_of_none hbase)]
  | some previous =>
    have hcompared := compared_compareBlocks mapping.size previous.bytes reads
    rw [serverAnswer_of_some hbase]
    simp only
    rw [foldl_memcpyAt (fun o ho ↦ (mem_blockOffsets.mp (hcompared.subset ho)).2) _ _ hx]
    simp only [← sends_iff_of_some (x := x) hbase]
    split_ifs with hsends
    · rfl
    · rw [hview previous hbase, compared_eq_of_not_sends hbase hx hsends]

end SnapshotState

/-! ## The invariant

An exchange writes one base and one view, and gives both a stamp that no other has. -/

/-- A base and a view that the same exchange wrote last hold the same. -/
structure SnapshotInv (st : SnapshotState) : Prop where
  base_lt : ∀ key previous, st.previousSnapshots.lookup key = some previous →
    previous.stamp < st.nextStamp
  view_lt : ∀ host view, st.remoteViews.lookup host = some view → view.stamp < st.nextStamp
  agree : ∀ key previous host view, st.previousSnapshots.lookup key = some previous →
    st.remoteViews.lookup host = some view → view.stamp = previous.stamp →
      view.size = previous.size ∧ ∀ x < previous.size, view.bytes x = previous.bytes x

namespace SnapshotInv

variable {st st' : SnapshotState} {lane : ℕ} {mapping : SnapshotMapping}

theorem init : SnapshotInv {} where
  base_lt _ _ h := nomatch h
  view_lt _ _ h := nomatch h
  agree _ _ _ _ h := nomatch h

theorem write (h : SnapshotInv st) {key : ℕ × ℕ} {host next : ℕ} {previous view : SnapshotCopy}
    (hbase : st.nextStamp ≤ previous.stamp) (hbase' : previous.stamp < next)
    (hview : st.nextStamp ≤ view.stamp) (hview' : view.stamp < next)
    (hagree : view.stamp = previous.stamp →
      view.size = previous.size ∧ ∀ x < previous.size, view.bytes x = previous.bytes x) :
    SnapshotInv
      ⟨st.previousSnapshots.insert key previous, st.remoteViews.insert host view, next⟩ where
  base_lt key' previous' hlookup := by
    rcases lookup_insert_eq_some.mp hlookup with ⟨-, rfl⟩ | ⟨-, hlookup⟩
    · exact hbase'
    · exact (h.base_lt key' previous' hlookup).trans (hbase.trans_lt hbase')
  view_lt host' view' hlookup := by
    rcases lookup_insert_eq_some.mp hlookup with ⟨-, rfl⟩ | ⟨-, hlookup⟩
    · exact hview'
    · exact (h.view_lt host' view' hlookup).trans (hview.trans_lt hview')
  agree key' previous' host' view' hlookup hlookup' hstamp := by
    rcases lookup_insert_eq_some.mp hlookup with ⟨-, rfl⟩ | ⟨-, hlookup⟩
    · rcases lookup_insert_eq_some.mp hlookup' with ⟨-, rfl⟩ | ⟨-, hlookup'⟩
      · exact hagree hstamp
      · have := h.view_lt host' view' hlookup'
        omega
    · rcases lookup_insert_eq_some.mp hlookup' with ⟨-, rfl⟩ | ⟨-, hlookup'⟩
      · have := h.base_lt key' previous' hlookup
        omega
      · exact h.agree key' previous' host' view' hlookup hlookup' hstamp

theorem remote_eq (h : SnapshotInv st) (hcond : SnapshotCond st (.exchange lane mapping reads))
    {previous : SnapshotCopy} (hbase : previous ∈ st.base lane mapping) {x : ℕ}
    (hx : x < mapping.size) : (st.remote mapping).bytes x = previous.bytes x := by
  obtain ⟨view, hview, hstamp⟩ := hcond.1 previous hbase
  obtain ⟨hlookup, hsize⟩ := Option.filter_eq_some_iff.mp hbase
  have hsize : previous.size = mapping.size := of_decide_eq_true hsize
  obtain ⟨hviewsize, hbytes⟩ := h.agree _ previous _ view hlookup hview hstamp
  have hremote : st.remote mapping = view := by
    rw [SnapshotState.remote, Option.mem_def.mp hview]
    exact if_pos (hviewsize.trans hsize)
  rw [hremote]
  exact hbytes x (hsize ▸ hx)

theorem step (h : SnapshotInv st) {step : SnapshotStep} (hcond : SnapshotCond st step)
    (hstep : st.step step = some st') : SnapshotInv st' := by
  cases step with
  | exchange lane mapping reads =>
    obtain ⟨-, hstep⟩ := Option.ite_none_left_eq_some.mp hstep
    obtain rfl := Option.some.inj hstep
    apply h.write
    · exact le_rfl
    · exact Nat.lt_succ_self _
    · exact le_rfl
    · exact Nat.lt_succ_self _
    intro _
    refine ⟨rfl, fun x hx ↦ ?_⟩
    exact (SnapshotState.fetchRemoteChanges_apply hx fun previous hbase ↦
      h.remote_eq hcond hbase hx).trans
        (SnapshotState.serverAnswer_apply hx (hcond.2 x hx)).symm
  | broken lane mapping reads left =>
    obtain rfl := Option.some.inj hstep
    apply h.write
    · exact le_rfl
    · exact Nat.lt_add_of_pos_right (by decide)
    · exact Nat.le_succ _
    · exact Nat.lt_succ_self _
    · exact fun hstamp ↦ absurd hstamp (Nat.succ_ne_self _)
  | reconnect =>
    obtain rfl := Option.some.inj hstep
    exact ⟨fun _ _ hlookup ↦ (nomatch hlookup), h.view_lt, fun _ _ _ _ hlookup ↦ (nomatch hlookup)⟩

end SnapshotInv

/-- **Views.** In a run whose exchanges all meet the condition, the view after each of them holds at
every offset what that exchange observed there. -/
theorem exchange_view_eq_observed (steps : List SnapshotStep) (st st' : SnapshotState) (lane : ℕ)
    (mapping : SnapshotMapping) (reads : SnapshotReads)
    (hrun : (snapshotMachine.restrict SnapshotCond).run {} steps = some st)
    (hstep : (snapshotMachine.restrict SnapshotCond).step st (.exchange lane mapping reads) =
      some st') :
    ∃ view, st'.remoteViews.lookup mapping.host = some view ∧ view.size = mapping.size ∧
      ∀ x < mapping.size, view.bytes x = st.observed lane mapping reads x := by
  have hinv : SnapshotInv st := by
    apply Machine.run_invariant _ _ SnapshotInv.init hrun
    intro s step s' hs hs'
    obtain ⟨hcond, hs'⟩ := Machine.step_restrict.mp hs'
    exact hs.step hcond hs'
  obtain ⟨hcond, hstep⟩ := Machine.step_restrict.mp hstep
  obtain ⟨-, hstep⟩ := Option.ite_none_left_eq_some.mp hstep
  obtain rfl := Option.some.inj hstep
  refine ⟨_, AList.lookup_insert _, rfl, fun x hx ↦ ?_⟩
  exact SnapshotState.fetchRemoteChanges_apply hx fun previous hbase ↦ hinv.remote_eq hcond hbase hx

/-- Memory that holds one value everywhere, and does not change during the exchange. -/
def SnapshotReads.steady (value : UInt8) : SnapshotReads :=
  ⟨fun _ ↦ value, fun _ ↦ value, fun _ ↦ value⟩

/-- A full answer and a delta on one lane. -/
theorem exchange_view_eq_observed_delta :
    ∃ st st' view, (snapshotMachine.restrict SnapshotCond).run {}
        [.exchange 0 ⟨0x7000, 0x9000, 100⟩ (.steady 3)] = some st ∧
      (snapshotMachine.restrict SnapshotCond).step st
        (.exchange 0 ⟨0x7000, 0x9000, 100⟩ (.steady 5)) = some st' ∧
      st'.remoteViews.lookup 0x7000 = some view ∧ view.bytes 99 = 5 := by
  have hpossible : ((snapshotMachine.restrict SnapshotCond).run {}
      [.exchange 0 ⟨0x7000, 0x9000, 100⟩ (.steady 3)]).any fun st ↦
        ((snapshotMachine.restrict SnapshotCond).step st
          (.exchange 0 ⟨0x7000, 0x9000, 100⟩ (.steady 5))).any fun _ ↦
            st.observed 0 ⟨0x7000, 0x9000, 100⟩ (.steady 5) 99 = 5 := by decide
  obtain ⟨st, hrun, hst⟩ := (Option.any_eq_true _ _).mp hpossible
  obtain ⟨st', hstep, hobserved⟩ := (Option.any_eq_true _ _).mp hst
  obtain ⟨view, hlookup, -, hbytes⟩ := exchange_view_eq_observed _ st st' 0
    ⟨0x7000, 0x9000, 100⟩ (.steady 5) hrun hstep
  exact ⟨st, st', view, hrun, hstep, hlookup,
    (hbytes 99 (by decide)).trans (of_decide_eq_true hobserved)⟩

/-- **Bases that part.** A lane whose base is older than the view sends nothing for a byte that is
as in its base, and the view keeps what another lane put there. A byte that changes between the copy
to the base and the transmission, and then back, is not sent again either. -/
theorem snapshot_leaves_old_values :
    ((snapshotMachine.run {} [.exchange 0 ⟨0x7000, 0x9000, 1⟩ (.steady 0),
        .exchange 1 ⟨0x7000, 0x9000, 1⟩ (.steady 1),
        .exchange 0 ⟨0x7000, 0x9000, 1⟩ (.steady 0)]).bind fun st ↦
          (st.remoteViews.lookup 0x7000).map fun view ↦ view.bytes 0) = some 1 ∧
    ((snapshotMachine.run {} [.exchange 0 ⟨0x7000, 0x9000, 1⟩ (.steady 0),
        .exchange 0 ⟨0x7000, 0x9000, 1⟩ ⟨fun _ ↦ 1, fun _ ↦ 1, fun _ ↦ 2⟩,
        .exchange 0 ⟨0x7000, 0x9000, 1⟩ (.steady 1)]).bind fun st ↦
          (st.remoteViews.lookup 0x7000).map fun view ↦ view.bytes 0) = some 2 := by
  decide

end Lupine
