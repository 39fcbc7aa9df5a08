import Lupine.Client.EventTable
import Lupine.Foundation.History
import Lupine.Foundation.Machine
import Mathlib.Data.List.Nodup

/-!
# Answering event queries from the table

`cuEventRecord` notes its record in the table and queues its request afterwards;
`cuMemcpyDtoHAsync_v2` counts its copy and queues its request afterwards. Between the two steps
another thread can ask the server about the record, or sample the count of copies. `cuEventQuery`
itself looks at the table, sends its request and notes the response in separate steps.

## The server

Requests of a connection arrive in the order they are queued in, and a handler acts at once. The
server says of an event that it is complete only when its last record is, or when it was not
recorded; a query whose first event is complete takes the pending copies of its connection along in
the response. Responses are read in the order they are written in. Calls at the server succeed, and
an event is recorded on streams of its own connection.

## What is asked of a run

Two steps of a call can come apart in the wrong order: the note and the request of a record, or the
count and the request of a copy. A run is asked to send a query only when what it asks about is
ahead of it on its connection, to take an answer from the table only when no record of the event is
under way, and to handle requests in the order they arrive in. Without the first of these the table
gives a wrong answer, which the last theorem exhibits.

## Records and their numbers

A record is told apart by the sequence number it drew, and a copy by its place among those counted.
`latestRecord` looks for the last record of an event in a list of requests, back to where the event
was last destroyed, so that statements about the table, about the wire and about the handlers are
all statements about one list at different points.
-/

namespace Lupine

open Foundation

/-! ## The state

The client is one table, its threads and the two counts of copies; a server is the list of requests
it has handled and of those on the wire. Handled requests are kept, since what the server may report
of an event depends on the last record among them. -/

/-- A call of `cuEventRecord`: the number it gets in `lupine_event_note_recorded`, and the copies
whose calls had returned when it began. -/
structure RecordCall where
  event : CUevent
  seq : ℕ
  after : List ℕ
  deriving DecidableEq, Repr

/-- A query that goes to the server, with the records that were noted when its batch was collected
and the number of copies that were counted before it was sent. -/
structure EventQuery where
  thread : ℕ
  conn : ℕ
  batch : List BatchEntry
  noted : List RecordCall
  sample : ℕ := 0
  deriving DecidableEq, Repr

/-- A request. A copy goes by its place among the copies counted. -/
inductive EventRequest where
  | eventRecord (record : RecordCall)
  | memcpyDtoHAsync (copy : ℕ)
  | eventDestroy (event : CUevent)
  | eventQuery (query : EventQuery)
  deriving DecidableEq, Repr

/-- The response to a query; a result is whether the event is complete. -/
structure EventResponse where
  query : EventQuery
  copies : List ℕ
  results : List Bool
  deriving DecidableEq, Repr

/-- Where a client thread stands. Before it asks the server, a query carries the records whose calls
had returned when it began. -/
inductive EventThread where
  | idle
  | recordBegun (record : RecordCall)
  | recordNoted (record : RecordCall)
  | recordQueued (record : RecordCall)
  | copyCounted (copy conn : ℕ)
  | copyQueued (copy : ℕ)
  | destroyQueued (event : CUevent)
  | queryBegun (event : CUevent) (returned : List RecordCall)
  | queryLoaded (event : CUevent) (returned : List RecordCall) (issued : ℕ)
  | queryPending (event : CUevent) (returned : List RecordCall) (copiesPending : Bool)
  | queryCollected (query : EventQuery)
  | querySampled (query : EventQuery)
  | queryWaiting (conn : ℕ)
  | queryReceived (query : EventQuery) (results : List Bool)
  | queryNoted (sample : ℕ)
  deriving DecidableEq, Repr

structure EventState where
  table : EventTable := {}
  threads : ℕ → EventThread := fun _ ↦ .idle
  /-- The records noted, in that order. -/
  records : List RecordCall := []
  returnedRecords : List RecordCall := []
  returnedCopies : List ℕ := []
  wire : ℕ → List EventRequest := fun _ ↦ []
  handled : ℕ → List EventRequest := fun _ ↦ []
  /-- The copies whose data waits at the server. -/
  pending : ℕ → List ℕ := fun _ ↦ []
  responses : ℕ → List EventResponse := fun _ ↦ []
  /-- The copies whose data is in client memory. -/
  written : List ℕ := []
  complete : List RecordCall := []
  /-- For each query that was answered from the table, the latest record of the event whose call had
  returned when the query began. -/
  answered : List (Option RecordCall) := []

namespace EventState

/-- The requests of a connection, in the order the server has them in. -/
def requests (st : EventState) (conn : ℕ) : List EventRequest := st.handled conn ++ st.wire conn

def setThread (st : EventState) (thread : ℕ) (next : EventThread) : EventState :=
  { st with threads := Function.update st.threads thread next }

def setSlots (st : EventState) (slots : List EventSlot) : EventState :=
  { st with table := { st.table with slots } }

def noteRecord (st : EventState) (record : RecordCall) : EventState :=
  { st.setSlots (noteRecorded st.table.slots record.event record.seq) with
    records := st.records ++ [record] }

def queue (st : EventState) (conn : ℕ) (request : EventRequest) : EventState :=
  { st with wire := Function.update st.wire conn (st.wire conn ++ [request]) }

def serve (st : EventState) (conn : ℕ) (request : EventRequest) (wire : List EventRequest) :
    EventState :=
  { st with
    wire := Function.update st.wire conn wire
    handled := Function.update st.handled conn (st.handled conn ++ [request]) }

end EventState

/-- The last record of an event that meets a condition, since the event was last destroyed. -/
def latestRecord (event : CUevent) (ok : RecordCall → Bool) (requests : List EventRequest) :
    Option RecordCall :=
  requests.foldl (fun latest request ↦
    match request with
    | .eventRecord record => if record.event = event ∧ ok record then some record else latest
    | .eventDestroy destroyed => if destroyed = event then none else latest
    | .memcpyDtoHAsync _ => latest
    | .eventQuery _ => latest) none

/-- The last record of an event since it was last destroyed. -/
def lastRecord (event : CUevent) (requests : List EventRequest) : Option RecordCall :=
  latestRecord event (fun _ ↦ true) requests

def firstSuccess (results : List Bool) : Bool := results.head? == some true

/-! ## Steps

A call of the client takes a step for each access to the table and one for each request it queues.
The thread that waits for a response is in a state of its own, so that any number of other steps
come between. -/

inductive EventCall where
  | eventRecord (event : CUevent)
  | memcpyDtoHAsync (conn : ℕ)
  | eventDestroy (event : CUevent)
  | eventQuery (event : CUevent)
  deriving DecidableEq, Repr

/-- A step: a thread begins a call or goes on, a request is handled, or a record completes. -/
inductive EventStep where
  | begin (thread : ℕ) (call : EventCall)
  | next (thread : ℕ)
  | handle (conn i : ℕ) (results : List Bool)
  | complete (record : RecordCall)
  deriving DecidableEq, Repr

section

variable (connOf : CUevent → ℕ)

def EventState.begin (st : EventState) (thread : ℕ) : EventCall → EventState
  | .eventRecord event =>
    { st with table := { st.table with recordSeq := st.table.recordSeq + 1 } }.setThread thread
      (.recordBegun ⟨event, st.table.recordSeq + 1, st.returnedCopies⟩)
  | .memcpyDtoHAsync conn =>
    { st with table := { st.table with dtohIssued := st.table.dtohIssued + 1 } }.setThread thread
      (.copyCounted st.table.dtohIssued conn)
  | .eventDestroy event =>
    (st.queue (connOf event) (.eventDestroy event)).setThread thread (.destroyQueued event)
  | .eventQuery event => st.setThread thread (.queryBegun event st.returnedRecords)

def EventState.advance (st : EventState) (thread : ℕ) : EventThread → Option EventState
  | .idle => none
  | .recordBegun record => some ((st.noteRecord record).setThread thread (.recordNoted record))
  | .recordNoted record =>
    some ((st.queue (connOf record.event) (.eventRecord record)).setThread thread
      (.recordQueued record))
  | .recordQueued record =>
    some ({ st with returnedRecords := st.returnedRecords ++ [record] }.setThread thread .idle)
  | .copyCounted copy conn =>
    some ((st.queue conn (.memcpyDtoHAsync copy)).setThread thread (.copyQueued copy))
  | .copyQueued copy =>
    some ({ st with returnedCopies := st.returnedCopies ++ [copy] }.setThread thread .idle)
  | .destroyQueued event =>
    -- The response is there.
    if .eventDestroy event ∈ st.wire (connOf event) then none
    else some ((st.setSlots (noteDestroyed st.table.slots event)).setThread thread .idle)
  | .queryBegun event returned =>
    some (st.setThread thread (.queryLoaded event returned st.table.dtohIssued))
  | .queryLoaded event returned issued =>
    some (st.setThread thread (.queryPending event returned (issued != st.table.dtohDrained)))
  | .queryPending event returned copiesPending =>
    match collectQueryBatch st.table.slots copiesPending event (connOf event) connOf with
    | none =>
      some ({ st with
        answered := st.answered ++
          [latestRecord event (fun record ↦ record ∈ returned) (st.requests (connOf event))]
        }.setThread thread .idle)
    | some batch =>
      some (st.setThread thread (.queryCollected ⟨thread, connOf event, batch, st.records, 0⟩))
  | .queryCollected query =>
    some (st.setThread thread (.querySampled { query with sample := st.table.dtohIssued }))
  | .querySampled query =>
    some ((st.queue query.conn (.eventQuery query)).setThread thread (.queryWaiting query.conn))
  | .queryWaiting conn =>
    match st.responses conn with
    | response :: rest =>
      if response.query.thread = thread then
        some ({ st with
          responses := Function.update st.responses conn rest
          written := st.written ++ response.copies }.setThread thread
            (.queryReceived response.query response.results))
      else none
    | [] => none
  | .queryReceived query results =>
    some ((st.setSlots (noteQueryResults st.table.slots (query.batch.zip results))).setThread thread
      (if firstSuccess results then .queryNoted query.sample else .idle))
  | .queryNoted sample =>
    some ({ st with table := { st.table with dtohDrained := sample } }.setThread thread .idle)

/-- The server may report these results: an event is complete only if its last record is. -/
def EventState.MayReport (st : EventState) (query : EventQuery) (results : List Bool) : Prop :=
  results.length = query.batch.length ∧ ∀ result ∈ query.batch.zip results, result.2 = true →
    ∀ record ∈ lastRecord result.1.event (st.handled query.conn), record ∈ st.complete

instance (st : EventState) (query : EventQuery) (results : List Bool) :
    Decidable (st.MayReport query results) := inferInstanceAs (Decidable (_ ∧ _))

/-- What the handler of a request does. A query takes the pending copies along if its first event is
complete. -/
def EventState.handle (st : EventState) (conn : ℕ) (results : List Bool) :
    EventRequest → Option EventState
  | .eventRecord _ => some st
  | .eventDestroy _ => some st
  | .memcpyDtoHAsync copy =>
    some { st with pending := Function.update st.pending conn (st.pending conn ++ [copy]) }
  | .eventQuery query =>
    if st.MayReport query results then
      if firstSuccess results then
        some { st with
          pending := Function.update st.pending conn []
          responses := Function.update st.responses conn
            (st.responses conn ++ [⟨query, st.pending conn, results⟩]) }
      else
        some { st with
          responses := Function.update st.responses conn
            (st.responses conn ++ [⟨query, [], results⟩]) }
    else none

def eventStep (st : EventState) : EventStep → Option EventState
  | .begin thread call =>
    if st.threads thread = .idle then some (st.begin connOf thread call) else none
  | .next thread => st.advance connOf thread (st.threads thread)
  | .handle conn i results =>
    (st.wire conn)[i]?.bind fun request ↦
      (st.serve conn request ((st.wire conn).eraseIdx i)).handle conn results request
  | .complete record =>
    if .eventRecord record ∈ st.handled (connOf record.event) then
      some { st with complete := st.complete ++ [record] }
    else none

def eventCalls : Machine EventState EventStep := ⟨eventStep connOf⟩

/-! ## What is promised -/

/-- When a query is answered from the table, the latest record of the event whose call returned
before the query began is complete, and the copies whose calls returned before that record began are
in client memory. -/
def EventState.AnswersRight (st : EventState) : Prop :=
  ∀ record, some record ∈ st.answered →
    record ∈ st.complete ∧ ∀ copy ∈ record.after, copy ∈ st.written

/-- What a query asks about is behind it: the records that were noted of the events whose completion
it will note, and the copies it will take to be drained. -/
def EventQuery.Behind (query : EventQuery) (requests : List EventRequest) (written : List ℕ) :
    Prop :=
  (∀ entry ∈ query.batch, entry.recorded ≠ 0 → ∀ record ∈ query.noted,
      record.event = entry.event → .eventRecord record ∈ requests) ∧
    ∀ copy < query.sample, .memcpyDtoHAsync copy ∈ requests ∨ copy ∈ written

instance (query : EventQuery) (requests : List EventRequest) (written : List ℕ) :
    Decidable (query.Behind requests written) := inferInstanceAs (Decidable (_ ∧ _))

/-- A thread goes on. A request is sent for a query only when everything it asks about is on its
connection ahead of it, or in client memory. A query is answered from the table only when no record
of the event was queued since the last one whose call had returned when the query began. -/
def EventThread.AsksAfter (st : EventState) : EventThread → Prop
  | .queryPending event returned copiesPending =>
    collectQueryBatch st.table.slots copiesPending event (connOf event) connOf = none →
      ∀ record ∈ lastRecord event (st.requests (connOf event)), record ∈ returned
  | .querySampled query => query.Behind (st.requests query.conn) st.written
  | _ => True

instance (st : EventState) (thread : EventThread) : Decidable (thread.AsksAfter connOf st) := by
  cases thread <;> unfold EventThread.AsksAfter <;> infer_instance

/-- Recorded events are not the null event, threads ask after what they ask about, and requests are
handled in the order they arrive in. -/
def AsksInOrder (st : EventState) : EventStep → Prop
  | .begin _ (.eventRecord event) => event ≠ 0
  | .next thread => (st.threads thread).AsksAfter connOf st
  | .handle _ i _ => i = 0
  | _ => True

instance (st : EventState) (step : EventStep) : Decidable (AsksInOrder connOf st step) := by
  rcases step with ⟨_, _ | _ | _ | _⟩ | _ | _ | _ <;> unfold AsksInOrder <;> infer_instance

end

/-! ## Records among requests

The last record of an event is unaffected by requests about other events, by copies and by queries,
and a destruction clears it. If the last record meets a condition then it is also the latest one
that does, which is how the server's answer about its last record becomes one about the record that
the client asked about. -/

def EventRequest.record? : EventRequest → Option RecordCall
  | .eventRecord record => some record
  | _ => none

theorem EventRequest.mem_filterMap_record? {requests : List EventRequest} {record : RecordCall} :
    record ∈ requests.filterMap EventRequest.record? ↔ .eventRecord record ∈ requests := by
  rw [List.mem_filterMap]
  constructor
  · rintro ⟨request, hmem, heq⟩
    cases request with
    | eventRecord other => exact Option.some.inj heq ▸ hmem
    | _ => exact nomatch heq
  · exact fun hmem ↦ ⟨_, hmem, rfl⟩

section

variable {event : CUevent} {ok : RecordCall → Bool} {requests : List EventRequest}
  {record : RecordCall}

theorem latestRecord_record (event : CUevent) (ok : RecordCall → Bool)
    (requests : List EventRequest) (record : RecordCall) :
    latestRecord event ok (requests ++ [.eventRecord record]) =
      if record.event = event ∧ ok record then some record else latestRecord event ok requests := by
  rw [latestRecord, List.foldl_append]
  rfl

theorem latestRecord_destroy (event : CUevent) (ok : RecordCall → Bool)
    (requests : List EventRequest) (destroyed : CUevent) :
    latestRecord event ok (requests ++ [.eventDestroy destroyed]) =
      if destroyed = event then none else latestRecord event ok requests := by
  rw [latestRecord, List.foldl_append]
  rfl

theorem latestRecord_copy (event : CUevent) (ok : RecordCall → Bool)
    (requests : List EventRequest) (copy : ℕ) :
    latestRecord event ok (requests ++ [.memcpyDtoHAsync copy]) =
      latestRecord event ok requests := by
  rw [latestRecord, List.foldl_append]
  rfl

theorem latestRecord_query (event : CUevent) (ok : RecordCall → Bool)
    (requests : List EventRequest) (query : EventQuery) :
    latestRecord event ok (requests ++ [.eventQuery query]) =
      latestRecord event ok requests := by
  rw [latestRecord, List.foldl_append]
  rfl

theorem mem_of_latestRecord (h : latestRecord event ok requests = some record) :
    .eventRecord record ∈ requests ∧ record.event = event := by
  induction requests using List.reverseRecOn with
  | nil => exact nomatch h
  | append_singleton requests request ih =>
    have hold : latestRecord event ok requests = some record →
        .eventRecord record ∈ requests ++ [request] ∧ record.event = event :=
      fun h ↦ ⟨List.mem_append_left _ (ih h).1, (ih h).2⟩
    cases request with
    | eventRecord other =>
      rw [latestRecord_record] at h
      split_ifs at h with hother
      · obtain rfl := Option.some.inj h
        exact ⟨List.mem_append_right _ (List.mem_singleton_self _), hother.1⟩
      · exact hold h
    | eventDestroy destroyed =>
      rw [latestRecord_destroy] at h
      split_ifs at h
      exact hold h
    | memcpyDtoHAsync copy => exact hold (latestRecord_copy _ _ _ _ ▸ h)
    | eventQuery query => exact hold (latestRecord_query _ _ _ _ ▸ h)

/-- When the last record of an event meets the condition, it is the latest that does. -/
theorem lastRecord_of_latestRecord (hlast : ∀ last ∈ lastRecord event requests, ok last = true)
    (h : latestRecord event ok requests = some record) :
    lastRecord event requests = some record := by
  induction requests using List.reverseRecOn with
  | nil => exact nomatch h
  | append_singleton requests request ih =>
    rw [lastRecord] at hlast ⊢
    cases request with
    | eventRecord other =>
      rw [latestRecord_record] at hlast h ⊢
      by_cases hother : other.event = event
      · rw [if_pos ⟨hother, rfl⟩] at hlast ⊢
        rw [if_pos ⟨hother, hlast other rfl⟩] at h
        exact h
      · rw [if_neg fun hboth ↦ hother hboth.1] at hlast h ⊢
        exact ih hlast h
    | eventDestroy destroyed =>
      rw [latestRecord_destroy] at hlast h ⊢
      by_cases hdestroyed : destroyed = event
      · rw [if_pos hdestroyed] at h
        exact nomatch h
      · rw [if_neg hdestroyed] at hlast h ⊢
        exact ih hlast h
    | memcpyDtoHAsync copy =>
      rw [latestRecord_copy] at hlast h ⊢
      exact ih hlast h
    | eventQuery query =>
      rw [latestRecord_query] at hlast h ⊢
      exact ih hlast h

theorem lastRecord_of_append {later : List EventRequest}
    (hlater : ∀ other, .eventRecord other ∈ later → other.event ≠ event)
    (h : lastRecord event (requests ++ later) = some record) :
    lastRecord event requests = some record := by
  induction later using List.reverseRecOn with
  | nil => rwa [List.append_nil] at h
  | append_singleton later request ih =>
    have hearlier : ∀ other, .eventRecord other ∈ later → other.event ≠ event :=
      fun other hmem ↦ hlater other (List.mem_append_left _ hmem)
    rw [← List.append_assoc, lastRecord] at h
    cases request with
    | eventRecord other =>
      have hne := hlater other (List.mem_append_right _ (List.mem_singleton_self _))
      rw [latestRecord_record, if_neg fun hboth ↦ hne hboth.1] at h
      exact ih hearlier h
    | eventDestroy destroyed =>
      rw [latestRecord_destroy] at h
      split_ifs at h
      exact ih hearlier h
    | memcpyDtoHAsync copy =>
      rw [latestRecord_copy] at h
      exact ih hearlier h
    | eventQuery query =>
      rw [latestRecord_query] at h
      exact ih hearlier h

end

/-! ## The invariant

The table holds a number for each record it has seen. Between steps a thread may have a record that
is noted and not queued, and it is the only one with that record; every other record that was noted
is queued. A query knows the records it will mark complete and the copies it will take to be
drained, and as long as the table has the record asked about nothing of that event was noted
since. -/

section

variable (connOf : CUevent → ℕ)

namespace EventState

/-- The number of a record that was noted, or zero. -/
def Noted (st : EventState) (n : ℕ) : Prop := n = 0 ∨ ∃ record ∈ st.records, record.seq = n

/-- The records of an event that were noted are queued, and the last of them is complete. -/
def Settled (st : EventState) (event : CUevent) : Prop :=
  (∀ record ∈ st.records, record.event = event →
      .eventRecord record ∈ st.requests (connOf event)) ∧
    ∀ record ∈ lastRecord event (st.requests (connOf event)), record ∈ st.complete

/-- No record of an event was noted since the batch of a query was collected. -/
def Fresh (st : EventState) (query : EventQuery) (event : CUevent) : Prop :=
  ∀ record ∈ st.records, record.event = event → record ∈ query.noted

/-- What is known of a query and of an event in its batch: while the table has the record that was
asked about, no other was noted. -/
def Asked (st : EventState) (query : EventQuery) : Prop :=
  (∀ record ∈ query.noted, record ∈ st.records) ∧
    ∀ entry ∈ query.batch, connOf entry.event = query.conn ∧ st.Noted entry.recorded ∧
      (entry.recorded ≠ 0 → ∀ slot ∈ st.table.slots, slot.event = entry.event →
        slot.recorded = entry.recorded → st.Fresh query entry.event)

/-- What is known of an event that a query was told is complete. -/
def Answered (st : EventState) (query : EventQuery) (results : List Bool) : Prop :=
  ∀ entry, (entry, true) ∈ query.batch.zip results → entry.recorded ≠ 0 →
    st.Fresh query entry.event → st.Settled connOf entry.event

end EventState

namespace EventThread

/-- The record whose request a thread has yet to queue. -/
def recording : EventThread → Option RecordCall
  | .recordBegun record => some record
  | .recordNoted record => some record
  | _ => none

def Inv (st : EventState) : EventThread → Prop
  | .idle => True
  | .recordBegun record => record.event ≠ 0 ∧ record.seq ≤ st.table.recordSeq ∧
      ¬st.Noted record.seq ∧ ∀ copy ∈ record.after, copy < st.table.dtohIssued
  | .recordNoted record => record ∈ st.records ∧
      (∀ conn, .eventRecord record ∉ st.requests conn) ∧
        ∀ copy ∈ record.after, copy < st.table.dtohIssued
  | .recordQueued record => ∀ copy ∈ record.after, copy < st.table.dtohIssued
  | .copyCounted copy _ => copy < st.table.dtohIssued
  | .copyQueued copy => copy < st.table.dtohIssued
  | .destroyQueued _ => True
  | .queryBegun _ returned =>
    ∀ record ∈ returned, ∀ copy ∈ record.after, copy < st.table.dtohIssued
  | .queryLoaded _ returned issued =>
    ∀ record ∈ returned, ∀ copy ∈ record.after, copy < issued
  | .queryPending _ returned copiesPending =>
    copiesPending = false → ∀ record ∈ returned, ∀ copy ∈ record.after, copy ∈ st.written
  | .queryCollected query => st.Asked connOf query
  | .querySampled query => st.Asked connOf query
  | .queryWaiting _ => True
  | .queryReceived query results => st.Asked connOf query ∧ st.Answered connOf query results ∧
      (firstSuccess results = true → ∀ copy < query.sample, copy ∈ st.written)
  | .queryNoted sample => ∀ copy < sample, copy ∈ st.written

end EventThread

/-- The client and the servers between steps. -/
structure EventInv (st : EventState) : Prop where
  unique : UniqueEvents st.table.slots
  slots : ∀ slot ∈ st.table.slots, st.Noted slot.recorded ∧ st.Noted slot.completed ∧
    (slot.event ≠ 0 → slot.recorded = slot.completed → st.Settled connOf slot.event)
  records : ∀ record ∈ st.records, record.event ≠ 0 ∧ record.seq ≤ st.table.recordSeq
  requests : ∀ conn record, .eventRecord record ∈ st.requests conn → record ∈ st.records
  once : ∀ conn, ((st.requests conn).filterMap EventRequest.record?).Nodup
  returnedRecords : ∀ record ∈ st.returnedRecords, ∀ copy ∈ record.after,
    copy < st.table.dtohIssued
  returnedCopies : ∀ copy ∈ st.returnedCopies, copy < st.table.dtohIssued
  drained : ∀ copy < st.table.dtohDrained, copy ∈ st.written
  /-- The data of a copy that was handled waits at the server, is in a response or was written. -/
  copies : ∀ conn copy, .memcpyDtoHAsync copy ∈ st.handled conn → copy ∈ st.pending conn ∨
    copy ∈ (st.responses conn).flatMap EventResponse.copies ∨ copy ∈ st.written
  sent : ∀ conn before query after, st.wire conn = before ++ .eventQuery query :: after →
    st.Asked connOf query ∧ query.conn = conn ∧
      query.Behind (st.handled conn ++ before) st.written
  /-- When the responses up to a successful one are read, the copies it stands for are written. -/
  responses : ∀ conn before response after, st.responses conn = before ++ response :: after →
    st.Asked connOf response.query ∧ st.Answered connOf response.query response.results ∧
      (firstSuccess response.results = true → ∀ copy < response.query.sample,
        copy ∈ (before ++ [response]).flatMap EventResponse.copies ∨ copy ∈ st.written)
  threads : ∀ thread, (st.threads thread).Inv connOf st
  distinct : ∀ t u, t ≠ u → ∀ record ∈ (st.threads t).recording,
    ∀ other ∈ (st.threads u).recording, record.seq ≠ other.seq
  right : st.AnswersRight

theorem eventInv_init : EventInv connOf {} where
  unique := uniqueEvents_replicate _
  slots slot hslot := by
    obtain rfl := List.eq_of_mem_replicate hslot
    exact ⟨Or.inl rfl, Or.inl rfl, fun hne ↦ absurd rfl hne⟩
  records _ h := absurd h List.not_mem_nil
  requests _ _ h := absurd h List.not_mem_nil
  once _ := List.nodup_nil
  returnedRecords _ h := absurd h List.not_mem_nil
  returnedCopies _ h := absurd h List.not_mem_nil
  drained _ h := absurd h (Nat.not_lt_zero _)
  copies _ _ h := absurd h List.not_mem_nil
  sent _ _ _ _ h := absurd h.symm (List.append_ne_nil_of_right_ne_nil _ (List.cons_ne_nil _ _))
  responses _ _ _ _ h :=
    absurd h.symm (List.append_ne_nil_of_right_ne_nil _ (List.cons_ne_nil _ _))
  threads _ := trivial
  distinct _ _ _ _ h := nomatch h
  right _ h := absurd h List.not_mem_nil

end

/-! ## What steps leave

`Evolves` is what a step leaves of the table and the requests for whoever takes no part in it. It
holds for steps that note no record and for those that leave the slots alone, and what is known of
an idle thread or of a query on the wire goes through it. -/

section

variable {connOf : CUevent → ℕ} {st st' : EventState}

namespace EventState

theorem Settled.congr {event : CUevent} (h : st.Settled connOf event)
    (hrecords : st'.records = st.records)
    (hrequests : st'.requests (connOf event) = st.requests (connOf event))
    (hcomplete : ∀ record ∈ st.complete, record ∈ st'.complete) : st'.Settled connOf event := by
  rw [Settled, hrecords, hrequests]
  exact ⟨h.1, fun record hrecord ↦ hcomplete record (h.2 record hrecord)⟩

theorem Noted.noteRecord {n : ℕ} (h : st.Noted n) (record : RecordCall) :
    (st.noteRecord record).Noted n :=
  h.imp_right fun ⟨other, hother, hseq⟩ ↦ ⟨other, List.mem_append_left _ hother, hseq⟩

theorem Settled.noteRecord {event : CUevent} (h : st.Settled connOf event) {record : RecordCall}
    (hne : event ≠ record.event) : (st.noteRecord record).Settled connOf event := by
  refine ⟨fun other hother heq ↦ ?_, h.2⟩
  rcases List.mem_append.mp hother with hother | hother
  · exact h.1 other hother heq
  · exact absurd (List.mem_singleton.mp hother ▸ heq).symm hne

variable (connOf) in
/-- What a step leaves as it was for a thread or a query that takes no part in it. -/
structure Evolves (st st' : EventState) : Prop where
  records : ∀ record ∈ st.records, record ∈ st'.records
  recordSeq : st.table.recordSeq ≤ st'.table.recordSeq
  dtohIssued : st.table.dtohIssued ≤ st'.table.dtohIssued
  written : ∀ copy ∈ st.written, copy ∈ st'.written
  asked : ∀ query, st.Asked connOf query → st'.Asked connOf query
  answered : ∀ query results, st.Asked connOf query → st.Answered connOf query results →
    st'.Answered connOf query results

theorem evolves_of_records (hrecords : st'.records = st.records)
    (hrecordSeq : st.table.recordSeq ≤ st'.table.recordSeq)
    (hdtohIssued : st.table.dtohIssued ≤ st'.table.dtohIssued)
    (hwritten : ∀ copy ∈ st.written, copy ∈ st'.written)
    (hslots : ∀ slot ∈ st'.table.slots, slot.recorded ≠ 0 →
      ∃ old ∈ st.table.slots, old.event = slot.event ∧ old.recorded = slot.recorded)
    (hsettled : ∀ event, st.Settled connOf event → st'.Settled connOf event) :
    Evolves connOf st st' where
  records := hrecords ▸ fun _ h ↦ h
  recordSeq := hrecordSeq
  dtohIssued := hdtohIssued
  written := hwritten
  asked query h := by
    rw [Asked, hrecords]
    refine ⟨h.1, fun entry hentry ↦ ?_⟩
    obtain ⟨hconn, hnoted, hfresh⟩ := h.2 entry hentry
    rw [Noted, Fresh, hrecords]
    refine ⟨hconn, hnoted, fun hne slot hslot hevent hrecorded ↦ ?_⟩
    obtain ⟨old, hold, holdEvent, holdRecorded⟩ := hslots slot hslot (hrecorded ▸ hne)
    exact hfresh hne old hold (holdEvent.trans hevent) (holdRecorded.trans hrecorded)
  answered query results _ h entry hentry hne hfresh := by
    rw [Fresh, hrecords] at hfresh
    exact hsettled entry.event (h entry hentry hne hfresh)

theorem evolves_of_slots (hrecords : st'.records = st.records)
    (hslots : st'.table.slots = st.table.slots)
    (hrecordSeq : st.table.recordSeq ≤ st'.table.recordSeq)
    (hdtohIssued : st.table.dtohIssued ≤ st'.table.dtohIssued)
    (hwritten : ∀ copy ∈ st.written, copy ∈ st'.written)
    (hsettled : ∀ event, st.Settled connOf event → st'.Settled connOf event) :
    Evolves connOf st st' := by
  refine evolves_of_records hrecords hrecordSeq hdtohIssued hwritten ?_ hsettled
  intro slot hslot _
  exact ⟨slot, hslots ▸ hslot, rfl, rfl⟩

end EventState

theorem EventThread.Inv.evolve {thread : EventThread} (h : thread.Inv connOf st)
    (hst : st.Evolves connOf st')
    (hnoted : ∀ record, thread = .recordBegun record → ¬st'.Noted record.seq)
    (hqueued : ∀ record, thread = .recordNoted record →
      ∀ conn, .eventRecord record ∉ st'.requests conn) : thread.Inv connOf st' := by
  have hcounted : ∀ {copies : List ℕ}, (∀ copy ∈ copies, copy < st.table.dtohIssued) →
      ∀ copy ∈ copies, copy < st'.table.dtohIssued :=
    fun h copy hcopy ↦ lt_of_lt_of_le (h copy hcopy) hst.dtohIssued
  cases thread with
  | idle => trivial
  | recordBegun record =>
    exact ⟨h.1, le_trans h.2.1 hst.recordSeq, hnoted record rfl, hcounted h.2.2.2⟩
  | recordNoted record => exact ⟨hst.records record h.1, hqueued record rfl, hcounted h.2.2⟩
  | recordQueued record => exact hcounted h
  | copyCounted copy conn => exact lt_of_lt_of_le h hst.dtohIssued
  | copyQueued copy => exact lt_of_lt_of_le h hst.dtohIssued
  | destroyQueued event => trivial
  | queryBegun event returned => exact fun record hrecord ↦ hcounted (h record hrecord)
  | queryLoaded event returned issued => exact h
  | queryPending event returned copiesPending =>
    exact fun hnone record hrecord copy hcopy ↦
      hst.written copy (h hnone record hrecord copy hcopy)
  | queryCollected query => exact hst.asked query h
  | querySampled query => exact hst.asked query h
  | queryWaiting conn => trivial
  | queryReceived query results =>
    exact ⟨hst.asked query h.1, hst.answered query results h.1 h.2.1,
      fun hfirst copy hcopy ↦ hst.written copy (h.2.2 hfirst copy hcopy)⟩
  | queryNoted sample => exact fun copy hcopy ↦ hst.written copy (h copy hcopy)

/-! ## Threads and requests

An event is settled when its records are queued and the last of them is complete. More requests keep
it settled, since none of its records is missing. -/

namespace EventState

variable {conn : ℕ} {request : EventRequest}

theorem setThread_noteRecord (st : EventState) (thread : ℕ) (between next : EventThread)
    (record : RecordCall) :
    ((st.setThread thread between).noteRecord record).setThread thread next =
      (st.noteRecord record).setThread thread next := by
  show { st.noteRecord record with
    threads := Function.update (Function.update st.threads thread between) thread next } = _
  rw [Function.update_idem]
  rfl

theorem setThread_queue (st : EventState) (thread : ℕ) (between next : EventThread) :
    ((st.setThread thread between).queue conn request).setThread thread next =
      (st.queue conn request).setThread thread next := by
  show { st.queue conn request with
    threads := Function.update (Function.update st.threads thread between) thread next } = _
  rw [Function.update_idem]
  rfl

theorem requests_queue_self (st : EventState) (conn : ℕ) (request : EventRequest) :
    (st.queue conn request).requests conn = st.requests conn ++ [request] := by
  show st.handled conn ++ Function.update st.wire conn (st.wire conn ++ [request]) conn = _
  rw [Function.update_self, ← List.append_assoc]
  rfl

theorem requests_queue_of_ne (st : EventState) {c : ℕ} (hne : c ≠ conn) (request : EventRequest) :
    (st.queue conn request).requests c = st.requests c := by
  show st.handled c ++ Function.update st.wire conn (st.wire conn ++ [request]) c = _
  rw [Function.update_of_ne hne]
  rfl

theorem mem_requests_queue {c : ℕ} {other : EventRequest}
    (h : other ∈ (st.queue conn request).requests c) : other ∈ st.requests c ∨ other = request := by
  rcases eq_or_ne c conn with rfl | hne
  · rw [requests_queue_self] at h
    exact (List.mem_append.mp h).imp_right List.mem_singleton.mp
  · rw [requests_queue_of_ne st hne] at h
    exact Or.inl h

theorem Settled.queue {event : CUevent} (h : st.Settled connOf event)
    (hrecord : ∀ record, request = .eventRecord record →
      record ∈ st.records ∧ ∀ c, .eventRecord record ∉ st.requests c) :
    (st.queue conn request).Settled connOf event := by
  rcases eq_or_ne (connOf event) conn with rfl | hne
  · rw [Settled, requests_queue_self]
    refine ⟨fun record hmem heq ↦ List.mem_append_left _ (h.1 record hmem heq), ?_⟩
    intro record hlast
    -- A record of the event that is queued now would have been queued before.
    have hlater : ∀ other, .eventRecord other ∈ [request] → other.event ≠ event := by
      intro other hmem heq
      obtain ⟨hnoted, hnew⟩ := hrecord other (List.mem_singleton.mp hmem).symm
      exact hnew _ (h.1 other hnoted heq)
    exact h.2 record (lastRecord_of_append hlater hlast)
  · exact Settled.congr h rfl (requests_queue_of_ne st hne request) fun _ hmem ↦ hmem

end EventState

/-! ## Steps of the client keep the invariant

The invariant has a part for the slots, one for the queries on the wire, one for the responses and
one for the threads, and each goes on over a step that leaves it alone. The lemmas after that take
the changes one at a time: a thread goes on, a record is noted, a request is queued, results are
noted, the count of drained copies moves. Noting a record bears on no query, since one that asks
about the event asks about an earlier record, which the table then has no longer. -/

namespace EventInv

variable (h : EventInv connOf st)
include h

theorem slots_evolve (hrecords : st'.records = st.records)
    (hslots : st'.table.slots = st.table.slots)
    (hsettled : ∀ event, st.Settled connOf event → st'.Settled connOf event) :
    ∀ slot ∈ st'.table.slots, st'.Noted slot.recorded ∧ st'.Noted slot.completed ∧
      (slot.event ≠ 0 → slot.recorded = slot.completed → st'.Settled connOf slot.event) := by
  intro slot hslot
  obtain ⟨hrecorded, hcompleted, hdone⟩ := h.slots slot (hslots ▸ hslot)
  rw [EventState.Noted, EventState.Noted, hrecords]
  exact ⟨hrecorded, hcompleted, fun hne heq ↦ hsettled _ (hdone hne heq)⟩

theorem sent_evolve (hst : st.Evolves connOf st') (hwire : st'.wire = st.wire)
    (hhandled : st'.handled = st.handled) :
    ∀ conn before query after, st'.wire conn = before ++ .eventQuery query :: after →
      st'.Asked connOf query ∧ query.conn = conn ∧
        query.Behind (st'.handled conn ++ before) st'.written := by
  intro conn before query after heq
  rw [hwire] at heq
  obtain ⟨hasked, hconn, hrecords, hcopies⟩ := h.sent conn before query after heq
  rw [hhandled]
  exact ⟨hst.asked query hasked, hconn, hrecords,
    fun copy hcopy ↦ (hcopies copy hcopy).imp_right (hst.written copy)⟩

theorem responses_evolve (hst : st.Evolves connOf st') (hresponses : st'.responses = st.responses) :
    ∀ conn before response after, st'.responses conn = before ++ response :: after →
      st'.Asked connOf response.query ∧ st'.Answered connOf response.query response.results ∧
        (firstSuccess response.results = true → ∀ copy < response.query.sample,
          copy ∈ (before ++ [response]).flatMap EventResponse.copies ∨ copy ∈ st'.written) := by
  intro conn before response after heq
  rw [hresponses] at heq
  obtain ⟨hasked, hanswered, hcopies⟩ := h.responses conn before response after heq
  exact ⟨hst.asked _ hasked, hst.answered _ _ hasked hanswered,
    fun hfirst copy hcopy ↦ (hcopies hfirst copy hcopy).imp_right (hst.written copy)⟩

theorem threads_evolve (hst : st.Evolves connOf st') (hthreads : st'.threads = st.threads)
    (hrecords : st'.records = st.records)
    (hqueued : ∀ conn record, .eventRecord record ∈ st'.requests conn →
      .eventRecord record ∈ st.requests conn) :
    ∀ thread, (st'.threads thread).Inv connOf st' := by
  intro thread
  rw [hthreads]
  have hthread := h.threads thread
  refine hthread.evolve hst (fun record heq ↦ ?_) fun record heq conn hmem ↦ ?_
  · rw [heq] at hthread
    rw [EventState.Noted, hrecords]
    exact hthread.2.2.1
  · rw [heq] at hthread
    exact hthread.2.1 conn (hqueued conn record hmem)

theorem setThread {thread : ℕ} {next : EventThread} (hnext : next.Inv connOf st)
    (hdistinct : ∀ record ∈ next.recording, ∀ u ≠ thread, ∀ other ∈ (st.threads u).recording,
      record.seq ≠ other.seq) : EventInv connOf (st.setThread thread next) := by
  refine { h with threads := fun t ↦ ?_, distinct := fun t u hne record hrecord other hother ↦ ?_ }
  · show EventThread.Inv connOf st (Function.update st.threads thread next t)
    rcases eq_or_ne t thread with rfl | hne
    · rw [Function.update_self]
      exact hnext
    · rw [Function.update_of_ne hne]
      exact h.threads t
  · change record ∈ (Function.update st.threads thread next t).recording at hrecord
    change other ∈ (Function.update st.threads thread next u).recording at hother
    rcases eq_or_ne t thread with rfl | ht
    · rw [Function.update_self] at hrecord
      rw [Function.update_of_ne hne.symm] at hother
      exact hdistinct record hrecord u hne.symm other hother
    · rw [Function.update_of_ne ht] at hrecord
      rcases eq_or_ne u thread with rfl | hu
      · rw [Function.update_self] at hother
        exact (hdistinct other hother t ht record hrecord).symm
      · rw [Function.update_of_ne hu] at hother
        exact h.distinct t u hne record hrecord other hother

theorem setThread_of_none {thread : ℕ} {next : EventThread} (hnext : next.Inv connOf st)
    (hnone : next.recording = none) : EventInv connOf (st.setThread thread next) := by
  refine h.setThread hnext fun record hrecord ↦ ?_
  rw [hnone] at hrecord
  exact nomatch hrecord

theorem recording_ne {thread u : ℕ} {record other : RecordCall}
    (hrecord : record ∈ (st.threads thread).recording)
    (hother : other ∈ ((st.setThread thread .idle).threads u).recording) :
    record.seq ≠ other.seq := by
  change other ∈ (Function.update st.threads thread .idle u).recording at hother
  rcases eq_or_ne u thread with rfl | hne
  · rw [Function.update_self] at hother
    exact nomatch hother
  · rw [Function.update_of_ne hne] at hother
    exact h.distinct thread u hne.symm record hrecord other hother

theorem fetchSeq :
    EventInv connOf { st with table := { st.table with recordSeq := st.table.recordSeq + 1 } } := by
  have hst : st.Evolves connOf
      { st with table := { st.table with recordSeq := st.table.recordSeq + 1 } } :=
    EventState.evolves_of_slots rfl rfl (Nat.le_succ _) le_rfl (fun _ hcopy ↦ hcopy)
      fun _ hsettled ↦ hsettled
  refine { h with records := fun record hrecord ↦ ?_, threads := ?_ }
  · obtain ⟨hevent, hle⟩ := h.records record hrecord
    exact ⟨hevent, Nat.le_succ_of_le hle⟩
  · exact h.threads_evolve hst rfl rfl fun _ _ hmem ↦ hmem

theorem countCopy :
    EventInv connOf
      { st with table := { st.table with dtohIssued := st.table.dtohIssued + 1 } } := by
  have hst : st.Evolves connOf
      { st with table := { st.table with dtohIssued := st.table.dtohIssued + 1 } } :=
    EventState.evolves_of_slots rfl rfl le_rfl (Nat.le_succ _) (fun _ hcopy ↦ hcopy)
      fun _ hsettled ↦ hsettled
  exact
    { h with
      returnedRecords := fun record hrecord copy hcopy ↦
        Nat.lt_succ_of_lt (h.returnedRecords record hrecord copy hcopy)
      returnedCopies := fun copy hcopy ↦ Nat.lt_succ_of_lt (h.returnedCopies copy hcopy)
      threads := h.threads_evolve hst rfl rfl fun _ _ hmem ↦ hmem }

/-- After a record is noted, a slot is new, or it is that of another event as it was. -/
theorem slot_noteRecord {record : RecordCall} (hevent : record.event ≠ 0) {slot : EventSlot}
    (hslot : slot ∈ (st.noteRecord record).table.slots) :
    slot.event = record.event ∧ slot.recorded = record.seq ∧ st.Noted slot.completed ∨
      slot ∈ st.table.slots ∧ slot.event ≠ record.event := by
  rcases mem_noteRecorded h.unique hevent hslot with ⟨heq, hseq, hcompleted⟩ | hold
  · refine Or.inl ⟨heq, hseq, ?_⟩
    rcases hcompleted with hzero | ⟨old, hold, -, hcompleted⟩
    · exact Or.inl hzero
    · exact hcompleted ▸ (h.slots old hold).2.1
  · exact Or.inr hold

/-- Noting a record bears on no query: one that asks about the event asks about an earlier record,
which the table has no longer. -/
theorem evolves_noteRecord {record : RecordCall} (hevent : record.event ≠ 0)
    (hnew : ¬st.Noted record.seq) : st.Evolves connOf (st.noteRecord record) where
  records _ hother := List.mem_append_left _ hother
  recordSeq := le_rfl
  dtohIssued := le_rfl
  written _ hcopy := hcopy
  asked query hasked := by
    refine ⟨fun other hother ↦ List.mem_append_left _ (hasked.1 other hother), ?_⟩
    intro entry hentry
    obtain ⟨hconn, hseq, hfresh⟩ := hasked.2 entry hentry
    refine ⟨hconn, hseq.noteRecord record, fun hne slot hmem heq hrecorded other hother hsame ↦ ?_⟩
    rcases h.slot_noteRecord hevent hmem with ⟨-, hslotSeq, -⟩ | ⟨hold, hslotNe⟩
    · exact absurd (hrecorded.symm.trans hslotSeq ▸ hseq) hnew
    · rcases List.mem_append.mp hother with hother | hother
      · exact hfresh hne slot hold heq hrecorded other hother hsame
      · exact absurd (heq.trans (List.mem_singleton.mp hother ▸ hsame).symm) hslotNe
  answered query results hasked hanswered entry hentry hne hfresh := by
    rcases eq_or_ne entry.event record.event with heq | hother
    · -- The record was not noted when the batch was collected.
      have hmem := hfresh record (List.mem_append_right _ (List.mem_singleton_self _)) heq.symm
      exact absurd (Or.inr ⟨record, hasked.1 record hmem, rfl⟩) hnew
    · refine (hanswered entry hentry hne fun other hmem ↦ ?_).noteRecord hother
      exact hfresh other (List.mem_append_left _ hmem)

theorem noteRecord {record : RecordCall} (hevent : record.event ≠ 0)
    (hle : record.seq ≤ st.table.recordSeq) (hnew : ¬st.Noted record.seq)
    (hothers : ∀ thread other, st.threads thread = .recordBegun other → record.seq ≠ other.seq) :
    EventInv connOf (st.noteRecord record) := by
  have hevolves : st.Evolves connOf (st.noteRecord record) := h.evolves_noteRecord hevent hnew
  refine
    { h with
      unique := uniqueEvents_noteRecorded h.unique record.event record.seq
      slots := ?_
      records := ?_
      requests := fun conn other hmem ↦ List.mem_append_left _ (h.requests conn other hmem)
      sent := h.sent_evolve hevolves rfl rfl
      responses := h.responses_evolve hevolves rfl
      threads := ?_ }
  · intro slot hmem
    rcases h.slot_noteRecord hevent hmem with ⟨-, hseq, hcompleted⟩ | ⟨hold, hne⟩
    · -- The number is new, so the slot does not say that its record is complete.
      refine ⟨Or.inr ⟨record, ?_, hseq.symm⟩, hcompleted.noteRecord record, fun _ heq ↦ ?_⟩
      · exact List.mem_append_right _ (List.mem_singleton_self _)
      · exact absurd (hseq ▸ heq ▸ hcompleted) hnew
    · obtain ⟨hrecorded, hcompleted, hdone⟩ := h.slots slot hold
      exact ⟨hrecorded.noteRecord record, hcompleted.noteRecord record,
        fun hslotNe heq ↦ (hdone hslotNe heq).noteRecord hne⟩
  · intro other hother
    rcases List.mem_append.mp hother with hother | hother
    · exact h.records other hother
    · obtain rfl := List.mem_singleton.mp hother
      exact ⟨hevent, hle⟩
  · intro thread
    have hthread := h.threads thread
    refine hthread.evolve hevolves (fun other heq hother ↦ ?_) fun other heq ↦ ?_
    · have hold : st.threads thread = .recordBegun other := heq
      rw [hold] at hthread
      rcases hother with hzero | ⟨noted, hmem, hseq⟩
      · exact hthread.2.2.1 (Or.inl hzero)
      · rcases List.mem_append.mp hmem with hmem | hmem
        · exact hthread.2.2.1 (Or.inr ⟨noted, hmem, hseq⟩)
        · exact hothers thread other hold (List.mem_singleton.mp hmem ▸ hseq)
    · have hold : st.threads thread = .recordNoted other := heq
      rw [hold] at hthread
      exact hthread.2.1

theorem queue {conn : ℕ} {request : EventRequest}
    (hrecord : ∀ record, request = .eventRecord record →
      record ∈ st.records ∧ (∀ c, .eventRecord record ∉ st.requests c) ∧
        ∀ thread other, st.threads thread = .recordNoted other → record.seq ≠ other.seq)
    (hquery : ∀ query, request = .eventQuery query → st.Asked connOf query ∧ query.conn = conn ∧
      query.Behind (st.requests conn) st.written) :
    EventInv connOf (st.queue conn request) := by
  -- what is settled stays so with one request more in a queue
  have hsettled : ∀ event, st.Settled connOf event →
      (st.queue conn request).Settled connOf event :=
    fun event hevent ↦ EventState.Settled.queue hevent fun record heq ↦
      ⟨(hrecord record heq).1, (hrecord record heq).2.1⟩
  have hevolves : st.Evolves connOf (st.queue conn request) :=
    EventState.evolves_of_slots rfl rfl le_rfl le_rfl (fun _ hcopy ↦ hcopy) hsettled
  refine
    { h with
      slots := h.slots_evolve rfl rfl hsettled
      requests := fun c record hmem ↦ ?_
      once := fun c ↦ ?_
      sent := ?_
      responses := h.responses_evolve hevolves rfl
      threads := fun thread ↦ ?_ }
  · rcases EventState.mem_requests_queue hmem with hmem | heq
    · exact h.requests c record hmem
    · exact (hrecord record heq.symm).1
  · rcases eq_or_ne c conn with rfl | hne
    · rw [EventState.requests_queue_self, List.filterMap_append]
      refine List.nodup_append.mpr ⟨h.once c, ?_, ?_⟩
      · cases request with
        | eventRecord record => exact List.nodup_singleton record
        | _ => exact List.nodup_nil
      -- the record is requested once: so far it was in no queue
      · rintro record hmem other hother rfl
        rw [EventRequest.mem_filterMap_record?] at hmem hother
        exact (hrecord record (List.mem_singleton.mp hother).symm).2.1 c hmem
    · rw [EventState.requests_queue_of_ne st hne]
      exact h.once c
  · intro c before query after heq
    rcases eq_or_ne c conn with rfl | hne
    · change Function.update st.wire c (st.wire c ++ [request]) c = _ at heq
      rw [Function.update_self] at heq
      -- the query is the request that was added, or was there before with fewer behind it
      rcases concat_eq_append_cons heq with ⟨rfl, hnew⟩ | ⟨after', hold⟩
      · exact hquery query hnew.symm
      · exact h.sent c before query after' hold
    · change Function.update st.wire conn (st.wire conn ++ [request]) c = _ at heq
      rw [Function.update_of_ne hne] at heq
      exact h.sent c before query after heq
  · have hthread := h.threads thread
    refine hthread.evolve hevolves (fun record heq ↦ ?_) fun record heq c hmem ↦ ?_
    · have hold : st.threads thread = .recordBegun record := heq
      rw [hold] at hthread
      exact hthread.2.2.1
    · have hold : st.threads thread = .recordNoted record := heq
      rw [hold] at hthread
      -- a thread that has noted a record has yet to queue it, so it is not this request
      rcases EventState.mem_requests_queue hmem with hmem | hnew
      · exact hthread.2.1 c hmem
      · exact (hrecord record hnew.symm).2.2 thread record hold rfl

theorem queue_other {conn : ℕ} {request : EventRequest}
    (hrecord : ∀ record, request ≠ .eventRecord record)
    (hquery : ∀ query, request ≠ .eventQuery query) : EventInv connOf (st.queue conn request) :=
  h.queue (fun record heq ↦ absurd heq (hrecord record)) fun query heq ↦ absurd heq (hquery query)

theorem setSlots {slots : List EventSlot} (hunique : UniqueEvents slots)
    (hslots : ∀ slot ∈ slots, st.Noted slot.recorded ∧ st.Noted slot.completed ∧
      (slot.event ≠ 0 → slot.recorded = slot.completed → st.Settled connOf slot.event))
    (hold : ∀ slot ∈ slots, slot.recorded ≠ 0 →
      ∃ old ∈ st.table.slots, old.event = slot.event ∧ old.recorded = slot.recorded) :
    EventInv connOf (st.setSlots slots) := by
  have hevolves : st.Evolves connOf (st.setSlots slots) :=
    EventState.evolves_of_records rfl le_rfl le_rfl (fun _ hcopy ↦ hcopy) hold
      fun _ hsettled ↦ hsettled
  exact
    { h with
      unique := hunique
      slots := hslots
      sent := h.sent_evolve hevolves rfl rfl
      responses := h.responses_evolve hevolves rfl
      threads := h.threads_evolve hevolves rfl rfl fun _ _ hmem ↦ hmem }

theorem destroyed (event : CUevent) :
    EventInv connOf (st.setSlots (noteDestroyed st.table.slots event)) := by
  refine h.setSlots (uniqueEvents_noteDestroyed h.unique event) (fun slot hslot ↦ ?_)
    fun slot hslot hne ↦ ?_
  · rcases mem_noteDestroyed hslot with rfl | ⟨hslot, -⟩
    · exact ⟨Or.inl rfl, Or.inl rfl, fun hne ↦ absurd rfl hne⟩
    · exact h.slots slot hslot
  · rcases mem_noteDestroyed hslot with rfl | ⟨hslot, -⟩
    · exact absurd rfl hne
    · exact ⟨slot, hslot, rfl, rfl⟩

theorem resultsNoted {query : EventQuery} {results : List Bool} (hasked : st.Asked connOf query)
    (hanswered : st.Answered connOf query results) :
    EventInv connOf
      (st.setSlots (noteQueryResults st.table.slots (query.batch.zip results))) := by
  refine h.setSlots (uniqueEvents_noteQueryResults h.unique _) (fun slot hslot ↦ ?_)
    fun slot hslot _ ↦ ?_
  · obtain ⟨old, hold, hevent, hrecorded, hcompleted⟩ := mem_noteQueryResults hslot
    obtain ⟨hnoted, hnotedCompleted, hdone⟩ := h.slots old hold
    rw [hrecorded]
    rcases hcompleted with hsame | ⟨hset, hne, hresult⟩
    · rw [hsame, hevent]
      exact ⟨hnoted, hnotedCompleted, hdone⟩
    · refine ⟨hnoted, hset ▸ hrecorded ▸ hnoted, fun _ _ ↦ ?_⟩
      have hentry := hasked.2 _ (List.of_mem_zip hresult).1
      exact hanswered _ hresult hne (hentry.2.2 hne old hold hevent.symm hrecorded.symm)
  · obtain ⟨old, hold, hevent, hrecorded, -⟩ := mem_noteQueryResults hslot
    exact ⟨old, hold, hevent.symm, hrecorded.symm⟩

theorem received {conn : ℕ} {response : EventResponse} {rest : List EventResponse}
    (heq : st.responses conn = response :: rest) :
    EventInv connOf { st with
      responses := Function.update st.responses conn rest
      written := st.written ++ response.copies } := by
  set st' : EventState := { st with
      responses := Function.update st.responses conn rest
      written := st.written ++ response.copies } with hst'
  have hwritten : ∀ copy ∈ st.written, copy ∈ st'.written :=
    fun copy hcopy ↦ List.mem_append_left _ hcopy
  have hevolves : st.Evolves connOf st' :=
    EventState.evolves_of_slots rfl rfl le_rfl le_rfl hwritten fun _ hsettled ↦ hsettled
  refine
    { h with
      drained := fun copy hcopy ↦ hwritten copy (h.drained copy hcopy)
      copies := fun c copy hmem ↦ ?_
      sent := h.sent_evolve hevolves rfl rfl
      responses := ?_
      threads := h.threads_evolve hevolves rfl rfl fun _ _ hmem ↦ hmem
      right := fun record hrecord ↦ ?_ }
  · show _ ∨ copy ∈ (Function.update st.responses conn rest c).flatMap _ ∨ _
    rcases h.copies c copy hmem with hpending | hresponse | hcopy
    · exact Or.inl hpending
    · rcases eq_or_ne c conn with rfl | hne
      · rw [heq, List.flatMap_cons] at hresponse
        rw [Function.update_self]
        rcases List.mem_append.mp hresponse with hcopy | hrest
        · exact Or.inr (Or.inr (List.mem_append_right _ hcopy))
        · exact Or.inr (Or.inl hrest)
      · rw [Function.update_of_ne hne]
        exact Or.inr (Or.inl hresponse)
    · exact Or.inr (Or.inr (hwritten copy hcopy))
  · intro c before other after hother
    rcases eq_or_ne c conn with rfl | hne
    · change Function.update st.responses c rest c = _ at hother
      rw [Function.update_self] at hother
      -- a response that comes later was behind this one as well
      have hall : st.responses c = (response :: before) ++ other :: after := by
        rw [heq, hother, List.cons_append]
      obtain ⟨hasked, hanswered, hcopies⟩ := h.responses c _ other after hall
      refine ⟨hevolves.asked _ hasked, hevolves.answered _ _ hasked hanswered, ?_⟩
      intro hfirst copy hcopy
      rcases hcopies hfirst copy hcopy with hmem | hmem
      · rw [List.cons_append, List.flatMap_cons] at hmem
        rcases List.mem_append.mp hmem with hmem | hmem
        · exact Or.inr (List.mem_append_right _ hmem)
        · exact Or.inl hmem
      · exact Or.inr (hwritten copy hmem)
    · change Function.update st.responses conn rest c = _ at hother
      rw [Function.update_of_ne hne] at hother
      obtain ⟨hasked, hanswered, hcopies⟩ := h.responses c before other after hother
      exact ⟨hevolves.asked _ hasked, hevolves.answered _ _ hasked hanswered,
        fun hfirst copy hcopy ↦ (hcopies hfirst copy hcopy).imp_right (hwritten copy)⟩
  · obtain ⟨hcomplete, hcopies⟩ := h.right record hrecord
    exact ⟨hcomplete, fun copy hcopy ↦ hwritten copy (hcopies copy hcopy)⟩

theorem drain {sample : ℕ} (hsample : ∀ copy < sample, copy ∈ st.written) :
    EventInv connOf { st with table := { st.table with dtohDrained := sample } } :=
  { h with drained := hsample }

theorem recordReturned {record : RecordCall}
    (hrecord : ∀ copy ∈ record.after, copy < st.table.dtohIssued) :
    EventInv connOf { st with returnedRecords := st.returnedRecords ++ [record] } := by
  refine { h with returnedRecords := fun other hother ↦ ?_ }
  rcases List.mem_append.mp hother with hother | hother
  · exact h.returnedRecords other hother
  · exact List.mem_singleton.mp hother ▸ hrecord

theorem copyReturned {copy : ℕ} (hcopy : copy < st.table.dtohIssued) :
    EventInv connOf { st with returnedCopies := st.returnedCopies ++ [copy] } := by
  refine { h with returnedCopies := fun other hother ↦ ?_ }
  rcases List.mem_append.mp hother with hother | hother
  · exact h.returnedCopies other hother
  · exact List.mem_singleton.mp hother ▸ hcopy

theorem answer {latest : Option RecordCall}
    (hlatest : ∀ record ∈ latest, record ∈ st.complete ∧
      ∀ copy ∈ record.after, copy ∈ st.written) :
    EventInv connOf { st with answered := st.answered ++ [latest] } := by
  refine { h with right := fun record hrecord ↦ ?_ }
  rcases List.mem_append.mp hrecord with hrecord | hrecord
  · exact h.right record hrecord
  · exact hlatest record (List.mem_singleton.mp hrecord).symm

/-! ## Steps of the server keep the invariant

What the server says of the query that it handles is about records it has handled, so the events it
reports complete are settled. The copies that were pending go along with a successful answer. -/

theorem complete (record : RecordCall) :
    EventInv connOf { st with complete := st.complete ++ [record] } := by
  set st' : EventState := { st with complete := st.complete ++ [record] } with hst'
  have hcomplete : ∀ other ∈ st.complete, other ∈ st'.complete :=
    fun other hother ↦ List.mem_append_left _ hother
  have hsettled : ∀ event, st.Settled connOf event → st'.Settled connOf event :=
    fun event hevent ↦ hevent.congr rfl rfl hcomplete
  have hevolves : st.Evolves connOf st' :=
    EventState.evolves_of_slots rfl rfl le_rfl le_rfl (fun _ hcopy ↦ hcopy) hsettled
  refine
    { h with
      slots := h.slots_evolve rfl rfl hsettled
      responses := h.responses_evolve hevolves rfl
      threads := h.threads_evolve hevolves rfl rfl fun _ _ hmem ↦ hmem
      right := fun other hother ↦ ?_ }
  · exact ⟨hcomplete other (h.right other hother).1, (h.right other hother).2⟩

omit h in
theorem requests_serve {conn : ℕ} {request : EventRequest} {rest : List EventRequest}
    (hwire : st.wire conn = request :: rest) :
    (st.serve conn request rest).requests = st.requests := by
  funext c
  show Function.update st.handled conn (st.handled conn ++ [request]) c ++
    Function.update st.wire conn rest c = st.handled c ++ st.wire c
  rcases eq_or_ne c conn with rfl | hne
  · rw [Function.update_self, Function.update_self, hwire, List.append_assoc,
      List.singleton_append]
  · rw [Function.update_of_ne hne, Function.update_of_ne hne]

omit h in
theorem mem_handled_serve {conn : ℕ} {request : EventRequest} {rest : List EventRequest} {c : ℕ}
    {other : EventRequest} (hmem : other ∈ (st.serve conn request rest).handled c) :
    other ∈ st.handled c ∨ c = conn ∧ other = request := by
  change other ∈ Function.update st.handled conn (st.handled conn ++ [request]) c at hmem
  rcases eq_or_ne c conn with rfl | hne
  · rw [Function.update_self] at hmem
    exact (List.mem_append.mp hmem).imp_right fun hnew ↦ ⟨rfl, List.mem_singleton.mp hnew⟩
  · rw [Function.update_of_ne hne] at hmem
    exact Or.inl hmem

theorem serve {conn : ℕ} {request : EventRequest} {rest : List EventRequest}
    (hwire : st.wire conn = request :: rest) {pending : ℕ → List ℕ}
    {responses : ℕ → List EventResponse}
    (hcopies : ∀ c copy, .memcpyDtoHAsync copy ∈ (st.serve conn request rest).handled c →
      copy ∈ pending c ∨ copy ∈ (responses c).flatMap EventResponse.copies ∨ copy ∈ st.written)
    (hresponses : ∀ c before response after, responses c = before ++ response :: after →
      st.Asked connOf response.query ∧ st.Answered connOf response.query response.results ∧
        (firstSuccess response.results = true → ∀ copy < response.query.sample,
          copy ∈ (before ++ [response]).flatMap EventResponse.copies ∨ copy ∈ st.written)) :
    EventInv connOf { st.serve conn request rest with pending, responses } := by
  set st' : EventState := { st.serve conn request rest with pending, responses } with hst'
  -- serving moves a request along, and no request is added or lost
  have hrequests : st'.requests = st.requests := requests_serve hwire
  have hsettled : ∀ event, st.Settled connOf event → st'.Settled connOf event :=
    fun event hevent ↦ hevent.congr rfl (congrFun hrequests _) fun _ hmem ↦ hmem
  have hevolves : st.Evolves connOf st' :=
    EventState.evolves_of_slots rfl rfl le_rfl le_rfl (fun _ hcopy ↦ hcopy) hsettled
  refine
    { h with
      slots := h.slots_evolve rfl rfl hsettled
      requests := hrequests ▸ h.requests
      once := hrequests ▸ h.once
      copies := hcopies
      sent := fun c before query after heq ↦ ?_
      responses := fun c before response after heq ↦ ?_
      threads := h.threads_evolve hevolves rfl rfl fun c record hmem ↦ ?_ }
  · change Function.update st.wire conn rest c = _ at heq
    show _ ∧ _ ∧ query.Behind
      (Function.update st.handled conn (st.handled conn ++ [request]) c ++ before) st.written
    rcases eq_or_ne c conn with rfl | hne
    -- what a query was behind is handled now, or still in front of it
    · rw [Function.update_self] at heq ⊢
      have hall : st.wire c = (request :: before) ++ .eventQuery query :: after := by
        rw [hwire, heq, List.cons_append]
      rw [List.append_assoc, List.singleton_append]
      exact h.sent c _ query after hall
    · rw [Function.update_of_ne hne] at heq ⊢
      exact h.sent c before query after heq
  · obtain ⟨hasked, hanswered, hfirst⟩ := hresponses c before response after heq
    exact ⟨hevolves.asked _ hasked, hevolves.answered _ _ hasked hanswered, hfirst⟩
  · rw [hrequests] at hmem
    exact hmem

/-- What the server says of a query that is next: the events that it reports complete are settled,
since their records were all handled. -/
theorem answered_of_mayReport {query : EventQuery} {rest : List EventRequest}
    {results : List Bool} (hwire : st.wire query.conn = .eventQuery query :: rest)
    (hreport : (st.serve query.conn (.eventQuery query) rest).MayReport query results) :
    st.Answered connOf query results := by
  intro entry hresult hne hfresh
  obtain ⟨hasked, -, hbehind, -⟩ := h.sent query.conn [] query rest hwire
  rw [List.append_nil] at hbehind
  have hentry := (List.of_mem_zip hresult).1
  have hconn := (hasked.2 entry hentry).1
  have hhandled : ∀ record ∈ st.records, record.event = entry.event →
      .eventRecord record ∈ st.handled query.conn :=
    fun record hrecord heq ↦ hbehind entry hentry hne record (hfresh record hrecord heq) heq
  rw [EventState.Settled, hconn]
  refine ⟨fun record hrecord heq ↦ List.mem_append_left _ (hhandled record hrecord heq), ?_⟩
  intro record hlast
  -- A record of the event behind the query would be in the queue twice.
  have hrest : ∀ other, .eventRecord other ∈ st.wire query.conn → other.event ≠ entry.event := by
    intro other hother heq
    have honce := h.once query.conn
    rw [EventState.requests, List.filterMap_append] at honce
    refine (List.nodup_append.mp honce).2.2 other ?_ other ?_ rfl
    · have hmem := h.requests query.conn other (List.mem_append_right _ hother)
      exact EventRequest.mem_filterMap_record?.mpr (hhandled other hmem heq)
    · exact EventRequest.mem_filterMap_record?.mpr hother
  refine hreport.2 _ hresult rfl record ?_
  show lastRecord entry.event (Function.update st.handled query.conn
    (st.handled query.conn ++ [.eventQuery query]) query.conn) = some record
  rw [Function.update_self, lastRecord, latestRecord_query]
  exact lastRecord_of_append hrest hlast

theorem handleQuery {query : EventQuery} {rest : List EventRequest} {results : List Bool}
    (hwire : st.wire query.conn = .eventQuery query :: rest)
    (hreport : (st.serve query.conn (.eventQuery query) rest).MayReport query results)
    {pending : ℕ → List ℕ} {copies : List ℕ}
    (hkept : ∀ c, ∀ copy ∈ st.pending c, copy ∈ pending c ∨ c = query.conn ∧ copy ∈ copies)
    (htaken : firstSuccess results = true → ∀ copy ∈ st.pending query.conn, copy ∈ copies) :
    EventInv connOf { st.serve query.conn (.eventQuery query) rest with
      pending
      responses := Function.update st.responses query.conn
        (st.responses query.conn ++ [⟨query, copies, results⟩]) } := by
  obtain ⟨hasked, -, -, hsample⟩ := h.sent query.conn [] query rest hwire
  rw [List.append_nil] at hsample
  refine h.serve hwire (fun c copy hmem ↦ ?_) fun c before response after heq ↦ ?_
  · rcases mem_handled_serve hmem with hmem | ⟨-, heq⟩
    · rcases h.copies c copy hmem with hpending | hresponse | hcopy
      · rcases hkept c copy hpending with hpending | ⟨rfl, hcopy⟩
        · exact Or.inl hpending
        · refine Or.inr (Or.inl ?_)
          rw [Function.update_self, List.flatMap_append, List.flatMap_singleton]
          exact List.mem_append_right _ hcopy
      · refine Or.inr (Or.inl ?_)
        rcases eq_or_ne c query.conn with rfl | hne
        · rw [Function.update_self, List.flatMap_append]
          exact List.mem_append_left _ hresponse
        · rw [Function.update_of_ne hne]
          exact hresponse
      · exact Or.inr (Or.inr hcopy)
    · exact nomatch heq
  · rcases eq_or_ne c query.conn with rfl | hne
    · rw [Function.update_self] at heq
      rcases concat_eq_append_cons heq with ⟨rfl, rfl⟩ | ⟨after', hold⟩
      -- Copies ahead of the query were pending, are in an earlier response or were written.
      · refine ⟨hasked, h.answered_of_mayReport hwire hreport, fun hfirst copy hcopy ↦ ?_⟩
        rw [List.flatMap_append, List.flatMap_singleton]
        rcases hsample copy hcopy with hmem | hwritten
        · rcases h.copies _ copy hmem with hpending | hresponse | hwritten
          · exact Or.inl (List.mem_append_right _ (htaken hfirst copy hpending))
          · exact Or.inl (List.mem_append_left _ hresponse)
          · exact Or.inr hwritten
        · exact Or.inr hwritten
      · exact h.responses _ before response after' hold
    · rw [Function.update_of_ne hne] at heq
      exact h.responses c before response after heq

/-! ## Runs

Each step of a call is one of the changes above. The answer from the table is the only one that
promises something: the last record of the event is then the latest whose call had returned. -/

theorem begin {thread : ℕ} {call : EventCall}
    (hok : AsksInOrder connOf st (.begin thread call)) :
    EventInv connOf (st.begin connOf thread call) := by
  cases call with
  | eventRecord event =>
    have hlt : ∀ record ∈ st.records, record.seq < st.table.recordSeq + 1 :=
      fun record hrecord ↦ Nat.lt_succ_of_le (h.records record hrecord).2
    refine h.fetchSeq.setThread ⟨hok, le_rfl, ?_, h.returnedCopies⟩ ?_
    · rintro (hzero | ⟨record, hrecord, heq⟩)
      · exact absurd hzero (Nat.succ_ne_zero _)
      · exact absurd heq (Nat.ne_of_lt (hlt record hrecord))
    · intro record hrecord u _ other hother heq
      obtain rfl := Option.some.inj hrecord
      have hthread := h.threads u
      change other ∈ (st.threads u).recording at hother
      have hle : other.seq ≤ st.table.recordSeq := by
        cases hu : st.threads u with
        | recordBegun _ =>
          rw [hu] at hthread hother
          exact Option.some.inj hother ▸ hthread.2.1
        | recordNoted _ =>
          rw [hu] at hthread hother
          exact Option.some.inj hother ▸ (h.records _ hthread.1).2
        | _ => rw [hu] at hother; exact nomatch hother
      exact absurd (heq ▸ hle) (Nat.not_succ_le_self _)
  | memcpyDtoHAsync conn => exact h.countCopy.setThread_of_none (Nat.lt_succ_self _) rfl
  | eventDestroy event =>
    exact (h.queue_other (fun _ ↦ EventRequest.noConfusion)
      fun _ ↦ EventRequest.noConfusion).setThread_of_none trivial rfl
  | eventQuery event => exact h.setThread_of_none h.returnedRecords rfl

theorem advance_recordBegun {thread : ℕ} {record : RecordCall}
    (hthread : st.threads thread = .recordBegun record) :
    EventInv connOf ((st.noteRecord record).setThread thread (.recordNoted record)) := by
  have hinv := h.threads thread
  rw [hthread] at hinv
  obtain ⟨hevent, hle, hnew, hcounted⟩ := hinv
  have hrecording : record ∈ (st.threads thread).recording := by
    rw [hthread]
    rfl
  have hidle : EventInv connOf (st.setThread thread .idle) := h.setThread_of_none trivial rfl
  have hnoted : EventInv connOf ((st.setThread thread .idle).noteRecord record) := by
    refine hidle.noteRecord hevent hle hnew fun u other hu ↦ h.recording_ne (u := u) hrecording ?_
    rw [hu]
    rfl
  rw [← EventState.setThread_noteRecord st thread .idle]
  refine hnoted.setThread ⟨List.mem_append_right _ (List.mem_singleton_self _), ?_, hcounted⟩ ?_
  · exact fun conn hmem ↦ hnew (Or.inr ⟨record, h.requests conn record hmem, rfl⟩)
  · intro other hother u _ another hanother
    obtain rfl := Option.some.inj hother
    exact h.recording_ne hrecording hanother

theorem advance_recordNoted {thread : ℕ} {record : RecordCall}
    (hthread : st.threads thread = .recordNoted record) :
    EventInv connOf ((st.queue (connOf record.event) (.eventRecord record)).setThread thread
      (.recordQueued record)) := by
  have hinv := h.threads thread
  rw [hthread] at hinv
  obtain ⟨hnoted, hnew, hcounted⟩ := hinv
  have hrecording : record ∈ (st.threads thread).recording := by
    rw [hthread]
    rfl
  have hidle : EventInv connOf (st.setThread thread .idle) := h.setThread_of_none trivial rfl
  have hqueue : EventInv connOf
      ((st.setThread thread .idle).queue (connOf record.event) (.eventRecord record)) := by
    refine hidle.queue (fun other heq ↦ ?_) fun query heq ↦ nomatch heq
    obtain rfl := EventRequest.eventRecord.inj heq
    refine ⟨hnoted, hnew, fun u other hu ↦ h.recording_ne (u := u) hrecording ?_⟩
    rw [hu]
    rfl
  rw [← EventState.setThread_queue st thread .idle]
  exact hqueue.setThread_of_none hcounted rfl

/-- A thread looks at the table. It has its answer there if the event is settled and no copies are
pending; the last record of the event is then the latest whose call had returned. -/
theorem advance_queryPending {thread : ℕ} {event : CUevent} {returned : List RecordCall}
    {copiesPending : Bool}
    (hthread : st.threads thread = .queryPending event returned copiesPending)
    (hok : (st.threads thread).AsksAfter connOf st)
    (hstep : st.advance connOf thread (.queryPending event returned copiesPending) = some st') :
    EventInv connOf st' := by
  have hinv := h.threads thread
  rw [hthread] at hinv hok
  change (match collectQueryBatch st.table.slots copiesPending event (connOf event) connOf with
    | none => _ | some batch => _) = _ at hstep
  cases hcollect : collectQueryBatch st.table.slots copiesPending event (connOf event) connOf with
  | none =>
    rw [hcollect] at hstep
    obtain rfl := Option.some.inj hstep
    refine (h.answer fun record hlatest ↦ ?_).setThread_of_none trivial rfl
    obtain ⟨hnone, slot, hslot, rfl, hcompleted⟩ := collectQueryBatch_eq_none hcollect
    have hlast := lastRecord_of_latestRecord
      (fun last hlast ↦ decide_eq_true (hok hcollect last hlast)) hlatest
    have hmem := mem_of_latestRecord hlast
    have hevent : slot.event ≠ 0 :=
      hmem.2 ▸ (h.records record (h.requests _ record hmem.1)).1
    -- The slot is settled, so the record is complete; the copies before it were drained.
    refine ⟨((h.slots slot hslot).2.2 hevent hcompleted).2 record hlast, ?_⟩
    exact hinv hnone record (hok hcollect record hlast)
  | some batch =>
    rw [hcollect] at hstep
    obtain rfl := Option.some.inj hstep
    refine h.setThread_of_none ⟨fun _ hrecord ↦ hrecord, fun entry hentry ↦ ?_⟩ rfl
    obtain ⟨hconn, hslot⟩ := mem_collectQueryBatch hcollect hentry
    refine ⟨hconn.elim (congrArg connOf) id, ?_, fun _ _ _ _ _ record hrecord _ ↦ hrecord⟩
    by_cases hzero : entry.recorded = 0
    · exact Or.inl hzero
    · obtain ⟨slot, hmem, -, hrecorded⟩ := hslot hzero
      exact hrecorded ▸ (h.slots slot hmem).1

theorem advance {thread : ℕ} (hok : (st.threads thread).AsksAfter connOf st)
    (hstep : st.advance connOf thread (st.threads thread) = some st') : EventInv connOf st' := by
  have hinv := h.threads thread
  cases hthread : st.threads thread with
  | idle => rw [hthread] at hstep; exact nomatch hstep
  | recordBegun record =>
    rw [hthread] at hstep
    exact Option.some.inj hstep ▸ h.advance_recordBegun hthread
  | recordNoted record =>
    rw [hthread] at hstep
    exact Option.some.inj hstep ▸ h.advance_recordNoted hthread
  | recordQueued record =>
    rw [hthread] at hstep hinv
    obtain rfl := Option.some.inj hstep
    exact (h.recordReturned hinv).setThread_of_none trivial rfl
  | copyCounted copy conn =>
    rw [hthread] at hstep hinv
    obtain rfl := Option.some.inj hstep
    have hqueue : EventInv connOf (st.queue conn (.memcpyDtoHAsync copy)) :=
      h.queue_other (fun _ ↦ EventRequest.noConfusion) fun _ ↦ EventRequest.noConfusion
    exact hqueue.setThread_of_none hinv rfl
  | copyQueued copy =>
    rw [hthread] at hstep hinv
    obtain rfl := Option.some.inj hstep
    exact (h.copyReturned hinv).setThread_of_none trivial rfl
  | destroyQueued event =>
    rw [hthread] at hstep
    obtain ⟨-, hstep⟩ := Option.ite_none_left_eq_some.mp hstep
    obtain rfl := Option.some.inj hstep
    exact (h.destroyed event).setThread_of_none trivial rfl
  | queryBegun event returned =>
    rw [hthread] at hstep hinv
    obtain rfl := Option.some.inj hstep
    exact h.setThread_of_none hinv rfl
  | queryLoaded event returned issued =>
    rw [hthread] at hstep hinv
    obtain rfl := Option.some.inj hstep
    refine h.setThread_of_none (fun hnone record hrecord copy hcopy ↦ ?_) rfl
    -- All the copies that were counted before are drained.
    have heq : issued = st.table.dtohDrained := by rwa [bne_eq_false_iff_eq] at hnone
    exact h.drained copy (heq ▸ hinv record hrecord copy hcopy)
  | queryPending event returned copiesPending =>
    rw [hthread] at hstep
    exact h.advance_queryPending hthread hok hstep
  | queryCollected query =>
    rw [hthread] at hstep hinv
    obtain rfl := Option.some.inj hstep
    exact h.setThread_of_none hinv rfl
  | querySampled query =>
    rw [hthread] at hstep hinv hok
    obtain rfl := Option.some.inj hstep
    have hqueue : EventInv connOf (st.queue query.conn (.eventQuery query)) := by
      refine h.queue (fun record heq ↦ nomatch heq) fun other heq ↦ ?_
      obtain rfl := EventRequest.eventQuery.inj heq
      exact ⟨hinv, rfl, hok⟩
    exact hqueue.setThread_of_none trivial rfl
  | queryWaiting conn =>
    rw [hthread] at hstep
    change (match st.responses conn with
      | response :: rest => _ | [] => none) = _ at hstep
    cases hresponses : st.responses conn with
    | nil => rw [hresponses] at hstep; exact nomatch hstep
    | cons response rest =>
      rw [hresponses] at hstep
      obtain ⟨-, rfl⟩ := Option.ite_some_none_eq_some.mp hstep
      obtain ⟨hasked, hanswered, hcopies⟩ := h.responses conn [] response rest hresponses
      refine (h.received hresponses).setThread_of_none ⟨hasked, hanswered, ?_⟩ rfl
      intro hfirst copy hcopy
      rcases hcopies hfirst copy hcopy with hmem | hwritten
      · rw [List.nil_append, List.flatMap_singleton] at hmem
        exact List.mem_append_right _ hmem
      · exact List.mem_append_left _ hwritten
  | queryReceived query results =>
    rw [hthread] at hstep hinv
    obtain rfl := Option.some.inj hstep
    obtain ⟨hasked, hanswered, hcopies⟩ := hinv
    refine (h.resultsNoted hasked hanswered).setThread_of_none ?_ ?_
    · split_ifs with hfirst
      · exact hcopies hfirst
      · trivial
    · split_ifs <;> rfl
  | queryNoted sample =>
    rw [hthread] at hstep hinv
    obtain rfl := Option.some.inj hstep
    exact (h.drain hinv).setThread_of_none trivial rfl

theorem handle {conn : ℕ} {results : List Bool} {request : EventRequest}
    {rest : List EventRequest} (hwire : st.wire conn = request :: rest)
    (hstep : (st.serve conn request rest).handle conn results request = some st') :
    EventInv connOf st' := by
  -- a request other than a copy leaves what is pending and what is answered as it was
  have hserve : (∀ copy, request ≠ .memcpyDtoHAsync copy) →
      EventInv connOf (st.serve conn request rest) := fun hne ↦ by
    show EventInv connOf { st.serve conn request rest with
      pending := st.pending
      responses := st.responses }
    refine h.serve hwire (fun c copy hmem ↦ ?_) h.responses
    rcases mem_handled_serve hmem with hmem | ⟨-, heq⟩
    · exact h.copies c copy hmem
    · exact absurd heq.symm (hne copy)
  cases request with
  | eventRecord record => exact Option.some.inj hstep ▸ hserve fun _ ↦ EventRequest.noConfusion
  | eventDestroy event => exact Option.some.inj hstep ▸ hserve fun _ ↦ EventRequest.noConfusion
  | memcpyDtoHAsync copied =>
    obtain rfl := Option.some.inj hstep
    refine h.serve hwire (fun c copy hmem ↦ ?_) h.responses
    show copy ∈ Function.update st.pending conn (st.pending conn ++ [copied]) c ∨ _
    rcases eq_or_ne c conn with rfl | hne
    · rw [Function.update_self]
      rcases mem_handled_serve hmem with hmem | ⟨-, heq⟩
      · exact (h.copies c copy hmem).imp_left (List.mem_append_left _)
      · obtain rfl := EventRequest.memcpyDtoHAsync.inj heq
        exact Or.inl (List.mem_append_right _ (List.mem_singleton_self _))
    · rw [Function.update_of_ne hne]
      rcases mem_handled_serve hmem with hmem | ⟨heq, -⟩
      · exact h.copies c copy hmem
      · exact absurd heq hne
  -- the first answer of a batch takes along what is pending; the others take nothing
  | eventQuery query =>
    obtain ⟨-, rfl, -⟩ := h.sent conn [] query rest hwire
    obtain ⟨hreport, hstep⟩ := Option.ite_none_right_eq_some.mp hstep
    split_ifs at hstep with hfirst
    · obtain rfl := Option.some.inj hstep
      refine h.handleQuery hwire hreport (fun c copy hcopy ↦ ?_) fun _ copy hcopy ↦ hcopy
      rcases eq_or_ne c query.conn with rfl | hne
      · exact Or.inr ⟨rfl, hcopy⟩
      · refine Or.inl ?_
        show copy ∈ Function.update st.pending query.conn [] c
        rw [Function.update_of_ne hne]
        exact hcopy
    · obtain rfl := Option.some.inj hstep
      exact h.handleQuery hwire hreport (fun c copy hcopy ↦ Or.inl hcopy)
        fun htrue ↦ absurd htrue hfirst

/-- Every step that asks in order keeps the invariant. -/
theorem step {step : EventStep} (hok : AsksInOrder connOf st step)
    (hstep : eventStep connOf st step = some st') : EventInv connOf st' := by
  cases step with
  | begin thread call =>
    obtain ⟨-, hstep⟩ := Option.ite_none_right_eq_some.mp hstep
    exact Option.some.inj hstep ▸ h.begin hok
  | next thread => exact h.advance hok hstep
  | handle conn i results =>
    obtain rfl : i = 0 := hok
    obtain ⟨request, hhead, hstep⟩ := Option.bind_eq_some_iff.mp hstep
    cases hwire : st.wire conn with
    | nil => rw [hwire] at hhead; exact nomatch hhead
    | cons first rest =>
      rw [hwire] at hhead hstep
      obtain rfl := Option.some.inj hhead
      exact h.handle hwire hstep
  | complete record =>
    obtain ⟨-, hstep⟩ := Option.ite_none_right_eq_some.mp hstep
    exact Option.some.inj hstep ▸ h.complete record

end EventInv

/-- **Answers from the table are right.** In a run whose threads ask the server about a record or a
copy only when its request is ahead of the query, take an answer from the table only when no record
of the event is under way, and whose requests are handled in the order they arrive in, every answer
from the table is about a complete record, with the copies before it in client memory. -/
theorem tableAnswers_right {steps : List EventStep}
    (hrun : ((eventCalls connOf).restrict (AsksInOrder connOf)).run {} steps = some st) :
    st.AnswersRight := by
  have hinv : EventInv connOf st := by
    refine Machine.run_invariant _ ?_ (eventInv_init connOf) hrun
    intro s step s' h hstep
    obtain ⟨hok, hstep⟩ := Machine.step_restrict.mp hstep
    exact h.step hok hstep
  exact hinv.right

end

/-- A copy is issued and an event recorded; thread 2 asks the server about the event, and then
again, which the table answers. -/
def copyRecordQuery : List EventStep :=
  [.begin 1 (.memcpyDtoHAsync 0), .next 1, .next 1, .begin 1 (.eventRecord 5), .next 1, .next 1,
    .next 1, .handle 0 0 [], .handle 0 0 [], .complete ⟨5, 1, [0]⟩, .begin 2 (.eventQuery 5),
    .next 2, .next 2, .next 2, .next 2, .next 2, .handle 0 0 [true], .next 2, .next 2, .next 2,
    .begin 2 (.eventQuery 5), .next 2, .next 2, .next 2]

theorem tableAnswers_right_copyRecordQuery :
    ∃ st, ((eventCalls fun _ ↦ 0).restrict (AsksInOrder fun _ ↦ 0)).run {}
        copyRecordQuery = some st ∧
      some ⟨5, 1, [0]⟩ ∈ st.answered ∧ st.AnswersRight := by
  have hfacts : (((eventCalls fun _ ↦ 0).restrict (AsksInOrder fun _ ↦ 0)).run {}
      copyRecordQuery).map EventState.answered = some [some ⟨5, 1, [0]⟩] := by decide +kernel
  obtain ⟨st, hrun, hanswered⟩ := Option.map_eq_some_iff.mp hfacts
  exact ⟨st, hrun, hanswered ▸ List.mem_singleton_self _, tableAnswers_right hrun⟩

/-- Thread 1 has noted its record and not queued it when thread 2 asks the server, which has no
record of the event and reports success. The record is queued, its call returns, and the next query
is answered from the table while the record is not complete. -/
theorem notedRecord_answered :
    ∃ st, (eventCalls fun _ ↦ 0).run {}
        [.begin 1 (.eventRecord 5), .next 1, .begin 2 (.eventQuery 5), .next 2, .next 2, .next 2,
          .next 2, .next 2, .handle 0 0 [true], .next 2, .next 2, .next 2, .next 1, .next 1,
          .begin 2 (.eventQuery 5), .next 2, .next 2, .next 2] = some st ∧
      ¬st.AnswersRight := by
  have hfacts : ((eventCalls fun _ ↦ 0).run {}
        [.begin 1 (.eventRecord 5), .next 1, .begin 2 (.eventQuery 5), .next 2, .next 2, .next 2,
          .next 2, .next 2, .handle 0 0 [true], .next 2, .next 2, .next 2, .next 1, .next 1,
          .begin 2 (.eventQuery 5), .next 2, .next 2, .next 2]).map
        (fun st ↦ (st.answered, st.complete)) = some ([some ⟨5, 1, []⟩], []) := by
    decide +kernel
  obtain ⟨st, hrun, heq⟩ := Option.map_eq_some_iff.mp hfacts
  obtain ⟨hanswered, hcomplete⟩ := Prod.mk.inj heq
  refine ⟨st, hrun, fun hright ↦ ?_⟩
  have hmem := (hright ⟨5, 1, []⟩ (hanswered ▸ List.mem_singleton_self _)).1
  rw [hcomplete] at hmem
  exact absurd hmem List.not_mem_nil

end Lupine
