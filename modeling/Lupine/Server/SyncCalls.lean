import Lupine.Cuda

/-!
# Synchronizations and queries

What a synchronization or query shows is a matter of order: work issued to a stream before a point
is complete once a call that waits for that point, or asks about it, has succeeded. A point is a
place in the order of issue, on a stream of the device. An event stands for the point where it was
last recorded.

## Handles and streams

A handle names a stream, but three handles do so in their own way. The null handle and
`CU_STREAM_LEGACY` are two names for the NULL stream of the context that is current, so that every
context has another one. `CU_STREAM_PER_THREAD` is the default stream that the calling thread has in
the current context; since a lane of the server has a thread of its own, it is another stream on
every lane. Any other handle was created, in some context, and is the same stream everywhere.

The server sees handles only. What it files under a handle can therefore belong to several streams,
and what belongs to one stream can be filed under two handles.

## The NULL stream

A synchronization of the NULL stream may say something about other streams of its context as well.
Which ones is left to a parameter, since a blocking stream is ordered with the NULL stream and a
stream created as non-blocking is not. Streams are taken to live as long as the run: what becomes of
the handle of a stream that is destroyed is not followed.
-/

namespace Lupine

/-! ## Streams

The stream of a handle depends on who uses it: on the lane, and on the context that is current
there. -/

/-- `CU_STREAM_LEGACY`. -/
def streamLegacy : CUstream := 1

/-- `CU_STREAM_PER_THREAD`. -/
def streamPerThread : CUstream := 2

inductive DeviceStream where
  | null (context : CUcontext)
  | perThread (lane : ℕ) (context : CUcontext)
  | created (handle : CUstream)
  deriving DecidableEq, Repr

/-- The stream that a handle names on a lane. -/
def streamOf (lane : ℕ) (context : CUcontext) (handle : CUstream) : DeviceStream :=
  if handle = 0 ∨ handle = streamLegacy then .null context
  else if handle = streamPerThread then .perThread lane context
  else .created handle

namespace DeviceStream

variable (contextOf : CUstream → CUcontext)

/-- The context of a stream, for a created one that in which it was created. -/
def context : DeviceStream → CUcontext
  | null context | perThread _ context => context
  | created handle => contextOf handle

/-- A call on a stream waits for the work of another: its own, and for the NULL stream of a context
also that of the streams there that `withNull` names. -/
def waitsFor (withNull : DeviceStream → Bool) (stream other : DeviceStream) : Bool :=
  stream == other || (stream == .null (other.context contextOf) && withNull other)

end DeviceStream

/-! ## Calls

A call says something about a point only if the work there was issued before the call was made. -/

/-- A place in the order of issue. -/
structure IssuePoint where
  stream : DeviceStream
  index : ℕ
  deriving DecidableEq, Repr

/-- The synchronizations and queries, with what the driver answers. -/
inductive SyncCall where
  /-- A batch of events; the first one is the one the client asked about. -/
  | eventQuery (first : CUevent × CUresult) (others : List (CUevent × CUresult))
  | eventSynchronize (event : CUevent) (result : CUresult)
  | streamQuery (stream : CUstream) (result : CUresult)
  | streamSynchronize (stream : CUstream) (result : CUresult)
  | ctxSynchronize (result : CUresult)
  deriving DecidableEq, Repr

/-- What a call was made on: its lane and the context current there, how much had been issued, and
where the events had been recorded. -/
structure CallSite where
  lane : ℕ
  context : CUcontext
  issued : ℕ
  records : CUevent → Option IssuePoint

/-- Work at a point comes before what is recorded at another point of the same stream. -/
def IssuePoint.before (point record : IssuePoint) : Bool :=
  point.stream == record.stream && decide (point.index < record.index)

section Covers

variable (contextOf : CUstream → CUcontext) (withNull : DeviceStream → Bool) (site : CallSite)

/-- A successful call on an event shows the work at a point to be complete. -/
def CallSite.coversEvent (answer : CUevent × CUresult) (point : IssuePoint) : Bool :=
  answer.2 == .success && (site.records answer.1).any fun record ↦ point.before record

/-- A successful call on a stream shows the work at a point to be complete. -/
def CallSite.coversStream (stream : CUstream) (result : CUresult) (point : IssuePoint) : Bool :=
  result == .success &&
    (streamOf site.lane site.context stream).waitsFor contextOf withNull point.stream &&
    decide (point.index < site.issued)

/-- A call shows the work at a point to be complete: a successful synchronization or query of its
stream, of its context, or of an event recorded behind it on its stream; for the streams that
`withNull` names, also one of the NULL stream. -/
def SyncCall.covers (call : SyncCall) (point : IssuePoint) : Bool :=
  match call with
  | eventQuery first others => (first :: others).any fun answer ↦ site.coversEvent answer point
  | eventSynchronize event result => site.coversEvent (event, result) point
  | streamQuery stream result => site.coversStream contextOf withNull stream result point
  | streamSynchronize stream result => site.coversStream contextOf withNull stream result point
  | ctxSynchronize result =>
    result == .success && point.stream.context contextOf == site.context &&
      decide (point.index < site.issued)

end Covers

/-- A call covers nothing that is issued after it. -/
theorem SyncCall.index_lt_of_covers {contextOf : CUstream → CUcontext}
    {withNull : DeviceStream → Bool} {call : SyncCall} {site : CallSite} {point : IssuePoint}
    {n : ℕ} (hsite : site.issued ≤ n)
    (hrecords : ∀ event record, site.records event = some record → record.index ≤ n)
    (h : call.covers contextOf withNull site point = true) : point.index < n := by
  have hevent : ∀ answer, site.coversEvent answer point = true → point.index < n := by
    intro answer hcovers
    rw [CallSite.coversEvent, Bool.and_eq_true, Option.any_eq_true] at hcovers
    obtain ⟨-, record, hrecord, hcovers⟩ := hcovers
    have hindex : point.index < record.index := by
      rw [IssuePoint.before, Bool.and_eq_true] at hcovers
      exact of_decide_eq_true hcovers.2
    exact lt_of_lt_of_le hindex (hrecords _ record hrecord)
  have hstream : ∀ stream result,
      site.coversStream contextOf withNull stream result point = true → point.index < n := by
    intro stream result hcovers
    rw [CallSite.coversStream, Bool.and_eq_true] at hcovers
    exact lt_of_lt_of_le (of_decide_eq_true hcovers.2) hsite
  cases call with
  | eventQuery first others =>
    rw [covers, List.any_eq_true] at h
    obtain ⟨answer, -, hcovers⟩ := h
    exact hevent answer hcovers
  | eventSynchronize event result => exact hevent _ h
  | streamQuery stream result => exact hstream stream result h
  | streamSynchronize stream result => exact hstream stream result h
  | ctxSynchronize result =>
    rw [covers, Bool.and_eq_true] at h
    exact lt_of_lt_of_le (of_decide_eq_true h.2) hsite

end Lupine
