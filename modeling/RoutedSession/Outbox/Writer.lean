import RoutedSession.Outbox.Queue
import RoutedSession.Turn

/-!
The writer takes frames out of the queue, a batch at a time, and writes them to a stream that may
take fewer bytes than it is offered. A batch that has been taken is written to its end before the
next one, unless the shutdown is signalled while the stream blocks or the writer's turn is over.
Once the writer has begun to end the stream, it waits for nothing else.
-/

namespace RoutedSession

/-- What a stream does with a write. -/
inductive Written where
  /-- It takes so many bytes. -/
  | took (count : Nat)
  /-- It takes none until something changes. -/
  | blocked
  | failed (reason : StreamError)
  deriving DecidableEq, Repr

/-- What comes of an attempt to flush a stream or to end it. -/
inductive Completion where
  | done
  /-- It is not over until something changes. -/
  | blocked
  | failed (reason : StreamError)
  deriving DecidableEq, Repr

/-- What a stream is asked for when it blocks. -/
inductive Stall where
  | write
  | flush
  | shutdown
  deriving DecidableEq, Repr

/-- A stream with states `σ` that takes bytes. -/
structure Sink (σ : Type) where
  write : σ → List Bytes → Written × σ
  flush : σ → Completion × σ
  /-- Ends the stream. -/
  shutdown : σ → Completion × σ
  /-- The number of transfers that a write counts as. -/
  cost : Nat

/-- What the writer is doing. -/
inductive Writer where
  /-- It waits for frames. -/
  | idle
  /-- These bytes of a batch are left, or the flush behind it if there are none. Either the stream
  blocked, or the turn was over. -/
  | writing (left : List Bytes) (isBlocked : Bool)
  /-- It has tried to end the stream, which blocked. -/
  | closing
  | ended (result : Except SessionError Unit)
  /-- It never began, because it could not reserve room for its batches. Nobody is told. -/
  | unable
  deriving Repr

namespace Writer

/-- The largest number of frames that room can be reserved for: a frame takes forty bytes of an
address space of 2^63 bytes. -/
def maxReservable : Nat :=
  (Nat.pow 2 63 - 1) / 40

/-- A writer that is to write batches of at most `maxBatch` frames, and the queue that it takes them
from. If it cannot begin, nobody takes frames out of the queue. -/
def start (maxBatch : Nat) (outbox : Outbox) : Writer × Outbox :=
  if maxBatch ≤ maxReservable then (.idle, outbox) else (.unable, outbox.endReceiving)

/-- Whether the writer does nothing any more. -/
def hasEnded : Writer → Bool
  | ended _ | unable => true
  | idle | writing _ _ | closing => false

/-- How writing slices ends. -/
inductive Progress where
  /-- All is written, and so many transfers are left of the turn. -/
  | finished (share : Nat)
  /-- These bytes are left, or the flush if there are none. Either the stream blocked, or the turn
  was over. -/
  | halted (left : List Bytes) (isBlocked : Bool)
  | failed (reason : StreamError)
  deriving Repr

def total (slices : List Bytes) : Nat :=
  slices.flatten.length

theorem total_drop (count : Nat) (slices : List Bytes) :
    total (Slices.drop count slices) = total slices - count := by
  rw [total, Slices.flatten_drop, List.length_drop, total]

def hasBytes (slices : List Bytes) : Bool :=
  slices.any fun slice => !slice.isEmpty

theorem hasBytes_eq_true {slices : List Bytes} : hasBytes slices = true ↔ 0 < total slices := by
  induction slices with
  | nil => simp [hasBytes, total]
  | cons slice rest ih =>
      simp only [hasBytes, total, List.any_cons, Bool.or_eq_true, List.flatten_cons,
        List.length_append] at *
      rw [ih]
      cases slice with
      | nil => simp
      | cons b bytes => exact iff_of_true (Or.inl rfl) (Nat.add_pos_left (Nat.succ_pos _) _)

/-- Offers slices to a stream until they are used up or it does not go on, and flushes the stream
behind them. A write that takes nothing fails with the given text. A write that would go beyond the
`share` of transfers that the turn has left is not made. -/
def writeOut {σ : Type} (sink : Sink σ) (nothing : String) (share : Nat) (stream : σ)
    (slices : List Bytes) : Progress × σ :=
  if _hsome : hasBytes slices then
    match sink.write stream slices with
    | (.blocked, stream) => (.halted slices true, stream)
    | (.failed reason, stream) => (.failed reason, stream)
    | (.took 0, stream) => (.failed (.tookNothing nothing), stream)
    | (.took (count + 1), after) =>
        if share < sink.cost then (.halted slices false, stream)
        else writeOut sink nothing (share - sink.cost) after (Slices.drop (count + 1) slices)
  else
    match sink.flush stream with
    | (.done, stream) => (.finished share, stream)
    | (.blocked, stream) => (.halted slices true, stream)
    | (.failed reason, stream) => (.failed reason, stream)
termination_by total slices
decreasing_by
  rw [hasBytes_eq_true] at _hsome
  rw [total_drop]
  omega

def writeBatch {σ : Type} (sink : Sink σ) (share : Nat) (stream : σ) (left : List Bytes) :
    Progress × σ :=
  writeOut sink "write_vectored returned 0" share stream left

/-- A writer together with the queue and the stream that it works on. -/
structure Work (σ : Type) where
  writer : Writer
  outbox : Outbox
  stream : σ

/-- The writer tries to end the stream and ends itself when that is over. Whether it succeeds makes
no difference. -/
def stop {σ : Type} (sink : Sink σ) (work : Work σ) : Work σ :=
  match sink.shutdown work.stream with
  | (.blocked, stream) => ⟨.closing, work.outbox, stream⟩
  | (.done, stream) | (.failed _, stream) => ⟨.ended (.ok ()), work.outbox.endReceiving, stream⟩

/-- What becomes of the writer when a batch has been written as far as it goes: either it is done
for this turn, or it goes on with the next batch and what is left of its share. -/
def afterWrite {σ : Type} (outbox : Outbox) : Progress × σ → Work σ ⊕ (Nat × σ)
  | (.finished share, stream) => .inr (share, stream)
  | (.halted left isBlocked, stream) => .inl ⟨.writing left isBlocked, outbox, stream⟩
  | (.failed reason, stream) =>
      .inl ⟨.ended (.error (.stream reason)), outbox.endReceiving, stream⟩

/-- Writes batches of at most `limit + 1` frames as long as the queue has frames, the stream goes on
and the turn is not over. Without frames the writer waits as long as there is somebody who can
send. -/
def writeBatches {σ : Type} (sink : Sink σ) (limit : Nat) (hasSenders : Bool) (share : Nat)
    (outbox : Outbox) (stream : σ) : Work σ :=
  match share with
  | 0 => ⟨.idle, outbox, stream⟩
  | share + 1 =>
      match _htaken : outbox.takeUpTo (limit + 1) with
      | ([], outbox) =>
          if hasSenders then ⟨.idle, outbox, stream⟩ else stop sink ⟨.idle, outbox, stream⟩
      | (frame :: batch, rest) =>
          let slices := Slices.ofFrames (frame :: batch)
          if share = 0 then ⟨.writing slices false, rest, stream⟩
          else
            match afterWrite rest (writeBatch sink share stream slices) with
            | .inl work => work
            | .inr (share, stream) => writeBatches sink limit hasSenders share rest stream
termination_by outbox.frames.length
decreasing_by
  have hsplit := outbox.frames_takeUpTo (limit + 1)
  rw [_htaken] at hsplit
  simp only [hsplit, List.length_append, List.length_cons]
  omega

/-- What a stream was asked for that blocked when these bytes of a batch were left. -/
def stallAt (left : List Bytes) : Stall :=
  if hasBytes left then .write else .flush

/-- Whether the writer would do anything if it were let go on. `goesOn` tells whether a stream that
blocked does so no longer. -/
def isReady (outbox : Outbox) (hasSenders : Bool) (goesOn : Stall → Bool) : Writer → Bool
  | .idle => outbox.stopped || !outbox.frames.isEmpty || !hasSenders
  | .writing left isBlocked => outbox.stopped || !isBlocked || goesOn (stallAt left)
  | .closing => goesOn .shutdown
  | .ended _ | .unable => false

/-- Lets the writer go on as far as it can in one turn. -/
def poll {σ : Type} (sink : Sink σ) (maxBatch : Nat) (hasSenders : Bool) (work : Work σ) : Work σ :=
  match work.writer with
  | .ended _ | .unable => work
  | .closing => stop sink work
  | .idle =>
      if work.outbox.stopped then stop sink work
      else
        writeBatches sink (maxBatch - 1) hasSenders transfersPerTurn work.outbox work.stream
  | .writing left _ =>
      if work.outbox.stopped then stop sink work
      else
        match afterWrite work.outbox (writeBatch sink transfersPerTurn work.stream left) with
        | .inl work => work
        | .inr (share, stream) =>
            writeBatches sink (maxBatch - 1) hasSenders share work.outbox stream

end Writer

end RoutedSession
