import RoutedSession.Outbox.Writer

namespace RoutedSession

/-- What a write is to do. -/
inductive ScriptedWrite where
  /-- It takes at most so many bytes. -/
  | takeUpTo (count : Nat)
  | fail
  | block
  deriving DecidableEq, Repr

/-- A write that was made: the lengths of the slices offered, and what came of it. -/
structure WriteRecord where
  offered : List Nat
  result : Written
  deriving DecidableEq, Repr

/-- A stream that follows a script. Behind its end every write takes all bytes. -/
structure ScriptedStream where
  script : List ScriptedWrite := []
  failFlush : Bool := false
  failShutdown : Bool := false
  /-- Whether flushes, or attempts to end the stream, are not over for the present. -/
  holdFlush : Bool := false
  holdShutdown : Bool := false
  /-- The writes since the last look, the newest first. -/
  writes : List WriteRecord := []
  /-- What those writes took, the newest first. -/
  taken : List Bytes := []
  flushes : Nat := 0
  /-- Whether there was an attempt to end the stream. -/
  isShut : Bool := false
  deriving Repr

namespace ScriptedStream

def resultOf (total : Nat) : Option ScriptedWrite → Written
  | none => .took total
  | some (.takeUpTo count) => .took (min count total)
  | some .fail => .failed (.failed "injected write failure")
  | some .block => .blocked

def write (stream : ScriptedStream) (slices : List Bytes) : Written × ScriptedStream :=
  let result := resultOf (Writer.total slices) stream.script.head?
  let taken :=
    match result with
    | .took count => Slices.take count slices :: stream.taken
    | _ => stream.taken
  (result,
    { stream with
      script := stream.script.tail
      writes := ⟨slices.map List.length, result⟩ :: stream.writes
      taken })

/-- Counts a flush, also one that fails or is not over. -/
def flush (stream : ScriptedStream) : Completion × ScriptedStream :=
  (if stream.holdFlush then .blocked
    else if stream.failFlush then .failed (.failed "injected flush failure") else .done,
    { stream with flushes := stream.flushes + 1 })

/-- Ends the stream. An attempt that fails or is not over is recorded too. -/
def shutdown (stream : ScriptedStream) : Completion × ScriptedStream :=
  (if stream.holdShutdown then .blocked
    else if stream.failShutdown then .failed (.failed "injected shutdown failure") else .done,
    { stream with isShut := true })

/-- The stream as the writer sees it. It makes no transfers of its own. -/
def sink : Sink ScriptedStream := ⟨write, flush, shutdown, 0⟩

/-- Forgets the writes that have been looked at. -/
def forget (stream : ScriptedStream) : ScriptedStream :=
  { stream with writes := [], taken := [] }

end ScriptedStream

end RoutedSession
