import RoutedSession.Outbox.Script

/-!
A queue, a writer and a scripted stream on their own. Frames are sent from outside, at once or by
senders that may wait, and after every step all that can go on does.
-/

namespace RoutedSession

/-- How a background task ends. -/
inductive BenchEnd where
  | finished (result : Except SessionError Unit)
  /-- It could not begin. -/
  | aborted
  deriving Repr

/-- Something that runs in the background. -/
inductive BenchTask where
  /-- A sender that has not begun. -/
  | toSend (frame : Frame)
  /-- A sender that waits for a slot. -/
  | waiting (frame : Frame)
  /-- The writer. -/
  | loop
  | ended (result : BenchEnd)
  deriving Repr

/-- A background task and the name under which its end is told. -/
structure BenchCall where
  slot : String
  task : BenchTask
  /-- Whether the end has been told. -/
  isTold : Bool := false
  deriving Repr

/-- A queue with its senders, its writer and a stream. -/
structure Bench where
  outbox : Outbox
  stream : ScriptedStream
  maxBatch : Nat
  /-- The state of the writer, while somebody can take frames out. -/
  writer : Writer := .idle
  /-- Whether the handle for sending is still held. -/
  hasHandle : Bool := true
  /-- Whether the receiving end has not been given away. -/
  hasReceiver : Bool := true
  /-- The background tasks in the order in which they were started. -/
  calls : List BenchCall := []
  deriving Repr

/-- What is done to a bench from outside. -/
inductive BenchStep where
  | send (slot : String) (frame : Frame)
  | trySend (frame : Frame)
  | run
  | shutdown
  | dropHandle
  | dropReceiver
  deriving Repr

/-- What a step says at once. -/
inductive BenchResult where
  | nothing
  | sent (result : Except SessionError Unit)
  | dropped (found : Bool)
  | noHandle
  | noReceiver
  deriving Repr

namespace BenchTask

/-- Whether a task is a sender that has not ended. Every such sender keeps the queue open. -/
def isSending : BenchTask → Bool
  | toSend _ | waiting _ => true
  | loop | ended _ => false

def afterSending (frame : Frame) : Outbox.Sent → BenchTask
  | .done => ended (.finished (.ok ()))
  | .waiting => waiting frame
  | .failed reason => ended (.finished (.error reason))

end BenchTask

namespace Bench

/-- Whether anybody can still send. -/
def hasSenders (bench : Bench) : Bool :=
  bench.hasHandle || bench.calls.any (·.task.isSending)

/-- Replaces the task of a call. -/
def setTask (bench : Bench) (index : SenderId) (task : BenchTask) : Bench :=
  { bench with calls := bench.calls.modify index ({ · with task }) }

/-- Whether the writer would do anything if it were let go on. A stream that blocks does so for
ever. -/
def loopReady (bench : Bench) : Bool :=
  bench.writer.isReady bench.outbox bench.hasSenders fun _ => false

/-- Whether a background task would do anything if it were let go on. -/
def isReady (bench : Bench) (index : SenderId) : Bool :=
  match bench.calls[index]?.map BenchCall.task with
  | some (.toSend _) => true
  | some (.waiting _) => bench.outbox.canResume index
  | some .loop => bench.loopReady
  | _ => false

/-- Lets the writer go on. -/
def pollLoop (bench : Bench) (index : SenderId) : Bench :=
  let work := Writer.poll ScriptedStream.sink bench.maxBatch bench.hasSenders
    ⟨bench.writer, bench.outbox, bench.stream⟩
  let bench := { bench with writer := work.writer, outbox := work.outbox, stream := work.stream }
  match work.writer with
  | .ended result => bench.setTask index (.ended (.finished result))
  | _ => bench

/-- Lets a background task go on. -/
def poll (bench : Bench) (index : SenderId) : Bench :=
  match bench.calls[index]?.map BenchCall.task with
  | some (.toSend frame) =>
      let (sent, outbox) := bench.outbox.send index frame
      { bench with outbox }.setTask index (.afterSending frame sent)
  | some (.waiting frame) =>
      let (sent, outbox) := bench.outbox.resume index frame
      { bench with outbox }.setTask index (.afterSending frame sent)
  | some .loop => bench.pollLoop index
  | _ => bench

/-- The places of the background tasks, the oldest first. -/
def tasks (bench : Bench) : List SenderId :=
  List.range bench.calls.length

/-- Lets each background task that would do anything go on, the oldest first. -/
def round (bench : Bench) : Bench :=
  bench.tasks.foldl (fun bench index => if bench.isReady index then bench.poll index else bench)
    bench

/-- Lets the background tasks go on until all of them wait, or so many rounds are over. -/
def rounds : (count : Nat) → Bench → Bench
  | 0, bench => bench
  | count + 1, bench =>
      if bench.tasks.any bench.isReady then rounds count bench.round else bench

/-- Lets the background tasks go on until all of them wait. A round brings a sender further, ends
the writer, or makes it take a frame out of the queue or write one that it has taken. -/
def settle (bench : Bench) : Bench :=
  rounds (4 * (bench.calls.length + bench.outbox.frames.length + 1)) bench

def start (bench : Bench) (slot : String) (task : BenchTask) : Bench :=
  { bench with calls := bench.calls ++ [{ slot, task }] }

/-- What a step does before anything in the background goes on. -/
def act (bench : Bench) : BenchStep → BenchResult × Bench
  | .send slot frame =>
      if bench.hasHandle then (.nothing, bench.start slot (.toSend frame)) else (.noHandle, bench)
  | .trySend frame =>
      if bench.hasHandle then
        let (result, outbox) := bench.outbox.trySend frame
        (.sent result, { bench with outbox })
      else (.noHandle, bench)
  | .run =>
      if bench.hasReceiver then
        let (writer, outbox) := Writer.start bench.maxBatch bench.outbox
        (.nothing,
          { bench with hasReceiver := false, writer, outbox }.start "loop"
            (if writer.hasEnded then .ended .aborted else .loop))
      else (.noReceiver, bench)
  | .shutdown => (.nothing, { bench with outbox := bench.outbox.stop })
  | .dropHandle => (.dropped bench.hasHandle, { bench with hasHandle := false })
  | .dropReceiver =>
      (.dropped bench.hasReceiver,
        if bench.hasReceiver then
          { bench with hasReceiver := false, outbox := bench.outbox.endReceiving }
        else bench)

def step (bench : Bench) (action : BenchStep) : BenchResult × Bench :=
  let (result, bench) := bench.act action
  (result, bench.settle)

/-- The names and results of the tasks that have ended since the last look. -/
def news (bench : Bench) : List (String × BenchEnd) :=
  bench.calls.filterMap fun call =>
    match call.task with
    | .ended result => if call.isTold then none else some (call.slot, result)
    | _ => none

/-- Marks a call that has ended as told. -/
def tell (call : BenchCall) : BenchCall :=
  match call.task with
  | .ended _ => { call with isTold := true }
  | _ => call

/-- The bench after a look at what is new. -/
def forget (bench : Bench) : Bench :=
  { bench with calls := bench.calls.map tell, stream := bench.stream.forget }

end Bench

end RoutedSession
