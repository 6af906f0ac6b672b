import RoutedSession.Outbox.Writer
import RoutedSession.Pieces

/-!
The stream between a client and its peer, as two pipes of limited size. The client's side of it can
be made to fail.
-/

namespace RoutedSession

/-- Bytes on their way in one direction. -/
structure Pipe where
  /-- How many more bytes can be put in. -/
  room : Nat
  held : Pieces := .empty
  /-- Nothing will be put in any more. -/
  isClosed : Bool := false
  deriving Repr

namespace Pipe

/-- Puts bytes in. They are no more than there is room for. -/
def put (pipe : Pipe) (bytes : Bytes) : Pipe :=
  { pipe with room := pipe.room - bytes.length, held := pipe.held.append bytes }

/-- Takes out up to `limit` bytes. -/
def take (pipe : Pipe) (limit : Nat) : Bytes × Pipe :=
  let bytes := pipe.held.bytes.take limit
  (bytes, { pipe with room := pipe.room + bytes.length, held := pipe.held.drop limit })

/-- Ends the pipe behind the bytes it holds. -/
def close (pipe : Pipe) : Pipe :=
  { pipe with isClosed := true }

/-- Whether there is anything to find at the far end: bytes, or the end. -/
def isReadable (pipe : Pipe) : Bool :=
  0 < pipe.held.size || pipe.isClosed

end Pipe

/-- What is wrong with writing. -/
inductive WriteFault where
  /-- Every write fails. -/
  | fail
  /-- Every write takes nothing. -/
  | takeNothing
  deriving DecidableEq, Repr

/-- What is wrong with the client's side of a stream. -/
structure Fault where
  write : Option WriteFault := none
  /-- Every flush fails. -/
  flush : Bool := false
  /-- Every read fails. -/
  read : Bool := false
  /-- The most bytes that a write takes. -/
  writeLimit : Option Nat := none
  /-- Whether flushes, or attempts to end the stream, are not over for the present. -/
  holdFlush : Bool := false
  holdShutdown : Bool := false
  deriving DecidableEq, Repr

/-- What a read finds. -/
inductive ReadResult where
  | got (bytes : Bytes)
  /-- The peer has ended its side. -/
  | ended
  /-- Nothing so far. -/
  | blocked
  | failed (reason : StreamError)
  deriving Repr

/-- The stream between a client and its peer. -/
structure Link where
  toPeer : Pipe
  toClient : Pipe
  fault : Fault := {}
  /-- Whether the client has given up its side. -/
  isDropped : Bool := false
  deriving Repr

namespace Link

/-- A stream that holds so many bytes in each direction. -/
def ofCapacity (capacity : Nat) (fault : Fault) : Link :=
  { toPeer := { room := capacity }, toClient := { room := capacity }, fault }

/-- The client writes: as many bytes as there is room for, and no more than a write may take. A
write that may take none does not wait for room. -/
def write (link : Link) (slices : List Bytes) : Written × Link :=
  match link.fault.write with
  | some .fail => (.failed (.failed "injected write failure"), link)
  | some .takeNothing => (.took 0, link)
  | none =>
      let room := link.toPeer.room
      if link.fault.writeLimit = some 0 then (.took 0, link)
      else if room = 0 then (.blocked, link)
      else
        let bytes := Slices.take (min room (link.fault.writeLimit.getD room)) slices
        (.took bytes.length, { link with toPeer := link.toPeer.put bytes })

/-- The client flushes. The stream holds no bytes back, so nothing changes. -/
def flush (link : Link) : Completion × Link :=
  (if link.fault.holdFlush then .blocked
    else if link.fault.flush then .failed (.failed "injected flush failure") else .done, link)

/-- The client ends its side. -/
def shutdown (link : Link) : Completion × Link :=
  if link.fault.holdShutdown then (.blocked, link)
  else (.done, { link with toPeer := link.toPeer.close })

/-- Whether the client's side would not block any more. -/
def goesOn (link : Link) : Stall → Bool
  | .write => 0 < link.toPeer.room
  | .flush => !link.fault.holdFlush
  | .shutdown => !link.fault.holdShutdown

/-- The client's side as a stream that takes bytes. -/
def sink : Sink Link := ⟨write, flush, shutdown, 1⟩

/-- The client reads up to `limit` bytes. -/
def read (link : Link) (limit : Nat) : ReadResult × Link :=
  if link.fault.read then (.failed (.failed "injected read failure"), link)
  else if link.toClient.held.size = 0 then
    (if link.toClient.isClosed then .ended else .blocked, link)
  else
    let (bytes, toClient) := link.toClient.take limit
    (.got bytes, { link with toClient })

/-- The client gives up its side. -/
def drop (link : Link) : Link :=
  { link with toPeer := link.toPeer.close, isDropped := true }

theorem read_got_lt {link rest : Link} {limit : Nat} {bytes : Bytes} (hpositive : 0 < limit)
    (hfound : link.read limit = (.got bytes, rest)) :
    rest.toClient.held.size < link.toClient.held.size := by
  unfold read at hfound
  split at hfound
  · simp at hfound
  · split at hfound
    · split at hfound <;> simp at hfound
    · simp only [Pipe.take, Prod.mk.injEq, ReadResult.got.injEq] at hfound
      obtain ⟨_, rfl⟩ := hfound
      simp only [Pieces.drop]
      omega

end Link

end RoutedSession
