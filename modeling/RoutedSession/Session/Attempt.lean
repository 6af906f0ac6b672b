import RoutedSession.Error
import RoutedSession.Packet.Buffer
import RoutedSession.Session.Link

/-!
The exchange that opens a connection, from the client's side: the offer is written, the server's
first packet is read and judged, and its answer is confirmed. The whole exchange has to be over in
time.
-/

namespace RoutedSession

/-- What the server answered, and what arrived behind its answer. -/
structure Accepted where
  response : HandshakeResponse
  /-- The packets that arrived together with the answer. -/
  trailing : List Packet
  /-- What has arrived of the packet after them. -/
  buffer : PacketBuffer

/-- How far an exchange has come. -/
inductive AttemptPhase where
  | starting
  /-- These bytes of the offer are left, or the flush behind it if there are none. -/
  | offering (left : List Bytes)
  | awaiting (buffer : PacketBuffer)
  /-- These bytes of the confirmation are left, or the flush behind it if there are none. -/
  | confirming (left : List Bytes) (accepted : Accepted)

/-- An exchange under way. -/
structure Attempt where
  request : HandshakeRequest
  /-- The longest payload that is accepted. -/
  limit : Nat
  /-- How many milliseconds the exchange may take, and when they are over. -/
  timeout : Nat
  deadline : Nat
  phase : AttemptPhase := .starting

/-- How an exchange stands after a turn. -/
inductive Attempt.State where
  | waiting (phase : AttemptPhase)
  | accepted (accepted : Accepted)
  | failed (reason : SessionError)

namespace Attempt

/-- The most bytes that are read at once. -/
def chunk : Nat := 4096

def offer (request : HandshakeRequest) : Packet :=
  ⟨.handshake, request.text⟩

/-- The packet that confirms the server's answer. -/
def confirmation : Packet :=
  ⟨.handshakeAck, []⟩

def writePacket (share : Nat) (link : Link) (left : List Bytes) : Writer.Progress × Link :=
  Writer.writeOut Link.sink "write zero" share link left

/-- Writes what is left of the confirmation. -/
def confirm (share : Nat) (link : Link) (left : List Bytes) (accepted : Accepted) :
    State × Link :=
  match writePacket share link left with
  | (.finished _, link) => (.accepted accepted, link)
  | (.halted left _, link) => (.waiting (.confirming left accepted), link)
  | (.failed reason, link) => (.failed (.stream reason), link)

/-- Judges the server's first packet. -/
def judge (packet : Packet) : Except HandshakeError HandshakeResponse :=
  if packet.kind = .handshake then HandshakeResponse.parse packet.payload
  else .error (.unexpectedPacket packet.kind)

/-- Reads until the server's first packet is complete. A read that would go beyond the share of
transfers that the turn has left is not made. -/
def readAnswer (share : Nat) (link : Link) (buffer : PacketBuffer) : State × Link :=
  match share, _hfound : link.read chunk with
  | _, (.blocked, _) => (.waiting (.awaiting buffer), link)
  | _, (.failed reason, _) => (.failed (.stream reason), link)
  | 0, _ => (.waiting (.awaiting buffer), link)
  | _ + 1, (.ended, _) => (.failed (.handshake .closedEarly), link)
  | share + 1, (.got bytes, rest) =>
      match buffer.push bytes with
      | (.error reason, _) => (.failed (.framing reason), rest)
      | (.ok [], buffer) => readAnswer share rest buffer
      | (.ok (first :: trailing), buffer) =>
          match judge first with
          | .error reason => (.failed (.handshake reason), rest)
          | .ok response =>
              confirm share rest [confirmation.bytes] { response, trailing, buffer }
termination_by link.toClient.held.size
decreasing_by exact Link.read_got_lt (by decide) _hfound

/-- Writes what is left of the offer, and goes on from there. -/
def writeOffer (limit share : Nat) (link : Link) (left : List Bytes) : State × Link :=
  match writePacket share link left with
  | (.finished share, link) => readAnswer share link (.empty limit)
  | (.halted left _, link) => (.waiting (.offering left), link)
  | (.failed reason, link) => (.failed (.stream reason), link)

/-- Lets the exchange go on as far as it can in one turn, with no regard to the time. -/
def advance (attempt : Attempt) (link : Link) : State × Link :=
  match attempt.phase with
  | .starting =>
      match (offer attempt.request).encode with
      | .error reason => (.failed (.framing reason), link)
      | .ok bytes => writeOffer attempt.limit transfersPerTurn link [bytes]
  | .offering left => writeOffer attempt.limit transfersPerTurn link left
  | .awaiting buffer => readAnswer transfersPerTurn link buffer
  | .confirming left accepted => confirm transfersPerTurn link left accepted

/-- Lets the exchange go on as far as it can in one turn. It fails if it is not over then and the
time is. -/
def poll (attempt : Attempt) (now : Nat) (link : Link) : State × Link :=
  match attempt.advance link with
  | (.waiting phase, link) =>
      if attempt.deadline ≤ now then (.failed (.handshake (.noAnswer attempt.timeout)), link)
      else (.waiting phase, link)
  | result => result

/-- Whether the exchange would do anything if it were let go on. -/
def isReady (attempt : Attempt) (now : Nat) (link : Link) : Bool :=
  attempt.deadline ≤ now ||
    match attempt.phase with
    | .starting => true
    | .offering left | .confirming left _ => link.goesOn (Writer.stallAt left)
    | .awaiting _ => link.toClient.isReadable

end Attempt

end RoutedSession
