import RoutedSession.Proofs.Session.Course
import RoutedSession.Proofs.Session.Ending
import RoutedSession.Proofs.Session.Turns

namespace RoutedSession

namespace CallAction

/-- The route and the payload of the request that an action makes, and what is done with the
answer. -/
def request? : CallAction → Option (String × Bytes × AnswerUse)
  | .sendRequest route payload => some (route, payload, .keep)
  | .request route payload timeout => some (route, payload, .await timeout false)
  | .requestJson route value => some (route, value.print, .await none true)
  | .notify _ _ | .close | .awaitEnd => none

/-- The message that an action sends if it begins now. A request gets the next id. -/
def message? (pending : PendingTable) (action : CallAction) : Option Message :=
  match action with
  | .notify route payload => some { kind := .notify, route, payload }
  | action =>
      match action.request?, pending.register with
      | some (route, payload, _), some ((id, _), _) =>
          some { kind := .request, id, route, payload }
      | _, _ => none

end CallAction

/-- Why a message is sent. -/
inductive Origin where
  | call (index : SenderId) (action : CallAction)
  /-- A notify that is sent at once or not at all. -/
  | tried
  | heartbeat

/-- Whether a call has a message sent. -/
def Origin.isOf (index : SenderId) : Origin → Bool
  | .call other _ => other == index
  | .tried | .heartbeat => false

/-- A message to be sent, and the codes by which it is written down. -/
structure Sending where
  origin : Origin
  routes : RouteTable
  message : Message

namespace Sending

/-- The packet that carries the message. -/
def packet (sending : Sending) : Packet :=
  ⟨.data, (sending.message.encode sending.routes).toOption.getD []⟩

/-- The packet as a frame of the queue, unless the message cannot be written down. -/
def frame (sending : Sending) : Except SessionError Frame :=
  Session.frame sending.routes sending.message

end Sending

/-- What a call has to send that begins an action now. -/
def Connection.offer? (connection : Connection) (index : SenderId) (action : CallAction) :
    Option Sending :=
  (action.message? connection.session.pending).map
    (⟨.call index action, connection.session.routes, ·⟩)

/-- What has been sent so far. -/
structure Journal where
  /-- What the queue has taken, in its order. -/
  sent : List Sending := []
  /-- What the calls have begun to send. -/
  begun : SenderId → Option Sending := fun _ => none

namespace Conversation

def queue (conversation : Conversation) : List Frame :=
  match conversation.stage with
  | .connected connection => connection.session.outbox.frames
  | _ => []

end Conversation

namespace Journal

open Conversation (Move)

/-- What a move has to send. A call that waits for a slot still has to send what it began with. -/
def offered? (journal : Journal) (conversation : Conversation) : Move → Option Sending
  | .task (.call index) =>
      match conversation.calls[index]?, conversation.stage with
      | some ⟨_, .starting action, _⟩, .connected connection => connection.offer? index action
      | _, _ => journal.begun index
  | .task .reader => some ⟨.heartbeat, conversation.routes, Session.heartbeatReply⟩
  | .command (.onSession (.tryNotify route payload)) =>
      some ⟨.tried, conversation.routes, { kind := .notify, route, payload }⟩
  | _ => none

/-- Enters what the queue takes in a move: as many frames as it grows by. -/
def note (journal : Journal) (conversation : Conversation) (move : Move) : Journal where
  sent :=
    match journal.offered? conversation move with
    | none => journal.sent
    | some sending =>
        journal.sent ++
          .replicate ((conversation.move move).queue.length - conversation.queue.length) sending
  begun :=
    match move with
    | .task (.call index) =>
        Function.update journal.begun index (journal.offered? conversation move)
    | _ => journal.begun

/-- Enters what the queue takes while moves are made. -/
def record (journal : Journal) (conversation : Conversation) : List Move → Journal
  | [] => journal
  | move :: moves => (journal.note conversation move).record (conversation.move move) moves

def sentBy (journal : Journal) (index : SenderId) : List Sending :=
  journal.sent.filter (·.origin.isOf index)

/-- The packets that a client writes: those of the exchange that opens the connection, and behind
them those of the messages that are sent. -/
def packets (journal : Journal) (settings : Settings) : List Packet :=
  Attempt.offer settings.request :: Attempt.confirmation :: journal.sent.map Sending.packet

end Journal

namespace Sending

theorem packet_of_frame {sending : Sending} {frame : Frame} (hframe : sending.frame = .ok frame) :
    frame.packet = sending.packet ∧
      sending.message.encode sending.routes = .ok sending.packet.payload := by
  unfold Sending.frame Session.frame at hframe
  unfold packet
  cases hencode : sending.message.encode sending.routes with
  | error reason => simp [hencode] at hframe
  | ok bytes =>
      simp only [hencode, Frame.ofPacket] at hframe
      split at hframe
      · obtain rfl := Except.ok.inj hframe
        exact ⟨rfl, rfl⟩
      · simp [Except.mapError] at hframe

end Sending

namespace Session

/-- The frames of a queue that grows by what is offered. -/
inductive Grows (offered? : Option Sending) (frames : List Frame) : List Frame → Prop where
  | same : Grows offered? frames frames
  | more {sending : Sending} {frame : Frame} (count : Nat) (hoffered : offered? = some sending)
      (hframe : sending.frame = .ok frame) :
      Grows offered? frames (frames ++ List.replicate count frame)

@[simp] theorem frames_terminate (session : Session) (reason : CloseReason) :
    (session.terminate reason).outbox.frames = session.outbox.frames := by
  unfold terminate
  split <;> rfl

theorem Goes.grows {session after : Session} {cause? : Option CloseReason}
    (hgoes : session.Goes ReaderChange cause? after) (origin : Origin) :
    Grows (some ⟨origin, session.routes, heartbeatReply⟩) session.outbox.frames
      after.outbox.frames := by
  obtain ⟨reply, hreply⟩ := frame_heartbeatReply session.routes
  have hchanges {last : Session} (hchanges : Relation.ReflTransGen ReaderChange session last) :
      last.routes = session.routes ∧
        ∃ count, last.outbox.frames = session.outbox.frames ++ List.replicate count reply := by
    induction hchanges with
    | refl => exact ⟨rfl, 0, (List.append_nil _).symm⟩
    | tail _ hchange ih =>
        obtain ⟨hroutes, count, hframes⟩ := ih
        cases hchange with
        | answered answer => exact ⟨hroutes, count, hframes⟩
        | told events => exact ⟨hroutes, count, hframes⟩
        | @replied again hagain =>
            obtain rfl : reply = again := by
              rw [hroutes] at hagain
              exact Except.ok.inj (hreply.symm.trans hagain)
            refine ⟨hroutes, ?_⟩
            dsimp only
            rw [Outbox.frames_trySend]
            split
            · refine ⟨count + 1, ?_⟩
              rw [hframes, List.append_assoc, List.replicate_succ']
            · exact ⟨count, hframes⟩
  have hgrows {last : Session} (hlast : Relation.ReflTransGen ReaderChange session last) :
      Grows (some ⟨origin, session.routes, heartbeatReply⟩) session.outbox.frames
        last.outbox.frames := by
    obtain ⟨-, count, hframes⟩ := hchanges hlast
    rw [hframes]
    exact .more count rfl hreply
  cases hgoes with
  | on hlast => exact hgrows hlast
  | ends hlast reason events =>
      change Grows _ _ (Session.terminate _ reason).outbox.frames
      rw [frames_terminate]
      exact hgrows hlast

end Session

end RoutedSession
