import RoutedSession.Proofs.Message.Grammar
import RoutedSession.Proofs.Session.Intake

namespace RoutedSession

open Relation (ReflTransGen)

open Session (CallChange WriterChange)

/-- The message that a packet carries, if it carries one that can be read. -/
def Packet.message? (routes : RouteTable) (packet : Packet) : Option Message :=
  match packet.kind with
  | .data => (Message.decode routes packet.payload).toOption
  | .handshake | .handshakeAck | .heartbeat | .kick => none

namespace Packet

theorem message?_eq_some_iff {packet : Packet} {routes : RouteTable} {message : Message} :
    packet.message? routes = some message ↔
      packet.kind = .data ∧ Message.decode routes packet.payload = .ok message := by
  unfold message?
  cases packet.kind with
  | data => cases Message.decode routes packet.payload <;> simp [Except.toOption]
  | _ => simp

/-- The answer that a packet carries, if it carries one that can be read. With other codes it would
be the same. -/
def answer? (packet : Packet) : Option Message :=
  (packet.message? .empty).filter (·.kind = .response)

theorem answer?_eq (packet : Packet) (routes : RouteTable) :
    packet.answer? = (packet.message? routes).filter (·.kind = .response) := by
  have hsame {first second : RouteTable} {message : Message}
      (hread : packet.message? first = some message) (hkind : message.kind = .response) :
      packet.message? second = some message := by
    obtain ⟨hdata, hdecode⟩ := message?_eq_some_iff.mp hread
    exact message?_eq_some_iff.mpr ⟨hdata, Message.decode_of_response hdecode hkind second⟩
  ext message
  simp only [answer?, Option.filter_eq_some_iff, decide_eq_true_eq]
  exact and_congr_left fun hkind => ⟨(hsame · hkind), (hsame · hkind)⟩

end Packet

namespace Dispatch

def message? (dispatch : Dispatch) : Option Message :=
  dispatch.packet.message? dispatch.session.routes

/-- The message that takes effect and is no answer. -/
def notice? (dispatch : Dispatch) : Option Message :=
  dispatch.message?.filter (·.kind ≠ .response)

theorem effect_dispatch (dispatch : Dispatch) :
    ((dispatch.session.dispatch dispatch.packet).1.pending =
      match dispatch.packet.answer? with
      | some answer => (dispatch.session.pending.resolve answer).2
      | none => dispatch.session.pending) ∧
    (dispatch.session.dispatch dispatch.packet).1.events =
      match dispatch.notice? with
      | some message => dispatch.session.events.offer (.push message)
      | none => dispatch.session.events := by
  obtain ⟨session, packet⟩ := dispatch
  dsimp only
  rw [packet.answer?_eq session.routes]
  unfold notice? message? Packet.message? Session.dispatch
  dsimp only
  cases packet.kind with
  | heartbeat =>
      obtain ⟨reply, -, hreply⟩ := session.answerHeartbeat_eq_ok
      rw [hreply]
      exact ⟨rfl, rfl⟩
  | data =>
      dsimp only
      cases Message.decode session.routes packet.payload with
      | error reason => exact ⟨rfl, rfl⟩
      | ok message =>
          unfold Session.deliver
          dsimp only [Except.toOption, Option.filter]
          by_cases hanswer : message.kind = .response <;> simp [hanswer]
  | _ => exact ⟨rfl, rfl⟩

end Dispatch

namespace Session

theorem isSome_reason_terminate (session : Session) (reason : CloseReason) :
    (session.terminate reason).reason.isSome = true := by
  unfold terminate
  split
  · rename_i first hended
    rw [hended]
    rfl
  · rfl

theorem reason_terminate_ne_none (session : Session) (reason : CloseReason) :
    (session.terminate reason).reason ≠ none :=
  Option.isSome_iff_ne_none.mp (session.isSome_reason_terminate reason)

theorem events_terminate (session : Session) (reason : CloseReason) :
    (session.terminate reason).events = session.events := by
  unfold terminate
  split <;> rfl

theorem events_of_callChanges {session after : Session}
    (hchanges : ReflTransGen CallChange session after) : after.events = session.events := by
  induction hchanges with
  | refl => rfl
  | tail _ hchange ih =>
      rw [← ih]
      cases hchange <;> rfl

theorem pending_of_writerChanges {session after : Session}
    (hchanges : ReflTransGen WriterChange session after) : after.pending = session.pending := by
  induction hchanges with
  | refl => rfl
  | tail _ hchange ih =>
      rw [← ih]
      cases hchange <;> rfl

theorem Goes.changes_of_going {Changes : Session → Session → Prop} {session after : Session}
    {cause? : Option CloseReason} (hgoes : session.Goes Changes cause? after)
    (hgoing : after.reason = none) : ReflTransGen Changes session after := by
  cases hgoes with
  | on hchanges => exact hchanges
  | @ends last hchanges reason events => exact absurd hgoing (last.reason_terminate_ne_none reason)

end Session

namespace Connection

/-- What becomes of a session that the reader does not touch: no event is put in, and as long as the
session goes on, nothing happens to its pending requests that calls do not do. -/
structure LeftAlone (before after : Connection) : Prop where
  drains : before.session.events.Drains after.session.events
  pending : after.session.reason = none →
    ∃ last, ReflTransGen CallChange before.session last ∧ last.pending = after.session.pending

section

variable {connection : Connection}

theorem leftAlone_of_changes {after : Connection}
    (hchanges : ReflTransGen CallChange connection.session after.session) :
    connection.LeftAlone after where
  drains := by
    rw [Session.events_of_callChanges hchanges]
    exact .refl _
  pending _ := ⟨_, hchanges, rfl⟩

theorem leftAlone_of_ended {after : Connection} (hended : after.session.reason.isSome = true)
    (hdrains : connection.session.events.Drains after.session.events) :
    connection.LeftAlone after where
  drains := hdrains
  pending hgoing := by
    rw [hgoing] at hended
    cases hended

theorem leftAlone_dropSession (connection : Connection) :
    connection.LeftAlone connection.dropSession := by
  refine leftAlone_of_ended (Session.isSome_reason_terminate _ _) ?_
  unfold dropSession
  dsimp only
  rw [Session.events_terminate]
  split
  · exact EventChannel.drains_dropReceiver _
  · exact .refl _

theorem leftAlone_pollCall (connection : Connection) (now : Nat) (index : SenderId)
    (state : CallState) : connection.LeftAlone (connection.pollCall now index state).2 := by
  obtain ⟨cause?, hgoes, hcause⟩ := connection.goes_pollCall now index state
  cases cause? with
  | none =>
      cases hgoes with
      | on hchanges => exact leftAlone_of_changes hchanges
  | some reason =>
      obtain ⟨rfl, rfl⟩ := (hcause reason).mp rfl
      have hclosed : (connection.pollCall now index (.starting .close)).2.session =
          connection.session.terminate .byClient :=
        connection.session_beginClose index
      refine leftAlone_of_ended ?_ ?_
      · rw [hclosed]
        exact Session.isSome_reason_terminate _ _
      · rw [hclosed, Session.events_terminate]
        exact .refl _

theorem leftAlone_pollWriter (connection : Connection) (link : Link) :
    connection.LeftAlone (connection.pollWriter link).1 where
  drains := by
    have hevents : (connection.pollWriter link).1.session.events = connection.session.events := by
      unfold pollWriter release
      dsimp only
      split
      · exact Session.events_terminate _ _
      · rfl
    rw [hevents]
    exact .refl _
  pending hgoing := by
    obtain ⟨cause?, hgoes, -⟩ := connection.goes_pollWriter link
    have hchanges := hgoes.changes_of_going hgoing
    exact ⟨connection.session, .refl, (Session.pending_of_writerChanges hchanges).symm⟩

end

end Connection

namespace Conversation

theorem dispatched_append_singleton (conversation : Conversation) (moves : List Move)
    (move : Move) : conversation.dispatched (moves ++ [move]) =
      conversation.dispatched moves ++ (conversation.follow moves).dispatchedBy move :=
  conversation.collect_append_singleton dispatchedBy moves move

theorem exists_connected_follow {conversation : Conversation} {connection : Connection}
    (hstage : conversation.stage = .connected connection) (moves : List Move) :
    ∃ last, (conversation.follow moves).stage = .connected last := by
  induction moves generalizing conversation connection with
  | nil => exact ⟨connection, hstage⟩
  | cons move moves ih =>
      obtain ⟨next, -, hnext, -⟩ := exists_goes_move hstage move
      exact ih hnext

theorem dispatchedBy_of_unconnected {conversation : Conversation}
    (hstage : ∀ connection, conversation.stage ≠ .connected connection) (move : Move) :
    conversation.dispatchedBy move = [] := by
  unfold dispatchedBy
  rw [connection?_eq_none hstage]
  split <;> rfl

theorem exists_leftAlone {before : Conversation} {connection : Connection} {move : Move}
    (hstage : before.stage = .connected connection)
    (haside : move = .task .reader → connection.readerReady before.link = false) :
    ∃ next, (before.move move).stage = .connected next ∧ next.reader = connection.reader ∧
      connection.LeftAlone next := by
  obtain ⟨next, -, hnext, hreader, -⟩ := exists_next_aside hstage haside
  refine ⟨next, hnext, hreader, ?_⟩
  have hmoved := moved hstage move
  generalize before.move move = after at hmoved hnext
  cases hmoved with
  | aside hquiet hafter =>
      obtain rfl := Stage.connected.inj (hafter.symm.trans hnext)
      exact Connection.leftAlone_of_changes .refl
  | started slot action =>
      obtain rfl := Stage.connected.inj (hstage.symm.trans hnext)
      exact Connection.leftAlone_of_changes .refl
  | tried route payload =>
      obtain rfl := Stage.connected.inj hnext
      exact Connection.leftAlone_of_changes (connection.changes_tryNotify route payload)
  | told hquiet events pushed hdrains =>
      obtain rfl := Stage.connected.inj hnext
      exact ⟨hdrains, fun _ => ⟨_, .refl, rfl⟩⟩
  | @changedRoutes command call hcall =>
      obtain rfl := Stage.connected.inj hnext
      exact Connection.leftAlone_of_changes (.single (.routed call))
  | dropped hheld hidle =>
      obtain rfl := Stage.connected.inj hnext
      exact connection.leftAlone_dropSession
  | looked hkept hcame =>
      obtain rfl := Stage.connected.inj hnext
      exact Connection.leftAlone_of_changes (.single (.looked _))
  | gaveUp hkept =>
      obtain rfl := Stage.connected.inj hnext
      exact Connection.leftAlone_of_changes (.single (.gaveUp _))
  | aborted hcall hrunning =>
      obtain rfl := Stage.connected.inj hnext
      exact Connection.leftAlone_of_changes (connection.changes_abortCall _ _)
  | polled hcall hready =>
      rw [stage_settleCall] at hnext
      obtain rfl := Stage.connected.inj hnext
      exact connection.leftAlone_pollCall _ _ _
  | wrote hready =>
      obtain rfl := Stage.connected.inj hnext
      exact connection.leftAlone_pollWriter before.link
  | read hready =>
      rw [haside rfl] at hready
      cases hready

/-- A turn of the reader comes to what the packets do that take effect in it. -/
theorem exists_comesTo {settings : Settings} {capacity : Nat} {fault : Fault} {moves : List Move}
    {connection : Connection}
    (hstage : ((start settings capacity fault).follow moves).stage = .connected connection)
    (hready : connection.readerReady ((start settings capacity fault).follow moves).link = true) :
    ∃ next link, (((start settings capacity fault).follow moves).move (.task .reader)).stage =
        .connected next ∧
      Reader.ComesTo connection.session
        (((start settings capacity fault).follow moves).dispatchedBy (.task .reader))
        ⟨next.reader, next.session, link⟩ := by
  obtain ⟨read, hdelivers⟩ := exists_delivers settings capacity fault moves
  obtain ⟨first, -, hposition, -⟩ := hdelivers.connected hstage
  obtain ⟨-, -, -, hcomes⟩ := Reader.turned_poll hposition (Connection.reader_ne_ended hready)
    connection.session ((start settings capacity fault).follow moves).link
  rw [dispatchedBy_reader hstage hready, move_reader hstage hready]
  exact ⟨_, _, rfl, hcomes⟩

end Conversation

end RoutedSession
