import RoutedSession.Proofs.Session.Effects
import RoutedSession.Proofs.Session.Reads
import RoutedSession.Proofs.Session.Sending

namespace RoutedSession

namespace Packet

def heartbeats (packets : List Packet) : Nat :=
  packets.countP (·.kind = .heartbeat)

def withoutHeartbeats (packets : List Packet) : List Packet :=
  packets.filter (·.kind ≠ .heartbeat)

theorem heartbeats_cons (packet : Packet) (rest : List Packet) :
    heartbeats (packet :: rest) = heartbeats rest + if packet.kind = .heartbeat then 1 else 0 := by
  simp [heartbeats, List.countP_cons]

theorem withoutHeartbeats_cons (packet : Packet) (rest : List Packet) :
    withoutHeartbeats (packet :: rest) =
      if packet.kind = .heartbeat then withoutHeartbeats rest
      else packet :: withoutHeartbeats rest := by
  simp [withoutHeartbeats, List.filter_cons]

end Packet

open Packet (heartbeats withoutHeartbeats)

/-- A writer that has ended has given its queue up, and has ended for the shutdown or for a
failure. -/
structure Writer.Work.Attended {σ : Type} (work : Writer.Work σ) : Prop where
  receiving : work.outbox.receiving = !work.writer.hasEnded
  closing : work.writer = .closing → work.outbox.stopped = true
  ended : ∀ result, work.writer = .ended result →
    work.outbox.stopped = true ∨ ∃ reason, result = .error reason

theorem Writer.Work.Attended.poll {σ : Type} {work : Writer.Work σ} (hattended : work.Attended)
    (sink : Sink σ) (maxBatch : Nat) : (Writer.poll sink maxBatch true work).Attended := by
  refine Writer.poll_of_acts (P := Attended) (fun before after hact hbefore => ?_) hattended
  have hreceiving := hbefore.receiving
  cases hact with
  | @takes outbox rest frame batch stream htaken =>
      have hterms := outbox.sameTerms_takeUpTo (maxBatch - 1 + 1)
      rw [htaken] at hterms
      exact ⟨hterms.receiving.trans hreceiving, nofun, nofun⟩
  | stops hgoing hwhy =>
      have hstopped : before.outbox.stopped = true := by
        obtain hstopped | hclosing | ⟨-, -, hnone⟩ := hwhy
        · exact hstopped
        · exact hbefore.closing hclosing
        · cases hnone
      rcases stop_cases sink before with ⟨stream, -, hstop⟩ | ⟨result, stream, -, -, hstop⟩
      · rw [hstop]
        exact ⟨by rw [hreceiving, hgoing]; rfl, fun _ => hstopped, nofun⟩
      · rw [hstop]
        exact ⟨rfl, nofun, fun _ _ => .inl hstopped⟩
  | writes => exact ⟨hreceiving, nofun, nofun⟩
  | blocks => exact ⟨hreceiving, nofun, nofun⟩
  | pauses => exact ⟨hreceiving, nofun, nofun⟩
  | flushes => exact ⟨hreceiving, nofun, nofun⟩
  | flushBlocks => exact ⟨hreceiving, nofun, nofun⟩
  | _ =>
      refine ⟨rfl, nofun, ?_⟩
      rintro _ ⟨⟩
      exact .inr ⟨_, rfl⟩

namespace Session

theorem receiving_terminate (session : Session) (reason : CloseReason) :
    (session.terminate reason).outbox.receiving = session.outbox.receiving := by
  unfold terminate
  split <;> rfl

theorem Goes.receiving_eq {Changes : Session → Session → Prop} {session after : Session}
    {cause? : Option CloseReason} (hgoes : session.Goes Changes cause? after)
    (hkeeps : ∀ first last, Changes first last →
      last.outbox.receiving = first.outbox.receiving) :
    after.outbox.receiving = session.outbox.receiving := by
  have hchanges {last : Session} (hcourse : Relation.ReflTransGen Changes session last) :
      last.outbox.receiving = session.outbox.receiving := by
    induction hcourse with
    | refl => rfl
    | tail _ hchange ih => exact (hkeeps _ _ hchange).trans ih
  cases hgoes with
  | on hcourse => exact hchanges hcourse
  | ends hcourse reason events => exact (receiving_terminate _ reason).trans (hchanges hcourse)

theorem ReaderChange.receiving_eq (session after : Session) (hchange : ReaderChange session after) :
    after.outbox.receiving = session.outbox.receiving := by
  cases hchange with
  | replied => exact (Outbox.sameTerms_trySend _ _).receiving
  | _ => rfl

theorem CallChange.receiving_eq (session after : Session) (hchange : CallChange session after) :
    after.outbox.receiving = session.outbox.receiving := by
  cases hchange with
  | sent => exact (Outbox.sameTerms_send _ _ _).receiving
  | tried => exact (Outbox.sameTerms_trySend _ _).receiving
  | resumed => exact (Outbox.sameTerms_resume _ _ _).receiving
  | left => exact (Outbox.sameTerms_leave _ _).receiving
  | _ => rfl

end Session

/-- Frames are taken out of the queue until the writer ends, and the session ends with it. -/
structure Connection.Attended (connection : Connection) : Prop where
  receiving : connection.session.outbox.receiving = !connection.writer.hasEnded
  closing : connection.writer = .closing → connection.session.reason.isSome = true
  ended : ∀ result, connection.writer = .ended result → connection.session.reason.isSome = true

namespace Connection

theorem attended_establish (settings : Settings) (accepted : Accepted) :
    (establish settings accepted).Attended := by
  unfold establish Writer.start
  dsimp only
  split <;> exact ⟨rfl, nofun, nofun⟩

theorem Attended.pollWriter {connection : Connection} (hattended : connection.Attended)
    (hcoherent : connection.session.Coherent) (link : Link) :
    (connection.pollWriter link).1.Attended := by
  have hbefore : Writer.Work.Attended ⟨connection.writer, connection.session.outbox, link⟩ :=
    ⟨hattended.receiving,
      fun hclosing => hcoherent.outbox_stopped.trans (hattended.closing hclosing),
      fun result hended =>
        .inl (hcoherent.outbox_stopped.trans (hattended.ended result hended))⟩
  obtain ⟨hreceiving, hclosing, hended⟩ := hbefore.poll Link.sink connection.maxBatch
  have hsame : (Writer.poll Link.sink connection.maxBatch true
      ⟨connection.writer, connection.session.outbox, link⟩).outbox.stopped =
        connection.session.outbox.stopped :=
    Writer.outbox_poll (P := fun outbox => outbox.stopped = connection.session.outbox.stopped)
      Link.sink (fun _ _ hkept => (Outbox.sameTerms_takeUpTo _ _).stopped.trans hkept)
      (fun _ hkept => hkept) _ _ _ rfl
  unfold Connection.pollWriter release
  dsimp only
  split
  · rename_i reason hfailed
    exact ⟨(Session.receiving_terminate _ _).trans hreceiving,
      fun _ => Session.isSome_reason_terminate _ _, fun _ _ => Session.isSome_reason_terminate _ _⟩
  · rename_i hgoing
    have hreason := hcoherent.outbox_stopped.symm.trans hsame.symm
    refine ⟨hreceiving, fun hresult => hreason.trans (hclosing hresult), fun result hresult => ?_⟩
    obtain hstopped | ⟨reason, rfl⟩ := hended result hresult
    · exact hreason.trans hstopped
    · exact absurd hresult (hgoing reason)

theorem Attended.isOpen_iff {connection : Connection} (hattended : connection.Attended)
    (hcoherent : connection.session.Coherent) :
    connection.session.outbox.IsOpen ↔
      connection.session.reason = none ∧ connection.writer ≠ .unable := by
  rw [Outbox.IsOpen, hcoherent.outbox_stopped, Option.isSome_eq_false_iff,
    Option.isNone_iff_eq_none, hattended.receiving]
  refine and_congr_right fun hgoing => ?_
  cases hwriter : connection.writer with
  | ended result =>
      have hended := hattended.ended result hwriter
      rw [hgoing] at hended
      cases hended
  | _ => simp [Writer.hasEnded]

end Connection

namespace Conversation

theorem exists_receiving_move {conversation : Conversation} {connection : Connection}
    (hstage : conversation.stage = .connected connection) {move : Move}
    (hmove : move ≠ .task .writer) :
    ∃ next, (conversation.move move).stage = .connected next ∧ next.writer = connection.writer ∧
      next.session.outbox.receiving = connection.session.outbox.receiving := by
  have hcalls {after : Session}
      (hchanges : Relation.ReflTransGen Session.CallChange connection.session after) :=
    (Session.Goes.on hchanges).receiving_eq Session.CallChange.receiving_eq
  have hmoved := moved hstage move
  generalize conversation.move move = after at hmoved
  cases hmoved with
  | aside hquiet hafter => exact ⟨connection, hafter, rfl, rfl⟩
  | started => exact ⟨connection, hstage, rfl, rfl⟩
  | tried route payload =>
      exact ⟨_, rfl, connection.writer_tryNotify route payload,
        hcalls (connection.changes_tryNotify route payload)⟩
  | told => exact ⟨_, rfl, rfl, rfl⟩
  | changedRoutes => exact ⟨_, rfl, rfl, rfl⟩
  | dropped => exact ⟨_, rfl, rfl, connection.session.receiving_terminate .byClient⟩
  | looked => exact ⟨_, rfl, rfl, rfl⟩
  | gaveUp => exact ⟨_, rfl, rfl, rfl⟩
  | @aborted slot index call =>
      exact ⟨_, rfl, connection.writer_abortCall index call.state,
        hcalls (connection.changes_abortCall index call.state)⟩
  | @polled index call =>
      obtain ⟨cause?, hgoes, -⟩ := connection.goes_pollCall conversation.now index call.state
      exact ⟨_, stage_settleCall _ _ _ _, connection.writer_pollCall _ index call.state,
        hgoes.receiving_eq Session.CallChange.receiving_eq⟩
  | wrote => exact absurd rfl hmove
  | read =>
      obtain ⟨cause?, hgoes, -⟩ := connection.reader.goes_poll connection.session conversation.link
      exact ⟨_, rfl, rfl, hgoes.receiving_eq Session.ReaderChange.receiving_eq⟩

/-- The queue of a session, once there is one, is attended to. -/
def Attended (conversation : Conversation) : Prop :=
  ∀ connection, conversation.stage = .connected connection → connection.Attended

theorem Attended.move {conversation : Conversation} (hattended : conversation.Attended)
    (hcoherent : conversation.Coherent) (move : Move) : (conversation.move move).Attended := by
  intro next hnext
  by_cases hconnected : ∃ connection, conversation.stage = .connected connection
  · obtain ⟨connection, hstage⟩ := hconnected
    by_cases hwriter : move = .task .writer
    · subst hwriter
      have hmoved := moved hstage (.task .writer)
      generalize conversation.move (.task .writer) = after at hmoved hnext
      cases hmoved with
      | aside hquiet hafter =>
          obtain rfl := Stage.connected.inj (hafter.symm.trans hnext)
          exact hattended _ hstage
      | told hquiet events pushed =>
          obtain rfl := Stage.connected.inj hnext
          obtain ⟨hreceiving, hclosing, hended⟩ := hattended connection hstage
          exact ⟨hreceiving, hclosing, hended⟩
      | wrote hready =>
          obtain rfl := Stage.connected.inj hnext
          exact (hattended connection hstage).pollWriter (hcoherent connection hstage) _
    · obtain ⟨other, hother, hsame, hreceiving⟩ := exists_receiving_move hstage hwriter
      obtain ⟨last, cause?, hlast, hgoes, -⟩ := exists_goes_move hstage move
      obtain rfl := Stage.connected.inj (hother.symm.trans hnext)
      obtain rfl := Stage.connected.inj (hlast.symm.trans hnext)
      obtain ⟨hbefore, hclosing, hended⟩ := hattended connection hstage
      have hstays (hover : connection.session.reason.isSome = true) :
          last.session.reason.isSome = true := by
        rw [(hgoes.addsNothing (hcoherent connection hstage) hover).reason]
        exact hover
      exact ⟨hreceiving.trans (hsame ▸ hbefore),
        fun hresult => hstays (hclosing (hsame ▸ hresult)),
        fun result hresult => hstays (hended result (hsame ▸ hresult))⟩
  · rw [not_exists] at hconnected
    obtain ⟨settings, accepted, rfl⟩ :=
      establish_of_opening (opening hconnected move) hconnected hnext
    exact Connection.attended_establish settings accepted

theorem Attended.follow {conversation : Conversation} (hattended : conversation.Attended)
    (hcoherent : conversation.Coherent) (moves : List Move) :
    (conversation.follow moves).Attended := by
  induction moves generalizing conversation with
  | nil => exact hattended
  | cons move rest ih => exact ih (hattended.move hcoherent move) (hcoherent.move move)

theorem attended_start (settings : Settings) (capacity : Nat) (fault : Fault) :
    (start settings capacity fault).Attended := by
  intro connection hstage
  cases hstage

/-- In whatever way a session has been come to, its queue is open until the session ends, unless the
writer could not begin. -/
theorem isOpen_iff_of_reachable {conversation : Conversation} (hreachable : conversation.Reachable)
    {connection : Connection} (hstage : conversation.stage = .connected connection) :
    connection.session.outbox.IsOpen ↔
      connection.session.reason = none ∧ connection.writer ≠ .unable := by
  obtain ⟨settings, capacity, fault, hreaches⟩ := hreachable
  obtain ⟨moves, rfl⟩ := reaches_iff_exists_follow.mp hreaches
  have hcoherent := coherent_start settings capacity fault
  have hattended := (attended_start settings capacity fault).follow hcoherent moves
  exact (hattended connection hstage).isOpen_iff (hcoherent.follow moves connection hstage)

end Conversation

namespace Session

section

variable {session : Session} {reply : Frame}

theorem dispatch_heartbeat (hreply : frame session.routes heartbeatReply = .ok reply)
    {packet : Packet} (hkind : packet.kind = .heartbeat) :
    session.dispatch packet =
      ({ session with
          outbox := session.outbox.appendCopies (min 1 session.outbox.room) reply }, none) := by
  rw [dispatch, hkind]
  dsimp only
  rw [answerHeartbeat_of_frame hreply, Outbox.snd_trySend]

theorem dispatch_setOutbox {packet : Packet} (hkind : packet.kind ≠ .heartbeat)
    (outbox : Outbox) :
    ({ session with outbox } : Session).dispatch packet =
      ({ (session.dispatch packet).1 with outbox }, (session.dispatch packet).2) := by
  unfold dispatch
  cases hpacket : packet.kind with
  | heartbeat => exact absurd hpacket hkind
  | data =>
      dsimp only
      cases Message.decode session.routes packet.payload with
      | error reason => rfl
      | ok message =>
          unfold deliver
          dsimp only
          split <;> rfl
  | _ => rfl

theorem outbox_dispatch {packet : Packet} (hkind : packet.kind ≠ .heartbeat) :
    (session.dispatch packet).1.outbox = session.outbox :=
  congrArg (·.1.outbox) (dispatch_setOutbox hkind session.outbox)

theorem dispatchAll_setOutbox (outbox : Outbox) (packets : List Packet) :
    ({ session with outbox } : Session).dispatchAll (withoutHeartbeats packets) =
      ({ (session.dispatchAll (withoutHeartbeats packets)).1 with outbox },
        (session.dispatchAll (withoutHeartbeats packets)).2) := by
  have hothers : ∀ packet ∈ withoutHeartbeats packets, packet.kind ≠ .heartbeat :=
    fun packet hmem => of_decide_eq_true (List.mem_filter.mp hmem).2
  generalize withoutHeartbeats packets = others at hothers
  induction others generalizing session with
  | nil => rfl
  | cons packet rest ih =>
      rw [List.forall_mem_cons] at hothers
      rw [dispatchAll_cons, dispatchAll_cons, dispatch_setOutbox hothers.1]
      rcases session.dispatch packet with ⟨next, _ | reason⟩
      · exact ih hothers.2
      · rfl

/-- What packets come to without the heartbeats among them, and with so many replies behind all
frames that were queued before. -/
def replying (session : Session) (packets : List Packet) (count : Nat) (reply : Frame) : Session :=
  { (session.dispatchAll (withoutHeartbeats packets)).1 with
    outbox := session.outbox.appendCopies count reply }

theorem dispatchAll_eq_replying (hreply : frame session.routes heartbeatReply = .ok reply)
    (packets : List Packet) :
    session.dispatchAll packets =
      (session.replying packets
          (min (heartbeats ((session.dispatches packets).map (·.packet))) session.outbox.room)
          reply,
        (session.dispatchAll (withoutHeartbeats packets)).2) := by
  induction packets generalizing session with
  | nil =>
      rw [replying, dispatches, List.map_nil, heartbeats, List.countP_nil, Nat.zero_min,
        Outbox.appendCopies_zero]
      rfl
  | cons packet rest ih =>
      rw [dispatchAll_cons, dispatches, List.map_cons]
      by_cases hkind : packet.kind = .heartbeat
      · have hothers : withoutHeartbeats (packet :: rest) = withoutHeartbeats rest := by
          rw [Packet.withoutHeartbeats_cons, if_pos hkind]
        -- The reply to this one takes up room that those behind it do not find any more.
        have hroom (count : Nat) :
            min 1 session.outbox.room +
                min count (session.outbox.room - min 1 session.outbox.room) =
              min (count + 1) session.outbox.room := by
          omega
        rw [Packet.heartbeats_cons, if_pos hkind, dispatch_heartbeat hreply hkind, replying,
          hothers]
        dsimp only
        have hrest : ({ session with
            outbox := session.outbox.appendCopies (min 1 session.outbox.room) reply } :
              Session).dispatchAll rest = _ :=
          ih hreply
        rw [hrest, replying, dispatchAll_setOutbox, Outbox.appendCopies_appendCopies,
          Outbox.room_appendCopies, hroom]
      · have hothers : withoutHeartbeats (packet :: rest) = packet :: withoutHeartbeats rest := by
          rw [Packet.withoutHeartbeats_cons, if_neg hkind]
        have houtbox := session.outbox_dispatch hkind
        have hroutes := (session.dispatch_keeps packet).routes
        rw [Packet.heartbeats_cons, if_neg hkind, Nat.add_zero, replying, hothers, dispatchAll_cons]
        rcases hdispatch : session.dispatch packet with ⟨next, _ | reason⟩
        · rw [hdispatch] at houtbox hroutes
          dsimp only at houtbox hroutes ⊢
          rw [ih (hroutes ▸ hreply), replying, houtbox]
        · rw [hdispatch] at houtbox
          dsimp only at houtbox ⊢
          rw [List.map_nil, heartbeats, List.countP_nil, Nat.zero_min, Outbox.appendCopies_zero,
            ← houtbox]

theorem dispatchAll_eq_of_goesOn (hreply : frame session.routes heartbeatReply = .ok reply)
    {packets : List Packet} (hgoing : (session.dispatchAll (withoutHeartbeats packets)).2 = none) :
    session.dispatchAll packets =
      (session.replying packets (min (heartbeats packets) session.outbox.room) reply, none) := by
  have hpackets := dispatchAll_eq_replying hreply packets
  rw [hgoing] at hpackets
  rwa [dispatches_eq hpackets] at hpackets

end

end Session

/-- The packet ends nothing, and all that it does is to put a frame behind all others, if a slot is
free and the queue is open. -/
def Dispatch.IsAnsweredBy (dispatch : Dispatch) (reply : Frame) : Prop :=
  let { session, packet } := dispatch
  session.dispatch packet =
    ({ session with
        outbox :=
          if session.outbox.IsOpen ∧ session.outbox.used < session.outbox.capacity then
            session.outbox.append reply
          else session.outbox }, none)

namespace Session

/-- What heartbeats do to a session that stands so. -/
structure RepliesWith (session : Session) (reply : Frame) : Prop where
  /-- The reply is a notification, as it is written with the codes that there are. -/
  encoded : reply.packet.kind = .data ∧
    ({ kind := .notify, route := "sys.heartbeat", payload := Bytes.ofString "\x7b\x7d" } :
      Message).encode session.routes = .ok reply.packet.payload
  decoded : Message.decode session.routes reply.packet.payload = .ok heartbeatReply
  /-- To reply does not fail: there is a frame, and it is refused for two reasons only, for which
  nothing fails. -/
  framed : frame session.routes heartbeatReply = .ok reply
  refused : ∀ reason, (session.outbox.trySend reply).1 = .error reason →
    reason = .queueFull ∨ reason = .closed
  fails_not : ∀ reason, session.answerHeartbeat ≠ .error reason
  /-- A heartbeat that takes effect is answered when its turn comes. -/
  in_turn : ∀ packets, ∀ dispatch ∈ session.dispatches packets,
    dispatch.packet.kind = .heartbeat → dispatch.IsAnsweredBy reply
  /-- To packets that are cut together as many replies are made as there is room for, of those
  heartbeats that take effect. Nothing else is different without the heartbeats. -/
  together : ∀ packets,
    session.dispatchAll packets =
      (session.replying packets
          (min (heartbeats ((session.dispatches packets).map (·.packet))) session.outbox.room)
          reply,
        (session.dispatchAll (withoutHeartbeats packets)).2)
  /-- All heartbeats take effect unless one of the other packets ends the session. -/
  goes_on : ∀ packets, (session.dispatchAll (withoutHeartbeats packets)).2 = none →
    session.dispatchAll packets =
      (session.replying packets (min (heartbeats packets) session.outbox.room) reply, none)
  /-- Behind such packets the reader goes on reading. -/
  reads_on : ∀ share link rest buffer after bytes packets, session.outbox.stopped = false →
    link.read Reader.chunk = (.got bytes, rest) → buffer.push bytes = (.ok packets, after) →
      (session.dispatchAll (withoutHeartbeats packets)).2 = none →
        Reader.readOn (share + 1) session link buffer =
          Reader.readOn share
            (session.replying packets (min (heartbeats packets) session.outbox.room) reply) rest
            after
  /-- The queue is open until the session ends, unless the writer could not begin. -/
  isOpen_iff : ∀ (conversation : Conversation) (connection : Connection),
    conversation.Reachable → conversation.stage = .connected connection →
      connection.session = session →
        (session.outbox.IsOpen ↔ session.reason = none ∧ connection.writer ≠ .unable)

/-- Every heartbeat is answered with the same frame while there is room in the queue, and does
nothing else. -/
theorem exists_repliesWith (session : Session) : ∃ reply, session.RepliesWith reply := by
  obtain ⟨reply, hreply, hanswer⟩ := session.answerHeartbeat_eq_ok
  obtain ⟨hpacket, hencoded⟩ :=
    @Sending.packet_of_frame ⟨.heartbeat, session.routes, heartbeatReply⟩ reply hreply
  rw [← hpacket] at hencoded
  refine ⟨reply, ?_⟩
  constructor
  case encoded =>
    have hpayload : Bytes.ofString "\x7b\x7d" = heartbeatReply.payload := by decide
    rw [hpayload]
    exact ⟨congrArg Packet.kind hpacket, hencoded⟩
  case decoded =>
    rw [Message.decode_of_encode hencoded]
    exact Message.arrival_self _ _
  case framed => exact hreply
  case refused =>
    intro reason hrefused
    have htries := session.outbox.tries_trySend reply
    generalize session.outbox.trySend reply = tried at htries hrefused
    cases htries with
    | closed => exact .inr (Except.error.inj hrefused).symm
    | full => exact .inl (Except.error.inj hrefused).symm
    | done => cases hrefused
  case fails_not =>
    intro reason hfails
    rw [hanswer] at hfails
    cases hfails
  case in_turn =>
    rintro packets ⟨met, packet⟩ hmem hkind
    have hroutes := (session.takeEffect_dispatches packets).routes _ hmem
    rw [← hroutes] at hreply
    rw [Dispatch.IsAnsweredBy, ← Outbox.snd_trySend_eq_ite, dispatch_heartbeat hreply hkind,
      Outbox.snd_trySend]
  case together => exact dispatchAll_eq_replying hreply
  case goes_on => exact fun packets => dispatchAll_eq_of_goesOn hreply
  case reads_on =>
    intro share link rest buffer after bytes packets hgoing hread hpush hothers
    have hstopped : ¬ session.outbox.stopped = true := by
      rw [hgoing]
      nofun
    rw [Reader.readOn_succ, if_neg hstopped, hread]
    dsimp only
    rw [Reader.takeIn, hpush]
    dsimp only
    rw [dispatchAll_eq_of_goesOn hreply hothers]
    rfl
  case isOpen_iff =>
    rintro conversation connection hreachable hstage rfl
    exact Conversation.isOpen_iff_of_reachable hreachable hstage

/-- Three heartbeats around a packet of another kind, and a queue with one slot left. -/
example :
    let outbox : Outbox := { capacity := 2, frames := [.empty .handshakeAck] }
    let session : Session :=
      { lifecycle := .connected, routes := .empty, outbox, events := .ofCapacity 1 }
    let (after, cause?) := session.dispatchAll
      [⟨.heartbeat, []⟩, ⟨.heartbeat, [1]⟩, ⟨.handshake, []⟩, ⟨.heartbeat, []⟩]
    after.outbox.frames.map (·.packet.kind) = [.handshakeAck, .data] ∧ cause? = none := by
  decide

end Session

end RoutedSession
