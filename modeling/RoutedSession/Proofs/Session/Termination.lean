import Mathlib.Data.List.Induction
import RoutedSession.Proofs.Session.Course
import RoutedSession.Proofs.Session.Ending
import RoutedSession.Proofs.Session.Turns

namespace RoutedSession

/-- A call that waits for a slot in the queue. -/
inductive CallState.WaitsForSlot : CallState → Prop where
  | request (frame : Frame) (answer : PendingAnswer) (use : AnswerUse) :
      WaitsForSlot (.sendingRequest frame answer use)
  | notify (frame : Frame) : WaitsForSlot (.sendingNotify frame)

/-- A call that is to send something, none of which has entered the queue. -/
inductive CallState.Unsent : CallState → Prop where
  | sendRequest (route : String) (payload : Bytes) : Unsent (.starting (.sendRequest route payload))
  | request (route : String) (payload : Bytes) (timeout : Option Nat) :
      Unsent (.starting (.request route payload timeout))
  | requestJson (route : String) (value : Json) : Unsent (.starting (.requestJson route value))
  | notify (route : String) (payload : Bytes) : Unsent (.starting (.notify route payload))
  | searching : Unsent .searching
  | waiting {state : CallState} (hwaits : state.WaitsForSlot) : Unsent state

namespace Connection

theorem callReady_of_waits {connection : Connection}
    (hstopped : connection.session.outbox.stopped = true) (now : Nat) (index : SenderId)
    {state : CallState} (hwaits : state.WaitsForSlot) :
    connection.callReady now index state = true := by
  cases hwaits <;> simp [callReady, Outbox.canResume, hstopped]

theorem pollCall_of_waits {connection : Connection}
    (hstopped : connection.session.outbox.stopped = true) (now : Nat) (index : SenderId)
    {state : CallState} (hwaits : state.WaitsForSlot) :
    (connection.pollCall now index state).1 = .ended (.failed .closed) := by
  cases hwaits <;> simp only [pollCall, Outbox.resume_of_stopped hstopped] <;> rfl

theorem beginRequest_of_closed {connection : Connection}
    (hclosed : connection.session.pending.closed = true) (now : Nat) (index : SenderId)
    (route : String) (payload : Bytes) (use : AnswerUse) :
    (connection.beginRequest now index route payload use).1 = .ended (.failed .closed) := by
  have hnone : connection.session.pending.register = none := by
    simp [PendingTable.register, hclosed]
  simp [beginRequest, hnone, hclosed]

theorem beginNotify_of_stopped {connection : Connection}
    (hstopped : connection.session.outbox.stopped = true) (index : SenderId) (route : String)
    (payload : Bytes) :
    ∃ reason, (connection.beginNotify index route payload).1 = .ended (.failed reason) := by
  unfold beginNotify
  split
  · exact ⟨_, rfl⟩
  · rw [Outbox.send_of_stopped hstopped]
    exact ⟨_, rfl⟩

theorem tryNotify_of_stopped {connection : Connection}
    (hstopped : connection.session.outbox.stopped = true) (route : String) (payload : Bytes) :
    ∃ reason, (connection.tryNotify route payload).1 = .error reason := by
  unfold tryNotify
  split
  · exact ⟨_, rfl⟩
  · rw [Outbox.trySend_of_stopped hstopped]
    exact ⟨_, rfl⟩

theorem pollCall_of_unsent {connection : Connection}
    (hstopped : connection.session.outbox.stopped = true)
    (hclosed : connection.session.pending.closed = true) (now : Nat) (index : SenderId)
    {state : CallState} (hunsent : state.Unsent)
    (hready : connection.callReady now index state = true) :
    ∃ reason, (connection.pollCall now index state).1 = .ended (.failed reason) := by
  cases hunsent with
  | sendRequest route payload => exact ⟨_, beginRequest_of_closed hclosed _ _ _ _ _⟩
  | request route payload timeout => exact ⟨_, beginRequest_of_closed hclosed _ _ _ _ _⟩
  | requestJson route value => exact ⟨_, beginRequest_of_closed hclosed _ _ _ _ _⟩
  | notify route payload => exact beginNotify_of_stopped hstopped index route payload
  | searching => simp [callReady] at hready
  | waiting hwaits => exact ⟨_, pollCall_of_waits hstopped now index hwaits⟩

end Connection

namespace Conversation

/-- A move that ends a session that has not ended before, and the reason for which it does. -/
inductive Ends (conversation : Conversation) : Move → CloseReason → Prop where
  /-- A call begins to close the session. -/
  | closeCalled {connection : Connection} {index : SenderId} {call : Call}
      (hstage : conversation.stage = .connected connection)
      (hcall : conversation.calls[index]? = some call) (hclose : call.state = .starting .close) :
      Ends conversation (.task (.call index)) .byClient
  /-- The application gives the session up. -/
  | dropped {connection : Connection} (hstage : conversation.stage = .connected connection)
      (hheld : connection.isHeld = true)
      (hidle : conversation.calls.any (!·.state.hasEnded) = false) :
      Ends conversation (.command (.onSession .drop)) .byClient
  | writerFailed {connection : Connection} {reason : CloseReason}
      (hstage : conversation.stage = .connected connection)
      (hready : connection.writerReady conversation.link = true)
      (hfails : connection.WriterFails conversation.link reason) :
      Ends conversation (.task .writer) reason
  /-- The reader comes upon a kick, the end of the stream, or something that it cannot read. -/
  | readerEnded {connection : Connection} {reason : CloseReason}
      (hstage : conversation.stage = .connected connection)
      (hready : connection.readerReady conversation.link = true)
      (hends : Reader.EndsInTurn connection.session conversation.link connection.reader reason) :
      Ends conversation (.task .reader) reason

/-- The reason that the first of some moves gives which ends the session. -/
inductive FirstCause : Conversation → List Move → CloseReason → Prop where
  | now {conversation : Conversation} {move : Move} {rest : List Move} {reason : CloseReason}
      (hends : conversation.Ends move reason) : FirstCause conversation (move :: rest) reason
  | later {conversation : Conversation} {move : Move} {rest : List Move} {reason : CloseReason}
      (hgoing : ∀ other, ¬ conversation.Ends move other)
      (hrest : FirstCause (conversation.move move) rest reason) :
      FirstCause conversation (move :: rest) reason

theorem Quiet.not_ends {before : Conversation} {connection : Connection} {move : Move}
    (hquiet : Quiet before connection move) (hstage : before.stage = .connected connection)
    (reason : CloseReason) : ¬ before.Ends move reason := by
  have hconnection := connection?_eq_some_iff.mpr hstage
  intro hends
  cases hends with
  | closeCalled _ hcall hclose =>
      cases hquiet with
      | idle hidle => simp [isReady, hcall, hstage, hclose, Connection.callReady] at hidle
  | dropped hsame hheld hidle =>
      obtain rfl := Stage.connected.inj (hstage.symm.trans hsame)
      cases hquiet with
      | command hother => exact hother rfl
      | refused hneeded => exact absurd (hneeded hheld) (by rw [hidle]; decide)
  | writerFailed hsame hready _ =>
      obtain rfl := Stage.connected.inj (hstage.symm.trans hsame)
      cases hquiet with
      | idle hidle =>
          simp only [isReady, hconnection, Option.any_some, hready] at hidle
          cases hidle
  | readerEnded hsame hready _ =>
      obtain rfl := Stage.connected.inj (hstage.symm.trans hsame)
      cases hquiet with
      | idle hidle =>
          simp only [isReady, hconnection, Option.any_some, hready] at hidle
          cases hidle

theorem exists_goes_move {before : Conversation} {connection : Connection}
    (hstage : before.stage = .connected connection) (move : Move) :
    ∃ next cause?, (before.move move).stage = .connected next ∧
      connection.session.Goes Session.Change cause? next.session ∧
        ∀ reason, cause? = some reason ↔ before.Ends move reason := by
  have hmoved := moved hstage move
  have hsame {other : Connection} (hother : before.stage = .connected other) :
      connection = other :=
    Stage.connected.inj (hstage.symm.trans hother)
  generalize before.move move = after at hmoved
  cases hmoved with
  | aside hquiet hafter hcalls hcarried =>
      exact ⟨connection, none, hafter, .on .refl,
        fun reason => ⟨nofun, fun hends => absurd hends (hquiet.not_ends hstage reason)⟩⟩
  | started slot action => exact ⟨connection, none, hstage, .on .refl, fun reason => ⟨nofun, nofun⟩⟩
  | tried route payload =>
      have hchanges := connection.changes_tryNotify route payload
      exact ⟨_, none, rfl, .on (Session.changes_of_callChanges hchanges),
        fun reason => ⟨nofun, nofun⟩⟩
  | told hquiet events pushed =>
      exact ⟨_, none, rfl, .on (.single (.reader (.told events))),
        fun reason => ⟨nofun, fun hends => absurd hends (hquiet.not_ends hstage reason)⟩⟩
  | @changedRoutes command call hcall =>
      refine ⟨_, none, rfl, .on (.single (.call (.routed call))), fun reason => ⟨nofun, ?_⟩⟩
      rintro ⟨⟩
      cases hcall
  | dropped hheld hidle =>
      refine ⟨_, some .byClient, rfl, .ends .refl .byClient _, fun reason => ⟨?_, ?_⟩⟩
      · rintro ⟨⟩
        exact .dropped hstage hheld hidle
      · rintro ⟨⟩
        rfl
  | looked hkept =>
      exact ⟨_, none, rfl, .on (.single (.call (.looked _))), fun reason => ⟨nofun, nofun⟩⟩
  | gaveUp hkept =>
      exact ⟨_, none, rfl, .on (.single (.call (.gaveUp _))), fun reason => ⟨nofun, nofun⟩⟩
  | @aborted slot index call hcall hrunning =>
      have hchanges := connection.changes_abortCall index call.state
      exact ⟨_, none, rfl, .on (Session.changes_of_callChanges hchanges),
        fun reason => ⟨nofun, nofun⟩⟩
  | @polled index call hcall hready =>
      obtain ⟨cause?, hgoes, hcause⟩ := connection.goes_pollCall before.now index call.state
      refine ⟨_, cause?, stage_settleCall _ _ _ _, hgoes.mono fun _ _ => .call,
        fun reason => (hcause reason).trans ⟨?_, ?_⟩⟩
      · rintro ⟨hclose, rfl⟩
        exact .closeCalled hstage hcall hclose
      · rintro (⟨_, hfound, hclose⟩)
        obtain rfl := Option.some.inj (hcall.symm.trans hfound)
        exact ⟨hclose, rfl⟩
  | wrote hready =>
      obtain ⟨cause?, hgoes, hcause⟩ := connection.goes_pollWriter before.link
      refine ⟨_, cause?, rfl, hgoes.mono fun _ _ => .writer, fun reason => (hcause reason).trans
        ⟨fun hfails => .writerFailed hstage hready hfails, ?_⟩⟩
      rintro (_ | _ | ⟨hother, _, hfails⟩)
      obtain rfl := hsame hother
      exact hfails
  | read hready =>
      obtain ⟨cause?, hgoes, hcause⟩ :=
        connection.reader.goes_poll connection.session before.link
      refine ⟨_, cause?, rfl, hgoes.mono fun _ _ => .reader, fun reason => (hcause reason).trans
        ⟨fun hends => .readerEnded hstage hready hends, ?_⟩⟩
      rintro (_ | _ | _ | ⟨hother, _, hends⟩)
      obtain rfl := hsame hother
      exact hends

theorem coherent_establish (settings : Settings) (accepted : Accepted) :
    (Connection.establish settings accepted).session.Coherent ∧
      (Connection.establish settings accepted).session.reason = none := by
  unfold Connection.establish Writer.start
  dsimp only
  split <;>
    exact ⟨⟨by simp, rfl, rfl, PendingTable.sound_empty 0⟩, rfl⟩

theorem stage_pollAttempt (conversation : Conversation) (settings : Settings) (attempt : Attempt)
    (index : SenderId) {connection : Connection}
    (hstage : (conversation.pollAttempt settings attempt index).stage = .connected connection) :
    ∃ accepted, connection = .establish settings accepted := by
  unfold pollAttempt at hstage
  generalize attempt.poll conversation.now conversation.link = polled at hstage
  obtain ⟨state, link⟩ := polled
  cases state with
  | waiting phase => simp at hstage
  | failed reason => simp [setCall] at hstage
  | accepted accepted =>
      simp only [connect] at hstage
      split at hstage
      · refine ⟨accepted, ?_⟩
        simpa [setCall] using hstage.symm
      · simp [setCall] at hstage

theorem establish_of_opening {before after : Conversation} {move : Move} {connection : Connection}
    (hopening : Opening before move after)
    (hbefore : ∀ connection, before.stage ≠ .connected connection)
    (hafter : after.stage = .connected connection) :
    ∃ settings accepted, connection = .establish settings accepted := by
  cases hopening with
  | aside hstage hcalls hcarried => exact absurd (hstage.symm.trans hafter) (hbefore connection)
  | aborted hstage hcalls hcarried => cases hstage.symm.trans hafter
  | begun hstage => cases hafter
  | polled hstage => exact ⟨_, stage_pollAttempt _ _ _ _ hafter⟩

/-- What the places tell that tell of the end of a session, once there is one. -/
def Coherent (conversation : Conversation) : Prop :=
  ∀ connection, conversation.stage = .connected connection → connection.session.Coherent

/-- Why the session has ended, if it has. -/
def reason? (conversation : Conversation) : Option CloseReason :=
  conversation.connection?.bind (·.session.reason)

theorem reason?_of_connected {conversation : Conversation} {connection : Connection}
    (hstage : conversation.stage = .connected connection) :
    conversation.reason? = connection.session.reason := by
  rw [reason?, connection?_eq_some_iff.mpr hstage, Option.bind_some]

theorem reason?_eq_some_iff {conversation : Conversation} {reason : CloseReason} :
    conversation.reason? = some reason ↔
      ∃ connection, conversation.stage = .connected connection ∧
        connection.session.reason = some reason := by
  rw [reason?, Option.bind_eq_some_iff]
  exact exists_congr fun connection => and_congr_left fun _ => connection?_eq_some_iff

theorem Coherent.move {conversation : Conversation} (hbefore : conversation.Coherent)
    (move : Move) : (conversation.move move).Coherent := by
  intro connection hafter
  by_cases hconnected : ∃ earlier, conversation.stage = .connected earlier
  · obtain ⟨earlier, hstage⟩ := hconnected
    obtain ⟨next, cause?, hnext, hgoes, -⟩ := exists_goes_move hstage move
    obtain rfl := Stage.connected.inj (hnext.symm.trans hafter)
    exact hgoes.coherent (hbefore earlier hstage)
  · rw [not_exists] at hconnected
    obtain ⟨settings, accepted, rfl⟩ :=
      establish_of_opening (opening hconnected move) hconnected hafter
    exact (coherent_establish settings accepted).1

theorem Coherent.follow {conversation : Conversation} (hbefore : conversation.Coherent)
    (moves : List Move) : (conversation.follow moves).Coherent := by
  induction moves generalizing conversation with
  | nil => exact hbefore
  | cons move rest ih => exact ih (hbefore.move move)

theorem coherent_start (settings : Settings) (capacity : Nat) (fault : Fault) :
    (start settings capacity fault).Coherent := by
  intro connection hstage
  simp [start] at hstage

/-- A session that goes on ends in a move exactly when the move is a cause, and for that cause. -/
theorem Coherent.reason?_move {conversation : Conversation} (hbefore : conversation.Coherent)
    (hgoing : conversation.reason? = none) (move : Move) (reason : CloseReason) :
    (conversation.move move).reason? = some reason ↔ conversation.Ends move reason := by
  by_cases hconnected : ∃ earlier, conversation.stage = .connected earlier
  · obtain ⟨earlier, hstage⟩ := hconnected
    obtain ⟨next, cause?, hnext, hgoes, hcause⟩ := exists_goes_move hstage move
    rw [reason?_of_connected hstage] at hgoing
    rw [reason?_of_connected hnext, hgoes.reason_eq (hbefore earlier hstage) hgoing]
    exact hcause reason
  · rw [not_exists] at hconnected
    refine iff_of_false (fun hafter => ?_) (fun hends => ?_)
    · obtain ⟨connection, hstage, hreason⟩ := reason?_eq_some_iff.mp hafter
      obtain ⟨settings, accepted, rfl⟩ :=
        establish_of_opening (opening hconnected move) hconnected hstage
      rw [(coherent_establish settings accepted).2] at hreason
      cases hreason
    · cases hends with
      | closeCalled hstage => exact hconnected _ hstage
      | dropped hstage => exact hconnected _ hstage
      | writerFailed hstage => exact hconnected _ hstage
      | readerEnded hstage => exact hconnected _ hstage

theorem Coherent.addsNothing_follow {conversation : Conversation} (hbefore : conversation.Coherent)
    {connection : Connection} (hstage : conversation.stage = .connected connection)
    (hended : connection.session.reason.isSome = true) (moves : List Move) :
    ∃ last, (conversation.follow moves).stage = .connected last ∧
      connection.session.AddsNothing last.session := by
  induction moves generalizing conversation connection with
  | nil => exact ⟨connection, hstage, .refl _⟩
  | cons move rest ih =>
      obtain ⟨next, cause?, hnext, hgoes, -⟩ := exists_goes_move hstage move
      have hsame := hgoes.addsNothing (hbefore connection hstage) hended
      obtain ⟨last, hlast, hmore⟩ :=
        ih (hbefore.move move) hnext (by rw [hsame.reason, hended])
      exact ⟨last, hlast, hsame.trans hmore⟩

theorem Coherent.reason?_follow {conversation : Conversation} (hbefore : conversation.Coherent)
    {reason : CloseReason} (hended : conversation.reason? = some reason) (moves : List Move) :
    (conversation.follow moves).reason? = some reason := by
  obtain ⟨connection, hstage, hreason⟩ := reason?_eq_some_iff.mp hended
  obtain ⟨last, hlast, hsame⟩ :=
    hbefore.addsNothing_follow hstage (by rw [hreason]; rfl) moves
  rw [reason?_of_connected hlast, hsame.reason, hreason]

/-- The reason that is told is that of the first cause. -/
theorem Coherent.reason?_follow_iff {conversation : Conversation}
    (hbefore : conversation.Coherent) (hgoing : conversation.reason? = none) (moves : List Move)
    (reason : CloseReason) :
    (conversation.follow moves).reason? = some reason ↔ FirstCause conversation moves reason := by
  induction moves generalizing conversation with
  | nil =>
      rw [follow_nil, hgoing]
      exact ⟨nofun, nofun⟩
  | cons move rest ih =>
      rw [follow_cons]
      -- Either this move is a cause, which then is the first, or the session goes on as before.
      cases hnext : (conversation.move move).reason? with
      | some first =>
          have hends := (hbefore.reason?_move hgoing move first).mp hnext
          rw [(hbefore.move move).reason?_follow hnext rest, Option.some_inj]
          constructor
          · rintro rfl
            exact .now hends
          · rintro (⟨hother⟩ | ⟨hnone, -⟩)
            · have hsame := (hbefore.reason?_move hgoing move reason).mpr hother
              exact Option.some.inj (hnext.symm.trans hsame)
            · exact absurd hends (hnone first)
      | none =>
          have hnone (other : CloseReason) : ¬ conversation.Ends move other := fun hends => by
            rw [(hbefore.reason?_move hgoing move other).mpr hends] at hnext
            cases hnext
          rw [ih (hbefore.move move) hnext]
          constructor
          · intro hrest
            exact .later hnone hrest
          · rintro (⟨hends⟩ | ⟨-, hrest⟩)
            · exact absurd hends (hnone reason)
            · exact hrest

theorem pending_of_ends {before : Conversation} {connection next : Connection}
    (hstage : before.stage = .connected connection) {move : Move} {reason : CloseReason}
    (hends : before.Ends move reason) (hother : move ≠ .task .reader)
    (hnext : (before.move move).stage = .connected next) :
    next.session.pending = (connection.session.terminate reason).pending := by
  have hmoved := moved hstage move
  have hloud (hquiet : Quiet before connection move) : False :=
    hquiet.not_ends hstage reason hends
  generalize before.move move = after at hmoved hnext
  cases hends with
  | closeCalled _ hcall hclose =>
      cases hmoved with
      | aside hquiet => exact (hloud hquiet).elim
      | told hquiet => exact (hloud hquiet).elim
      | polled hfound hready =>
          obtain rfl := Option.some.inj (hcall.symm.trans hfound)
          rw [stage_settleCall] at hnext
          obtain rfl := Stage.connected.inj hnext
          rw [hclose]
          exact congrArg Session.pending (connection.session_beginClose _)
  | dropped hfound hheld hidle =>
      cases hmoved with
      | aside hquiet => exact (hloud hquiet).elim
      | told hquiet => exact (hloud hquiet).elim
      | changedRoutes hcall => cases hcall
      | dropped _ _ =>
          obtain rfl := Stage.connected.inj hnext
          rfl
  | writerFailed hfound hready hfails =>
      obtain rfl := Stage.connected.inj (hstage.symm.trans hfound)
      cases hmoved with
      | aside hquiet => exact (hloud hquiet).elim
      | told hquiet => exact (hloud hquiet).elim
      | wrote _ =>
          obtain rfl := Stage.connected.inj hnext
          obtain ⟨hended⟩ := hfails
          simp only [Connection.pollWriter, Connection.release, hended]
          exact Session.pending_terminate_setOutbox _ _ _
  | readerEnded => exact absurd rfl hother

theorem standing_of_ends {before : Conversation} {connection next : Connection}
    (hcoherent : connection.session.Coherent) (hstage : before.stage = .connected connection)
    (hgoing : connection.session.reason = none) {move : Move} {reason : CloseReason}
    (hends : before.Ends move reason) (hnext : (before.move move).stage = .connected next)
    {id : UInt32} {ticket : Ticket} (hpending : (id, ticket) ∈ connection.session.pending.entries) :
    next.session.pending.standing ticket = .ready (.error .closed) ∨
      move = .task .reader ∧ ∃ answer : Message, answer.id = id ∧
        next.session.pending.standing ticket = .ready (.ok answer) := by
  by_cases hreader : move = .task .reader
  · subst hreader
    refine .imp_right (fun hanswered => ⟨rfl, hanswered⟩) ?_
    have hmoved := moved hstage (.task .reader)
    have hloud (hquiet : Quiet before connection (.task .reader)) : False :=
      hquiet.not_ends hstage reason hends
    generalize before.move (.task .reader) = after at hmoved hnext
    cases hends with
    | readerEnded hfound hready hends =>
        obtain rfl := Stage.connected.inj (hstage.symm.trans hfound)
        obtain ⟨cause?, hgoes, hcause⟩ := connection.reader.goes_poll connection.session before.link
        rw [(hcause reason).mpr hends] at hgoes
        cases hmoved with
        | aside hquiet => exact (hloud hquiet).elim
        | told hquiet => exact (hloud hquiet).elim
        | read _ =>
            obtain rfl := Stage.connected.inj hnext
            exact hgoes.standing_of_ends hcoherent hgoing hpending
  · rw [pending_of_ends hstage hends hreader hnext]
    exact .inl (Session.standing_terminate hcoherent hgoing hpending reason)

theorem call_of_ends {before : Conversation} {connection : Connection}
    (hstage : before.stage = .connected connection) {move : Move} {reason : CloseReason}
    (hends : before.Ends move reason) {index : SenderId} {call : Call}
    (hcall : before.calls[index]? = some call) (hwaits : call.state.WaitsForSlot) :
    (before.move move).calls[index]? = some call := by
  obtain ⟨after, hafter, hmoved⟩ := exists_callMoved hstage hcall move
  cases hmoved with
  | aside => exact hafter
  | aborted slot hrunning => cases hends
  | polled hready =>
      cases hends with
      | closeCalled _ hfound hclose =>
          obtain rfl := Option.some.inj (hcall.symm.trans hfound)
          rw [hclose] at hwaits
          cases hwaits

theorem CallMoved.eq_of_hasEnded {before : Conversation} {connection : Connection}
    {index : SenderId} {call after : Call} {move : Move}
    (hmoved : CallMoved before connection index call move after)
    (hended : call.state.hasEnded = true) : after = call := by
  cases hmoved with
  | aside => rfl
  | aborted slot hrunning =>
      rw [hended] at hrunning
      cases hrunning
  | polled hready =>
      cases hstate : call.state with
      | ended result =>
          rw [hstate] at hready
          cases hready
      | _ => simp [hstate, CallState.hasEnded] at hended

section

variable {conversation : Conversation} {connection : Connection}

theorem Coherent.unsent_follow (hbefore : conversation.Coherent)
    (hstage : conversation.stage = .connected connection)
    (hended : connection.session.reason.isSome = true) {index : SenderId} {call : Call}
    (hcall : conversation.calls[index]? = some call) (hunsent : call.state.Unsent)
    (moves : List Move) :
    ∃ state, (conversation.follow moves).calls[index]? = some { call with state } ∧
      (state = call.state ∨ state = .ended .aborted ∨
        ∃ reason, state = .ended (.failed reason)) := by
  -- The last move meets a session that has ended, and the call as the moves before have left it.
  induction moves using List.reverseRecOn with
  | nil => exact ⟨call.state, hcall, .inl rfl⟩
  | append_singleton moves move ih =>
      obtain ⟨state, hfound, hstate⟩ := ih
      obtain ⟨middle, hmiddle, hsame⟩ := hbefore.addsNothing_follow hstage hended moves
      obtain ⟨after, hafter, hmoved⟩ := exists_callMoved hmiddle hfound move
      rw [follow_append_singleton, hafter]
      have hreason : middle.session.reason.isSome = true := by rw [hsame.reason, hended]
      have hcoherent := hbefore.follow moves middle hmiddle
      rcases hstate with rfl | hstate
      · cases hmoved with
        | aside => exact ⟨_, rfl, .inl rfl⟩
        | aborted slot hrunning => exact ⟨_, rfl, .inr (.inl rfl)⟩
        | polled hready =>
            exact ⟨_, rfl, .inr (.inr (Connection.pollCall_of_unsent
              (hcoherent.outbox_stopped.trans hreason) (hcoherent.pending_closed.trans hreason)
              _ _ hunsent hready))⟩
      · have hover : state.hasEnded = true := by
          rcases hstate with rfl | ⟨reason, rfl⟩ <;> rfl
        rw [hmoved.eq_of_hasEnded hover]
        exact ⟨state, rfl, .inr hstate⟩

theorem Coherent.waiting_follow (hbefore : conversation.Coherent)
    (hstage : conversation.stage = .connected connection)
    (hended : connection.session.reason.isSome = true) {index : SenderId} {call : Call}
    (hcall : conversation.calls[index]? = some call) (hwaits : call.state.WaitsForSlot)
    {moves : List Move} (hkept : ∀ slot, .command (.abort slot) ∉ moves)
    (hturn : .task (.call index) ∈ moves) :
    (conversation.follow moves).calls[index]? =
      some { call with state := .ended (.failed .closed) } := by
  have hcourse (moves : List Move) (hkept : ∀ slot, .command (.abort slot) ∉ moves) :
      (conversation.follow moves).calls[index]? =
          some { call with state := .ended (.failed .closed) } ∨
        (conversation.follow moves).calls[index]? = some call ∧ .task (.call index) ∉ moves := by
    -- Until its turn the call stays as it is, and after it nothing changes it any more.
    induction moves using List.reverseRecOn with
    | nil => exact .inr ⟨hcall, nofun⟩
    | append_singleton moves move ih =>
        obtain ⟨middle, hmiddle, hsame⟩ := hbefore.addsNothing_follow hstage hended moves
        have hreason : middle.session.reason.isSome = true := by rw [hsame.reason, hended]
        have hstopped := (hbefore.follow moves middle hmiddle).outbox_stopped.trans hreason
        rw [follow_append_singleton]
        rcases ih fun slot hmem => hkept slot (List.mem_append_left _ hmem) with
          hfound | ⟨hfound, habsent⟩
        · obtain ⟨after, hafter, hmoved⟩ := exists_callMoved hmiddle hfound move
          rw [hafter, hmoved.eq_of_hasEnded rfl]
          exact .inl rfl
        · obtain ⟨after, hafter, hmoved⟩ := exists_callMoved hmiddle hfound move
          rw [hafter]
          cases hmoved with
          | aside hidle =>
              refine .inr ⟨rfl, fun hmem => ?_⟩
              rcases List.mem_append.mp hmem with hmem | hmem
              · exact habsent hmem
              · have hready := Connection.callReady_of_waits hstopped
                  (conversation.follow moves).now index hwaits
                rw [hidle (List.mem_singleton.mp hmem).symm] at hready
                cases hready
          | aborted slot hrunning =>
              exact absurd (List.mem_append_right _ (List.mem_singleton.mpr rfl)) (hkept slot)
          | polled hready =>
              rw [Connection.pollCall_of_waits hstopped _ _ hwaits]
              exact .inl rfl
  rcases hcourse moves hkept with hfound | ⟨-, habsent⟩
  · exact hfound
  · exact absurd hturn habsent

theorem Coherent.waiting_run (hbefore : conversation.Coherent)
    (hstage : conversation.stage = .connected connection)
    (hended : connection.session.reason.isSome = true) {index : SenderId} {call : Call}
    (hcall : conversation.calls[index]? = some call) (hwaits : call.state.WaitsForSlot) :
    conversation.run.calls[index]? = some { call with state := .ended (.failed .closed) } := by
  have hstopped := (hbefore connection hstage).outbox_stopped.trans hended
  have hready : conversation.isReady (.call index) = true := by
    simp only [isReady, hcall, hstage]
    exact Connection.callReady_of_waits hstopped _ _ hwaits
  have hindex := call_mem_tasks hcall
  obtain ⟨tasks, hrun, hall⟩ := conversation.exists_run_eq_follow
  have hbusy : conversation.isBusy = true := List.any_eq_true.mpr ⟨_, hindex, hready⟩
  rw [hrun]
  refine hbefore.waiting_follow hstage hended hcall hwaits (fun slot hmem => ?_)
    (List.mem_map_of_mem (hall hbusy hindex))
  obtain ⟨task, -, htask⟩ := List.mem_map.mp hmem
  cases htask

theorem tryNotify_of_ended (hbefore : conversation.Coherent)
    (hstage : conversation.stage = .connected connection)
    (hended : connection.session.reason.isSome = true) (route : String) (payload : Bytes) :
    (conversation.perform (.onSession (.tryNotify route payload))).1 = .noSession ∨
      ∃ reason, (conversation.perform (.onSession (.tryNotify route payload))).1 =
        .sent (.error reason) := by
  have hstopped := (hbefore connection hstage).outbox_stopped.trans hended
  simp only [perform, session?, connection?_eq_some_iff.mpr hstage, Option.filter_some]
  cases connection.isHeld with
  | false => exact .inl rfl
  | true =>
      obtain ⟨reason, hfailed⟩ := Connection.tryNotify_of_stopped hstopped route payload
      exact .inr ⟨reason, congrArg Reply.sent hfailed⟩

end

/-- How a session ends that some moves have led to from the start. -/
structure EndsOnce (first : Conversation) (moves : List Move) (connection : Connection) :
    Prop where
  closed_iff : connection.session.lifecycle = .closed ↔ connection.session.reason.isSome = true
  stopped_iff :
    connection.session.outbox.stopped = true ↔ connection.session.reason.isSome = true
  pending_closed_iff :
    connection.session.pending.closed = true ↔ connection.session.reason.isSome = true
  closed_empty : connection.session.pending.closed = true → connection.session.pending.entries = []
  /-- The reason is that of the first cause. -/
  reason_first : ∀ reason,
    connection.session.reason = some reason ↔ FirstCause first moves reason
  /-- It never changes, no request is pending or added afterwards, and of the frames in the queue
  some are taken out and none is put in. -/
  ended_for_good : connection.session.reason.isSome = true → ∀ more,
    ∃ last, (first.follow (moves ++ more)).stage = .connected last ∧
      last.session.reason = connection.session.reason ∧
        last.session.pending.entries = [] ∧
          last.session.pending.issued = connection.session.pending.issued ∧
            last.session.outbox.frames <:+ connection.session.outbox.frames
  /-- A request that is pending when the session ends fails. In the turn in which the reader ends a
  session, requests can be answered before that. -/
  requests_fail : connection.session.reason = none → ∀ move reason next id ticket,
    (first.follow moves).Ends move reason →
      (first.follow (moves ++ [move])).stage = .connected next →
        (id, ticket) ∈ connection.session.pending.entries →
          next.session.pending.standing ticket = .ready (.error .closed) ∨
            move = .task .reader ∧ ∃ answer : Message, answer.id = id ∧
              next.session.pending.standing ticket = .ready (.ok answer)
  /-- A call that waits for a slot when the session ends fails in its next turn, unless it is given
  up before that, and it has failed once the tasks have run. -/
  waiting_fail : connection.session.reason = none → ∀ move reason (index : SenderId) (call : Call),
    (first.follow moves).Ends move reason → (first.follow moves).calls[index]? = some call →
      call.state.WaitsForSlot →
        (∀ more, (∀ slot, .command (.abort slot) ∉ more) → .task (.call index) ∈ more →
          (first.follow (moves ++ move :: more)).calls[index]? =
            some { call with state := .ended (.failed .closed) }) ∧
        (first.follow (moves ++ [move])).run.calls[index]? =
          some { call with state := .ended (.failed .closed) }
  /-- After the end no call sends anything any more. -/
  calls_fail : connection.session.reason.isSome = true → ∀ (index : SenderId) (call : Call),
    (first.follow moves).calls[index]? = some call → call.state.Unsent → ∀ more,
      ∃ state, (first.follow (moves ++ more)).calls[index]? = some { call with state } ∧
        (state = call.state ∨ state = .ended .aborted ∨
          ∃ reason, state = .ended (.failed reason))
  tryNotify_fails : connection.session.reason.isSome = true → ∀ route payload,
    ((first.follow moves).perform (.onSession (.tryNotify route payload))).1 = .noSession ∨
      ∃ reason, ((first.follow moves).perform (.onSession (.tryNotify route payload))).1 =
        .sent (.error reason)

/-- A session ends once, completely and for the first cause, whatever happens in whatever order. -/
theorem follow_endsOnce {settings : Settings} {capacity : Nat} {fault : Fault} {moves : List Move}
    {connection : Connection}
    (hstage : ((start settings capacity fault).follow moves).stage = .connected connection) :
    EndsOnce (start settings capacity fault) moves connection := by
  have hstart := coherent_start settings capacity fault
  have hnow := hstart.follow moves
  have hcoherent := hnow connection hstage
  constructor
  case closed_iff => exact hcoherent.lifecycle_closed
  case stopped_iff => rw [hcoherent.outbox_stopped]
  case pending_closed_iff => rw [hcoherent.pending_closed]
  case closed_empty => exact hcoherent.pending_sound.closed_empty
  case reason_first =>
    intro reason
    rw [← hstart.reason?_follow_iff rfl moves reason, reason?_of_connected hstage]
  case ended_for_good =>
    intro hended more
    obtain ⟨last, hlast, hsame⟩ := hnow.addsNothing_follow hstage hended more
    rw [← follow_append] at hlast
    have hafter := hstart.follow (moves ++ more) last hlast
    refine ⟨last, hlast, hsame.reason, ?_, hsame.issued, hsame.frames⟩
    refine hafter.pending_sound.closed_empty ?_
    rw [hafter.pending_closed, hsame.reason, hended]
  case requests_fail =>
    intro hgoing move reason next id ticket hends hnext hpending
    rw [follow_append] at hnext
    exact standing_of_ends hcoherent hstage hgoing hends hnext hpending
  case waiting_fail =>
    intro hgoing move reason index call hends hcall hwaits
    have hafter := call_of_ends hstage hends hcall hwaits
    have hended := (hnow.reason?_move
      ((reason?_of_connected hstage).trans hgoing) move reason).mpr hends
    obtain ⟨next, hnext, hreason⟩ := reason?_eq_some_iff.mp hended
    have hsome : next.session.reason.isSome = true := by rw [hreason]; rfl
    constructor
    · intro more hkept hturn
      rw [follow_append, follow_cons]
      exact (hnow.move move).waiting_follow hnext hsome hafter hwaits hkept hturn
    · rw [follow_append]
      exact (hnow.move move).waiting_run hnext hsome hafter hwaits
  case calls_fail =>
    intro hended index call hcall hunsent more
    rw [follow_append]
    exact hnow.unsent_follow hstage hended hcall hunsent more
  case tryNotify_fails =>
    exact fun hended route payload => tryNotify_of_ended hnow hstage hended route payload

/-- A server accepts the client's offer. -/
def acceptance : List Move :=
  [.task (.call 0),
    .command (.peerSends
      (Packet.bytes ⟨.handshake, Bytes.ofString "\x7b\"code\":200\x7d"⟩) false),
    .peerWrites, .task (.call 0), .task (.call 0)]

/-- A request is sent, and the session is closed while its answer is awaited. -/
def closedEarly : List Move :=
  acceptance ++
    [.command (.onSession (.call "request" (.request "room.join" [1, 2, 3] none))),
      .command (.onSession (.call "close" .close)), .task (.call 1), .task (.call 2)]

theorem follow_endsOnce_closedEarly :
    ∃ connection, ((start {} 4096 {}).follow closedEarly).stage = .connected connection ∧
      connection.session.reason = some .byClient ∧
        EndsOnce (start {} 4096 {}) closedEarly connection := by
  have hreason : ((start {} 4096 {}).follow closedEarly).reason? = some .byClient := by
    decide +kernel
  obtain ⟨connection, hstage, hclosed⟩ := reason?_eq_some_iff.mp hreason
  exact ⟨connection, hstage, hclosed, follow_endsOnce hstage⟩

end Conversation

end RoutedSession
