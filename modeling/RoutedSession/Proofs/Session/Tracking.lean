import RoutedSession.Proofs.Session.Exchange
import RoutedSession.Proofs.Session.Sending
import RoutedSession.Proofs.Session.Termination

/-!
Whatever happens, the bytes of what the journal tells are in the stream, in the hands of the writer
or in the queue, each of them once and in their order, until the writer ends and the rest is lost.
-/

namespace RoutedSession

open Session (Grows)

theorem Writer.Holds.enter {given gone : Bytes} {writer : Writer} {frames : List Frame}
    (hholds : Writer.Holds given gone writer frames) (more : List Frame) :
    Writer.Holds (given ++ more.flatMap Frame.bytes) gone writer (frames ++ more) := by
  cases hholds with
  | idle hall => exact .idle (by rw [List.flatMap_append, ← List.append_assoc, hall])
  | writing isBlocked hall =>
      exact .writing isBlocked (by rw [List.flatMap_append, ← List.append_assoc, hall])
  | closing hpart => exact .closing (hpart.trans (List.prefix_append _ _))
  | ended result hpart => exact .ended result (hpart.trans (List.prefix_append _ _))
  | unable hpart => exact .unable (hpart.trans (List.prefix_append _ _))

theorem Reader.outgoing_readOn (share : Nat) (session : Session) (link : Link)
    (buffer : PacketBuffer) : (readOn share session link buffer).link.outgoing = link.outgoing := by
  have hread {link rest : Link} {found : ReadResult} (hresult : link.read chunk = (found, rest)) :
      rest.outgoing = link.outgoing := by
    rw [← link.outgoing_read chunk, hresult]
  fun_induction readOn share session link buffer with
  | case1 => rfl
  | case2 => rfl
  | case3 => exact hread ‹_›
  | case4 => exact hread ‹_›
  | case5 => exact hread ‹_›
  | case6 => exact hread ‹_›
  | case7 => exact hread ‹_›
  | case8 => rename_i ih; exact ih.trans (hread ‹_›)

theorem Connection.outgoing_release (connection : Connection) (link : Link) :
    (connection.release link).2.outgoing = link.outgoing := by
  unfold release
  dsimp only
  split <;> rfl

theorem Connection.outgoing_pollReader (connection : Connection) (link : Link) :
    (connection.pollReader link).2.outgoing = link.outgoing := by
  unfold pollReader
  dsimp only
  rw [outgoing_release]
  unfold Reader.poll
  dsimp only
  split
  · rfl
  · exact Reader.outgoing_readOn _ _ _ _
  · split
    · rfl
    · exact Reader.outgoing_readOn _ _ _ _

/-- The message can be sent, and all of it is written. -/
def Sending.Written (sending : Sending) : Prop :=
  (∃ frame, sending.frame = .ok frame) ∧ sending.message.normal = sending.message

namespace Journal

open Conversation (Move)

section

variable {journal : Journal} {conversation : Conversation} {move : Move}

theorem queue_of_connected {connection : Connection}
    (hstage : conversation.stage = .connected connection) :
    conversation.queue = connection.session.outbox.frames := by
  rw [Conversation.queue, hstage]

theorem sent_note_of_length_le
    (hqueue : (conversation.move move).queue.length ≤ conversation.queue.length) :
    (journal.note conversation move).sent = journal.sent := by
  unfold note
  dsimp only
  split
  · rfl
  · rw [Nat.sub_eq_zero_of_le hqueue, List.replicate_zero, List.append_nil]

theorem exists_sent_note
    (hgrows : Grows (journal.offered? conversation move) conversation.queue
      (conversation.move move).queue) :
    ∃ more : List Sending, ∃ frames : List Frame,
      (journal.note conversation move).sent = journal.sent ++ more ∧
        (conversation.move move).queue = conversation.queue ++ frames ∧
          frames.map Frame.packet = more.map Sending.packet ∧
            ∀ sending ∈ more, journal.offered? conversation move = some sending ∧
              ∃ frame, sending.frame = .ok frame := by
  generalize hafter : (conversation.move move).queue = after at hgrows
  cases hgrows with
  | same =>
      have hsame : (conversation.move move).queue.length ≤ conversation.queue.length := by
        rw [hafter]
      exact ⟨[], [], by rw [sent_note_of_length_le hsame, List.append_nil],
        (List.append_nil _).symm, rfl, nofun⟩
  | @more sending frame count hoffered hframe =>
      refine ⟨.replicate count sending, .replicate count frame, ?_, rfl, ?_, ?_⟩
      · simp [note, hoffered, hafter]
      · rw [List.map_replicate, List.map_replicate, (Sending.packet_of_frame hframe).1]
      · intro other hmem
        obtain rfl := List.eq_of_mem_replicate hmem
        exact ⟨hoffered, frame, hframe⟩

/-- What the calls have begun is theirs, and all of it would be written. -/
def Begun (journal : Journal) : Prop :=
  ∀ index sending, journal.begun index = some sending →
    (∃ action, sending.origin = .call index action) ∧ sending.message.normal = sending.message

theorem normal_of_message? {pending : PendingTable} {action : CallAction} {message : Message}
    (hmessage : action.message? pending = some message) : message.normal = message := by
  unfold CallAction.message? at hmessage
  split at hmessage
  · obtain rfl := Option.some.inj hmessage
    rfl
  · split at hmessage
    · obtain rfl := Option.some.inj hmessage
      rfl
    · simp at hmessage

theorem Begun.offered (hbegun : journal.Begun) {sending : Sending}
    (hoffered : journal.offered? conversation move = some sending) :
    sending.message.normal = sending.message ∧
      ∀ index, move = .task (.call index) ∧ (∃ action, sending.origin = .call index action) ∨
        move ≠ .task (.call index) ∧ sending.origin.isOf index = false := by
  unfold offered? at hoffered
  split at hoffered
  · rename_i own
    have hown : sending.message.normal = sending.message ∧
        ∃ action, sending.origin = .call own action := by
      split at hoffered
      · obtain ⟨message, hmessage, rfl⟩ := Option.map_eq_some_iff.mp hoffered
        exact ⟨normal_of_message? hmessage, _, rfl⟩
      · exact (hbegun own sending hoffered).symm
    refine ⟨hown.1, fun index => ?_⟩
    obtain ⟨action, horigin⟩ := hown.2
    by_cases hsame : own = index
    · subst hsame
      exact .inl ⟨rfl, action, horigin⟩
    · refine .inr ⟨by simpa using hsame, ?_⟩
      rw [horigin]
      simpa [Origin.isOf] using hsame
  · obtain rfl := Option.some.inj hoffered
    exact ⟨rfl, fun index => .inr ⟨by simp, rfl⟩⟩
  · obtain rfl := Option.some.inj hoffered
    exact ⟨rfl, fun index => .inr ⟨by simp, rfl⟩⟩
  · simp at hoffered

theorem Begun.note (hbegun : journal.Begun) (conversation : Conversation) (move : Move) :
    (journal.note conversation move).Begun := by
  intro index sending hsome
  unfold Journal.note at hsome
  dsimp only at hsome
  split at hsome
  · rename_i own
    by_cases hsame : index = own
    · subst hsame
      rw [Function.update_self] at hsome
      obtain ⟨hnormal, horigin⟩ := hbegun.offered hsome
      rcases horigin index with ⟨-, howner⟩ | ⟨hother, -⟩
      · exact ⟨howner, hnormal⟩
      · exact absurd rfl hother
    · rw [Function.update_of_ne hsame] at hsome
      exact hbegun index sending hsome
  · exact hbegun index sending hsome

theorem Begun.sentBy_note (hbegun : journal.Begun) {index : SenderId}
    (hother : move ≠ .task (.call index)) :
    (journal.note conversation move).sentBy index = journal.sentBy index := by
  unfold sentBy Journal.note
  dsimp only
  split
  · rfl
  · rename_i sending hoffered
    obtain ⟨-, horigin⟩ := hbegun.offered hoffered
    rcases horigin index with ⟨hsame, -⟩ | ⟨-, hnot⟩
    · exact absurd hsame hother
    · rw [List.filter_append, List.append_right_eq_self, List.filter_eq_nil_iff]
      intro other hmem
      rw [List.eq_of_mem_replicate hmem, hnot]
      exact Bool.false_ne_true

theorem sentBy_note_of_length_le (index : SenderId)
    (hqueue : (conversation.move move).queue.length ≤ conversation.queue.length) :
    (journal.note conversation move).sentBy index = journal.sentBy index := by
  rw [sentBy, sent_note_of_length_le hqueue, sentBy]

theorem sent_note_of_append {sending : Sending} {frame : Frame}
    (hoffered : journal.offered? conversation move = some sending)
    (hqueue : (conversation.move move).queue = conversation.queue ++ [frame]) :
    (journal.note conversation move).sent = journal.sent ++ [sending] := by
  simp [note, hoffered, hqueue]

theorem begun_note {index : SenderId}
    (hbegun : ∀ slot action isTold,
      conversation.calls[index]? ≠ some ⟨slot, .starting action, isTold⟩) :
    (journal.note conversation move).begun index = journal.begun index := by
  unfold note
  dsimp only
  split
  · rename_i own
    by_cases hsame : index = own
    · subst hsame
      rw [Function.update_self]
      unfold offered?
      dsimp only
      split
      · rename_i hcall _
        exact absurd hcall (hbegun _ _ _)
      · rfl
    · exact Function.update_of_ne hsame _ _
  · rfl

theorem keeps_note {index : SenderId} {call : Call} (hcall : conversation.calls[index]? = some call)
    (hkeeps : call.state.Keeps index (journal.begun index)) :
    call.state.Keeps index ((journal.note conversation move).begun index) := by
  by_cases hstarting : ∃ action, call.state = .starting action
  · obtain ⟨action, hstate⟩ := hstarting
    rw [hstate]
    trivial
  · rw [begun_note]
    · exact hkeeps
    · intro slot action isTold hfound
      obtain rfl := Option.some.inj (hcall.symm.trans hfound)
      exact hstarting ⟨action, rfl⟩

theorem offered_call {index : SenderId} {call : Call} {connection : Connection}
    (hcall : conversation.calls[index]? = some call)
    (hstage : conversation.stage = .connected connection)
    (hkeeps : call.state.Keeps index (journal.begun index)) :
    (∀ action, call.state = .starting action →
        journal.offered? conversation (.task (.call index)) = connection.offer? index action) ∧
      call.state.Keeps index (journal.offered? conversation (.task (.call index))) := by
  obtain ⟨slot, state, isTold⟩ := call
  cases state with
  | starting action =>
      refine ⟨?_, trivial⟩
      rintro _ ⟨⟩
      simp only [offered?, hcall, hstage]
  | _ => exact ⟨nofun, by simpa only [offered?, hcall, hstage] using hkeeps⟩

end

end Journal

namespace Conversation

/-- Where the bytes of what was sent are, of which `gone` have been put into the stream. -/
inductive StageHolds (request : HandshakeRequest) (gone : Bytes) (sent : List Sending) :
    Stage → Prop where
  | unconnected {settings : Settings} (hrequest : settings.request = request) (hgone : gone = [])
      (hsent : sent = []) : StageHolds request gone sent (.unconnected settings)
  | connecting (settings : Settings) {attempt : Attempt} (hrequest : attempt.request = request)
      (hphase : Attempt.PhaseHolds request gone attempt.phase) (hsent : sent = []) :
      StageHolds request gone sent (.connecting settings attempt)
  | failed (lifecycle : Lifecycle) (routes : RouteTable) (hpart : Attempt.Part request gone)
      (hsent : sent = []) : StageHolds request gone sent (.failed lifecycle routes)
  | connected {connection : Connection} (hfits : Attempt.Fits request)
      (hholds : Writer.Holds
        (Attempt.written request ++ (sent.map Sending.packet).flatMap Packet.bytes) gone
        connection.writer connection.session.outbox.frames) :
      StageHolds request gone sent (.connected connection)

theorem StageHolds.of_not_connected {request : HandshakeRequest} {gone : Bytes}
    {sent : List Sending} {stage : Stage} (hholds : StageHolds request gone sent stage)
    (hstage : ∀ connection, stage ≠ .connected connection) :
    Attempt.Part request gone ∧ sent = [] := by
  cases hholds with
  | unconnected hrequest hgone hsent => exact ⟨.inl hgone, hsent⟩
  | connecting settings hrequest hphase hsent => exact ⟨hphase.part, hsent⟩
  | failed lifecycle routes hpart hsent => exact ⟨hpart, hsent⟩
  | connected hfits hholds => exact absurd rfl (hstage _)

theorem StageHolds.part {request : HandshakeRequest} {gone : Bytes} {sent : List Sending}
    {stage : Stage} (hholds : StageHolds request gone sent stage) :
    gone = [] ∨ Attempt.Fits request ∧
      gone <+: Attempt.written request ++ (sent.map Sending.packet).flatMap Packet.bytes := by
  have hpart (hpart : Attempt.Part request gone) : gone = [] ∨ Attempt.Fits request ∧
      gone <+: Attempt.written request ++ (sent.map Sending.packet).flatMap Packet.bytes :=
    hpart.imp_right fun ⟨hfits, hfirst⟩ => ⟨hfits, hfirst.trans (List.prefix_append _ _)⟩
  cases hholds with
  | unconnected hrequest hgone hsent => exact .inl hgone
  | connecting settings hrequest hphase hsent => exact hpart hphase.part
  | failed lifecycle routes hfirst hsent => exact hpart hfirst
  | connected hfits hholds => exact .inr ⟨hfits, hholds.gone_first⟩

/-- How a journal and a conversation belong together. -/
structure Tracks (request : HandshakeRequest) (conversation : Conversation) (journal : Journal) :
    Prop where
  stage : StageHolds request conversation.carried journal.sent conversation.stage
  written : ∀ sending ∈ journal.sent, sending.Written
  begun : journal.Begun
  calls : ∀ (index : SenderId) (call : Call), conversation.calls[index]? = some call →
    Sent index call.state (journal.sentBy index) ∧ call.state.Keeps index (journal.begun index)
  others : ∀ index : SenderId, conversation.calls[index]? = none → journal.sentBy index = []
  fails : ∀ connection, conversation.stage = .connected connection →
    connection.session.FailsClosed

theorem stageHolds_pollAttempt {request : HandshakeRequest} {conversation : Conversation}
    {settings : Settings} {attempt : Attempt} (index : SenderId)
    (hholds : StageHolds request conversation.carried [] (.connecting settings attempt)) :
    StageHolds request (conversation.pollAttempt settings attempt index).carried []
      (conversation.pollAttempt settings attempt index).stage := by
  obtain _ | ⟨_, rfl, hphase, -⟩ | _ | _ := hholds
  have hgone : Attempt.PhaseHolds attempt.request
      (conversation.peer.received.reverse.flatten ++ conversation.link.outgoing) attempt.phase :=
    hphase
  have hpolled := Attempt.holds_poll conversation.now hgone
  unfold pollAttempt
  generalize attempt.poll conversation.now conversation.link = polled at hpolled
  obtain ⟨state, link⟩ := polled
  cases hpolled with
  | waiting hphase => exact .connecting settings rfl hphase rfl
  | failed reason hpart => exact .failed _ _ hpart rfl
  | accepted accepted hfits hall =>
      dsimp only [connect]
      split
      · refine .connected hfits ?_
        change Writer.Holds _ (conversation.peer.received.reverse.flatten ++ link.outgoing) _ _
        unfold Connection.establish Writer.start
        dsimp only
        split
        · exact .idle (by rw [hall]; rfl)
        · exact .unable (by rw [hall]; exact List.prefix_append _ _)
      · exact .failed _ _ (.inr ⟨hfits, hall ▸ List.prefix_refl _⟩) rfl

theorem stageHolds_opening {request : HandshakeRequest} {before after : Conversation} {move : Move}
    (hopening : Opening before move after)
    (hstage : ∀ connection, before.stage ≠ .connected connection)
    (hholds : StageHolds request before.carried [] before.stage) :
    StageHolds request after.carried [] after.stage := by
  cases hopening with
  | aside hafter hcalls hcarried => rwa [hafter, hcarried]
  | aborted hfailed hcalls hcarried =>
      rw [hcarried, hfailed]
      exact .failed _ _ (hholds.of_not_connected hstage).1 rfl
  | begun hunconnected =>
      rw [hunconnected] at hholds
      obtain ⟨hrequest, hgone, -⟩ := hholds
      exact .connecting _ hrequest (.starting hgone) rfl
  | polled hconnecting =>
      rw [hconnecting] at hholds
      exact stageHolds_pollAttempt _ hholds

theorem Tracks.move_opening {request : HandshakeRequest} {conversation : Conversation}
    {journal : Journal} (htracks : Tracks request conversation journal)
    (hstage : ∀ connection, conversation.stage ≠ .connected connection) (move : Move) :
    Tracks request (conversation.move move) (journal.note conversation move) := by
  have hopening := opening hstage move
  have hnone := (htracks.stage.of_not_connected hstage).2
  have hempty : (conversation.move move).queue = [] := by
    unfold queue
    split
    · rename_i connection hconnected
      obtain ⟨settings, accepted, rfl⟩ := establish_of_opening hopening hstage hconnected
      unfold Connection.establish Writer.start
      dsimp only
      split <;> rfl
    · rfl
  have hsent : (journal.note conversation move).sent = journal.sent :=
    Journal.sent_note_of_length_le (by rw [hempty]; exact Nat.zero_le _)
  have hsentBy (index : SenderId) : (journal.note conversation move).sentBy index = [] := by
    rw [Journal.sentBy, hsent, hnone]
    rfl
  have hcalls := calls_opening hopening
  constructor
  case stage =>
    rw [hsent, hnone]
    refine stageHolds_opening hopening hstage ?_
    rw [← hnone]
    exact htracks.stage
  case written =>
    rw [hsent]
    exact htracks.written
  case begun => exact htracks.begun.note conversation move
  case calls =>
    intro index call hcall
    rw [hsentBy]
    rcases hcalls index with hsame | ⟨before, result, -, hafter, hresult⟩
    · rw [hsame] at hcall
      obtain ⟨hbefore, hkeeps⟩ := htracks.calls index call hcall
      refine ⟨?_, Journal.keeps_note hcall hkeeps⟩
      rwa [Journal.sentBy, hnone] at hbefore
    · obtain rfl := Option.some.inj (hafter.symm.trans hcall)
      have hunsent : (CallState.ended result).maybeUnsent = true := by
        rcases hresult with rfl | ⟨reason, rfl⟩ | ⟨response, rfl⟩ <;> rfl
      exact ⟨.nothing hunsent, trivial⟩
  case others => exact fun index _ => hsentBy index
  case fails =>
    intro connection hconnected
    obtain ⟨settings, accepted, rfl⟩ := establish_of_opening hopening hstage hconnected
    exact nofun

section

variable {request : HandshakeRequest} {conversation : Conversation} {journal : Journal}
  {connection : Connection}

theorem Tracks.unsent_of_ready (htracks : Tracks request conversation journal) {index : SenderId}
    {call : Call} (hcall : conversation.calls[index]? = some call)
    (hready : connection.callReady conversation.now index call.state = true) :
    (∃ answer deadline asJson, call.state = .awaitingAnswer answer deadline asJson) ∨
      call.state.maybeUnsent = true ∧ journal.sentBy index = [] := by
  have hsent := (htracks.calls index call hcall).1
  generalize journal.sentBy index = own at hsent
  cases hsent with
  | nothing hunsent => exact .inr ⟨hunsent, rfl⟩
  | once horigin hbehind =>
      obtain ⟨slot, state, isTold⟩ := call
      cases hbehind with
      | awaiting deadline haction hmessage => exact .inl ⟨_, _, _, rfl⟩
      | _ => cases hready

theorem Tracks.sendTurn (htracks : Tracks request conversation journal)
    (hstage : conversation.stage = .connected connection) {index : SenderId} {call : Call}
    (hcall : conversation.calls[index]? = some call) (hunsent : call.state.maybeUnsent = true) :
    Connection.SendTurn index (journal.offered? conversation (.task (.call index)))
      connection.session.outbox.frames
      (connection.pollCall conversation.now index call.state).1
      (connection.pollCall conversation.now index call.state).2.session.outbox.frames := by
  obtain ⟨hoffered, hkeeps⟩ :=
    Journal.offered_call hcall hstage (htracks.calls index call hcall).2
  exact Connection.sendTurn_pollCall (htracks.fails connection hstage) _ hunsent hoffered hkeeps

theorem Tracks.grows (htracks : Tracks request conversation journal)
    (hstage : conversation.stage = .connected connection) {move : Move}
    (hmove : move ≠ .task .writer) :
    ∃ next, (conversation.move move).stage = .connected next ∧ next.writer = connection.writer ∧
      (conversation.move move).carried = conversation.carried ∧
        Grows (journal.offered? conversation move) connection.session.outbox.frames
          next.session.outbox.frames := by
  have hroutes : conversation.routes = connection.session.routes := by rw [routes, hstage]
  have hmoved := moved hstage move
  generalize conversation.move move = after at hmoved
  cases hmoved with
  | aside hquiet hafter hcalls hcarried => exact ⟨connection, hafter, rfl, hcarried, .same⟩
  | started slot action => exact ⟨connection, hstage, rfl, rfl, .same⟩
  | tried route payload =>
      refine ⟨_, rfl, connection.writer_tryNotify route payload, rfl, ?_⟩
      simp only [Journal.offered?, hroutes]
      rcases connection.tryNotify_cases route payload with
        ⟨reason, -, hframes⟩ | ⟨frame, hframe, -, hframes⟩
      · rw [hframes]
        exact .same
      · rw [hframes]
        exact .more 1 rfl hframe
  | told hquiet events pushed => exact ⟨_, rfl, rfl, rfl, .same⟩
  | changedRoutes hcall => exact ⟨_, rfl, rfl, rfl, .same⟩
  | dropped hheld hidle =>
      refine ⟨_, rfl, rfl, rfl, ?_⟩
      change Grows _ _ (connection.session.terminate .byClient).outbox.frames
      rw [Session.frames_terminate]
      exact .same
  | looked hkept => exact ⟨_, rfl, rfl, rfl, .same⟩
  | gaveUp hkept => exact ⟨_, rfl, rfl, rfl, .same⟩
  | @aborted slot index call hcall hrunning =>
      refine ⟨_, rfl, connection.writer_abortCall index call.state, rfl, ?_⟩
      rw [Connection.frames_abortCall]
      exact .same
  | @polled index call hcall hready =>
      refine ⟨_, stage_settleCall _ _ _ _, connection.writer_pollCall _ index call.state, ?_, ?_⟩
      · unfold settleCall
        dsimp only
        split <;> rfl
      · rcases htracks.unsent_of_ready hcall hready with
          ⟨answer, deadline, asJson, hstate⟩ | ⟨hunsent, -⟩
        · rw [hstate]
          change Grows _ _ (connection.pollAnswer _ _ _ _).2.session.outbox.frames
          rw [Connection.outbox_pollAnswer]
          exact .same
        · have hturn := htracks.sendTurn hstage hcall hunsent
          generalize (connection.pollCall conversation.now index call.state).1 = state at hturn
          generalize (connection.pollCall conversation.now index
            call.state).2.session.outbox.frames = frames at hturn ⊢
          cases hturn with
          | unsent => exact .same
          | sent hoffered horigin hframe hbehind => exact .more 1 hoffered hframe
  | wrote hready => exact absurd rfl hmove
  | read hready =>
      obtain ⟨cause?, hgoes, -⟩ := connection.reader.goes_poll connection.session conversation.link
      refine ⟨_, rfl, rfl, ?_, ?_⟩
      · change _ ++ (connection.pollReader conversation.link).2.outgoing = _
        rw [Connection.outgoing_pollReader]
        rfl
      · simp only [Journal.offered?, hroutes]
        exact hgoes.grows .heartbeat

theorem Tracks.stageHolds_pollWriter (htracks : Tracks request conversation journal)
    (hstage : conversation.stage = .connected connection) :
    StageHolds request
      (conversation.peer.received.reverse.flatten ++
        (connection.pollWriter conversation.link).2.outgoing) journal.sent
      (.connected (connection.pollWriter conversation.link).1) := by
  have hholds := htracks.stage
  rw [hstage] at hholds
  obtain _ | _ | _ | ⟨hfits, hholds⟩ := hholds
  refine .connected hfits ?_
  change Writer.Holds _ (conversation.peer.received.reverse.flatten ++ conversation.link.outgoing)
    _ _ at hholds
  have hpolled := Writer.holds_poll connection.maxBatch true
    ⟨connection.writer, connection.session.outbox, conversation.link⟩ hholds
  unfold Connection.pollWriter
  dsimp only
  rw [Connection.outgoing_release]
  unfold Connection.release
  dsimp only
  split
  · rw [Session.frames_terminate]
    exact hpolled
  · exact hpolled

theorem Tracks.stage_connected (htracks : Tracks request conversation journal)
    (hstage : conversation.stage = .connected connection) (move : Move) :
    StageHolds request (conversation.move move).carried (journal.note conversation move).sent
      (conversation.move move).stage := by
  have hqueue := Journal.queue_of_connected hstage
  -- The writer is the only one that takes frames out of the queue, and it enters nothing.
  by_cases hwriter : move = .task .writer
  · subst hwriter
    change StageHolds _ _ journal.sent _
    have hmoved := moved hstage (.task .writer)
    generalize conversation.move (.task .writer) = after at hmoved
    cases hmoved with
    | aside hquiet hafter hcalls hcarried =>
        rw [hafter, hcarried, ← hstage]
        exact htracks.stage
    | told hquiet events pushed =>
        have hholds := htracks.stage
        rw [hstage] at hholds
        obtain _ | _ | _ | ⟨hfits, hholds⟩ := hholds
        exact .connected hfits hholds
    | wrote hready => exact htracks.stageHolds_pollWriter hstage
  · obtain ⟨next, hnext, hsame, hcarried, hgrows⟩ := htracks.grows hstage hwriter
    have hqueue' := Journal.queue_of_connected hnext
    rw [← hqueue, ← hqueue'] at hgrows
    obtain ⟨more, frames, hsent, hframes, hpackets, -⟩ := Journal.exists_sent_note hgrows
    have hholds := htracks.stage
    rw [hstage] at hholds
    obtain _ | _ | _ | ⟨hfits, hholds⟩ := hholds
    rw [hnext, hcarried, hsent]
    refine .connected hfits ?_
    have hbytes : frames.flatMap Frame.bytes = (more.map Sending.packet).flatMap Packet.bytes := by
      rw [← hpackets, List.flatMap_map]
      rfl
    have hentered := hholds.enter frames
    rwa [hbytes, List.append_assoc, ← List.flatMap_append, ← List.map_append, ← hqueue, ← hframes,
      hqueue', ← hsame] at hentered

theorem Tracks.written_connected (htracks : Tracks request conversation journal)
    (hstage : conversation.stage = .connected connection) (move : Move) :
    ∀ sending ∈ (journal.note conversation move).sent, sending.Written := by
  by_cases hwriter : move = .task .writer
  · subst hwriter
    exact htracks.written
  · obtain ⟨next, hnext, -, -, hgrows⟩ := htracks.grows hstage hwriter
    rw [← Journal.queue_of_connected hstage, ← Journal.queue_of_connected hnext] at hgrows
    obtain ⟨more, frames, hsent, -, -, hmore⟩ := Journal.exists_sent_note hgrows
    rw [hsent]
    intro sending hmem
    rcases List.mem_append.mp hmem with hbefore | hnew
    · exact htracks.written sending hbefore
    · obtain ⟨hoffered, hframe⟩ := hmore sending hnew
      exact ⟨hframe, (htracks.begun.offered hoffered).1⟩

theorem Tracks.sentBy_of_idle (htracks : Tracks request conversation journal) {index : SenderId}
    {move : Move}
    (hidle : move = .task (.call index) → conversation.isReady (.call index) = false) :
    (journal.note conversation move).sentBy index = journal.sentBy index := by
  by_cases hown : move = .task (.call index)
  · refine Journal.sentBy_note_of_length_le index ?_
    rw [hown, Conversation.move, hidle hown]
    exact Nat.le_refl _
  · exact htracks.begun.sentBy_note hown

theorem Tracks.sent_polled (htracks : Tracks request conversation journal)
    (hstage : conversation.stage = .connected connection) {index : SenderId} {call : Call}
    (hcall : conversation.calls[index]? = some call)
    (hready : connection.callReady conversation.now index call.state = true) :
    Sent index (connection.pollCall conversation.now index call.state).1
        ((journal.note conversation (.task (.call index))).sentBy index) ∧
      (connection.pollCall conversation.now index call.state).1.Keeps index
        ((journal.note conversation (.task (.call index))).begun index) := by
  have hturned : conversation.isReady (.call index) = true := by
    simpa only [isReady, hcall, hstage] using hready
  have hafter : (conversation.move (.task (.call index))).queue =
      (connection.pollCall conversation.now index call.state).2.session.outbox.frames := by
    refine Journal.queue_of_connected ?_
    simp only [move, hturned, if_true, poll, pollCall, hcall, hstage, stage_settleCall]
    rfl
  have hbegun : (journal.note conversation (.task (.call index))).begun index =
      journal.offered? conversation (.task (.call index)) := Function.update_self ..
  have hqueue := Journal.queue_of_connected hstage
  rcases htracks.unsent_of_ready hcall hready with
    ⟨answer, deadline, asJson, hstate⟩ | ⟨hunsent, hnone⟩
  · -- The message has been sent already, and looking for the answer adds nothing.
    have hsent := (htracks.calls index call hcall).1
    rw [hstate] at hsent hafter ⊢
    change _ = (connection.pollAnswer _ _ _ _).2.session.outbox.frames at hafter
    change Sent index (connection.pollAnswer _ _ _ _).1 _ ∧
      (connection.pollAnswer _ _ _ _).1.Keeps index _
    rw [Connection.outbox_pollAnswer, ← hqueue] at hafter
    rw [Journal.sentBy_note_of_length_le index (Nat.le_of_eq (by rw [hafter]))]
    generalize journal.sentBy index = own at hsent
    cases hsent with
    | nothing hunsent => cases hunsent
    | once horigin hbehind =>
        obtain _ | _ | ⟨_, haction, hmessage⟩ := hbehind
        have hnext : (connection.pollAnswer conversation.now answer deadline asJson).1.Behind _ _ :=
          Connection.behind_pollAnswer (htracks.fails connection hstage) _ deadline haction
        rw [← hmessage] at hnext
        exact ⟨.once horigin hnext, hnext.keeps _ _⟩
  · -- Nothing has been sent so far, so what the turn puts into the queue is all there is.
    have hturn := htracks.sendTurn hstage hcall hunsent
    rw [hbegun]
    generalize (connection.pollCall conversation.now index call.state).1 = state at hturn ⊢
    generalize (connection.pollCall conversation.now index
      call.state).2.session.outbox.frames = frames at hturn hafter
    cases hturn with
    | unsent hunsent hkeeps =>
        rw [← hqueue] at hafter
        rw [Journal.sentBy_note_of_length_le index (Nat.le_of_eq (by rw [hafter])), hnone]
        exact ⟨.nothing hunsent, hkeeps⟩
    | @sent sending action frame _ hoffered horigin hframe hbehind =>
        rw [← hqueue] at hafter
        have hown : sending.origin.isOf index = true := by simp [horigin, Origin.isOf]
        rw [Journal.sentBy, Journal.sent_note_of_append hoffered hafter, List.filter_append,
          ← Journal.sentBy, hnone, List.filter_singleton, hown]
        exact ⟨.once horigin hbehind, hbehind.keeps _ _⟩

theorem starting_of_new (hstage : conversation.stage = .connected connection) {move : Move}
    {index : SenderId} {call : Call} (hnone : conversation.calls[index]? = none)
    (hcall : (conversation.move move).calls[index]? = some call) :
    ∃ action, call.state = .starting action := by
  have hmoved := moved hstage move
  generalize conversation.move move = after at hmoved hcall
  have hset (other : SenderId) (state : CallState) :
      (conversation.setCall other state).calls[index]? ≠ some call := by
    rw [getElem?_setCall, hnone]
    split <;> nofun
  cases hmoved with
  | aside hquiet hafter hcalls hcarried => rw [hcalls, hnone] at hcall; cases hcall
  | started slot action =>
      rw [List.getElem?_append_right (List.getElem?_eq_none_iff.mp hnone)] at hcall
      obtain rfl := List.mem_singleton.mp (List.mem_of_getElem? hcall)
      exact ⟨action, rfl⟩
  | aborted hfound hrunning => exact absurd hcall (hset _ _)
  | polled hfound hready =>
      rw [calls_settleCall] at hcall
      exact absurd hcall (hset _ _)
  | _ => cases hnone.symm.trans hcall

theorem Tracks.calls_connected (htracks : Tracks request conversation journal)
    (hstage : conversation.stage = .connected connection) (move : Move) (index : SenderId)
    (call : Call) (hcall : (conversation.move move).calls[index]? = some call) :
    Sent index call.state ((journal.note conversation move).sentBy index) ∧
      call.state.Keeps index ((journal.note conversation move).begun index) := by
  cases hbefore : conversation.calls[index]? with
  | none =>
      obtain ⟨action, hstate⟩ := starting_of_new hstage hbefore hcall
      rw [htracks.sentBy_of_idle, htracks.others index hbefore, hstate]
      · exact ⟨.nothing rfl, trivial⟩
      · intro _
        simp only [isReady, hbefore]
  | some before =>
      obtain ⟨hsent, hkeeps⟩ := htracks.calls index before hbefore
      obtain ⟨after, hafter, hmoved⟩ := exists_callMoved hstage hbefore move
      obtain rfl := Option.some.inj (hafter.symm.trans hcall)
      cases hmoved with
      | aside hidle =>
          rw [htracks.sentBy_of_idle]
          · exact ⟨hsent, Journal.keeps_note hbefore hkeeps⟩
          · intro hown
            simpa only [isReady, hbefore, hstage] using hidle hown
      | aborted slot hrunning =>
          have hother : Move.command (.abort slot) ≠ .task (.call index) := by simp
          rw [htracks.begun.sentBy_note hother]
          refine ⟨?_, trivial⟩
          obtain ⟨_, state, _⟩ := before
          generalize journal.sentBy index = own at hsent
          cases hsent with
          | nothing hunsent => exact .nothing rfl
          | once horigin hbehind =>
              cases hbehind with
              | awaiting deadline haction hmessage =>
                  exact .once horigin (.over haction hmessage (.aborted _))
              | _ => cases hrunning
      | polled hready => exact htracks.sent_polled hstage hbefore hready

end

/-- Whatever happens, the journal goes on to tell what the conversation sends. -/
theorem Tracks.move {request : HandshakeRequest} {conversation : Conversation} {journal : Journal}
    (htracks : Tracks request conversation journal) (move : Move) :
    Tracks request (conversation.move move) (journal.note conversation move) := by
  by_cases hconnected : ∃ connection, conversation.stage = .connected connection
  · obtain ⟨connection, hstage⟩ := hconnected
    constructor
    case stage => exact htracks.stage_connected hstage move
    case written => exact htracks.written_connected hstage move
    case begun => exact htracks.begun.note conversation move
    case calls => exact htracks.calls_connected hstage move
    case others =>
      intro index hnone
      have hbefore : conversation.calls[index]? = none := by
        cases hcall : conversation.calls[index]? with
        | none => rfl
        | some call =>
            obtain ⟨after, hafter, -⟩ := exists_callMoved hstage hcall move
            cases hnone.symm.trans hafter
      rw [htracks.sentBy_of_idle, htracks.others index hbefore]
      intro _
      simp only [isReady, hbefore]
    case fails =>
      intro next hnext
      obtain ⟨after, cause?, hafter, hgoes, -⟩ := exists_goes_move hstage move
      obtain rfl := Stage.connected.inj (hafter.symm.trans hnext)
      exact (htracks.fails connection hstage).of_goes hgoes
  · rw [not_exists] at hconnected
    exact htracks.move_opening hconnected move

theorem tracks_start (settings : Settings) (capacity : Nat) (fault : Fault) :
    Tracks settings.request (start settings capacity fault) {} := by
  constructor
  case stage => exact .unconnected rfl rfl rfl
  case written => exact nofun
  case begun => exact nofun
  case calls =>
    intro index call hcall
    obtain rfl := List.mem_singleton.mp (List.mem_of_getElem? hcall)
    exact ⟨.nothing rfl, trivial⟩
  case others => exact fun index _ => rfl
  case fails =>
    intro connection hstage
    simp [start] at hstage

theorem Tracks.follow {request : HandshakeRequest} {conversation : Conversation}
    {journal : Journal} (htracks : Tracks request conversation journal) (moves : List Move) :
    Tracks request (conversation.follow moves) (journal.record conversation moves) := by
  induction moves generalizing conversation journal with
  | nil => exact htracks
  | cons move moves ih => exact ih (htracks.move move)

end Conversation

end RoutedSession
