import RoutedSession.Proofs.Session.Journal

namespace RoutedSession

open Relation (ReflTransGen)

open Session (ReaderChange WriterChange CallChange Change Goes Grows)

/-- How awaiting the answer to a request with an id can end. -/
inductive CallResult.EndsAwaiting (id : UInt32) : (asJson : Bool) → CallResult → Prop where
  | answered (answer : Message) : EndsAwaiting id false (.answered answer)
  | answeredJson (answer : Message) (value : Except SessionError Json) :
      EndsAwaiting id true (.answeredJson answer value)
  | closed (asJson : Bool) : EndsAwaiting id asJson (.failed .closed)
  | timedOut (asJson : Bool) : EndsAwaiting id asJson (.failed (.requestTimeout id))
  | aborted (asJson : Bool) : EndsAwaiting id asJson .aborted

namespace CallState

/-- Whether a call can have come so far without sending anything. -/
def maybeUnsent : CallState → Bool
  | .awaitingAnswer _ _ _ | .ended .notified | .ended (.requested _) | .ended (.answered _)
  | .ended (.answeredJson _ _) => false
  | _ => true

/-- How far a call has come that has sent the message of its action. -/
inductive Behind (action : CallAction) (message : Message) : CallState → Prop where
  | notified {route : String} {payload : Bytes} (haction : action = .notify route payload)
      (hmessage : message = { kind := .notify, route, payload }) :
      Behind action message (.ended .notified)
  | requested {route : String} {payload : Bytes} {answer : PendingAnswer}
      (haction : action.request? = some (route, payload, .keep))
      (hmessage : message = { kind := .request, id := answer.id, route, payload }) :
      Behind action message (.ended (.requested answer))
  | awaiting {route : String} {payload : Bytes} {answer : PendingAnswer} {timeout : Option Nat}
      {asJson : Bool} (deadline : Option Nat)
      (haction : action.request? = some (route, payload, .await timeout asJson))
      (hmessage : message = { kind := .request, id := answer.id, route, payload }) :
      Behind action message (.awaitingAnswer answer deadline asJson)
  | over {route : String} {payload : Bytes} {id : UInt32} {timeout : Option Nat} {asJson : Bool}
      {result : CallResult}
      (haction : action.request? = some (route, payload, .await timeout asJson))
      (hmessage : message = { kind := .request, id, route, payload })
      (hends : result.EndsAwaiting id asJson) : Behind action message (.ended result)

/-- What a call that waits for a slot has begun to send. -/
def Keeps (index : SenderId) (begun : Option Sending) : CallState → Prop
  | .sendingRequest frame answer use =>
      ∃ action route payload routes, action.request? = some (route, payload, use) ∧
        begun = some
          ⟨.call index action, routes, { kind := .request, id := answer.id, route, payload }⟩ ∧
        Session.frame routes { kind := .request, id := answer.id, route, payload } = .ok frame
  | .sendingNotify frame =>
      ∃ route payload routes,
        begun = some
          ⟨.call index (.notify route payload), routes, { kind := .notify, route, payload }⟩ ∧
        Session.frame routes { kind := .notify, route, payload } = .ok frame
  | _ => True

theorem Behind.keeps {action : CallAction} {message : Message} {state : CallState}
    (hbehind : state.Behind action message) (index : SenderId) (begun : Option Sending) :
    state.Keeps index begun := by
  cases hbehind <;> trivial

end CallState

/-- What a call has sent, which is nothing or one message, as far as it has come. -/
inductive Sent (index : SenderId) (state : CallState) : List Sending → Prop where
  | nothing (hunsent : state.maybeUnsent = true) : Sent index state []
  | once {sending : Sending} {action : CallAction} (horigin : sending.origin = .call index action)
      (hbehind : state.Behind action sending.message) : Sent index state [sending]

namespace PendingAnswer

theorem outcomes_poll_subset (answer : PendingAnswer) (table : PendingTable) :
    (answer.poll table).2.outcomes ⊆ table.outcomes := by
  rw [answer.snd_poll]
  exact List.filter_subset_self _

theorem outcomes_drop_subset (answer : PendingAnswer) (table : PendingTable) :
    (answer.drop table).outcomes ⊆ table.outcomes := by
  rcases answer.drop_cases table with htaken | hremoved
  · rw [htaken]
    exact List.filter_subset_self _
  · rw [hremoved]
    exact List.Subset.refl _

end PendingAnswer

/-- Nothing but the end of the session makes a pending request fail. -/
def Session.FailsClosed (session : Session) : Prop :=
  ∀ ticket reason, (ticket, .error reason) ∈ session.pending.outcomes → reason = .closed

namespace Session

theorem FailsClosed.of_subset {session after : Session} (hbefore : session.FailsClosed)
    (hfewer : after.pending.outcomes ⊆ session.pending.outcomes) : after.FailsClosed :=
  fun ticket reason hmem => hbefore ticket reason (hfewer hmem)

theorem Change.failsClosed {session after : Session} (hchange : Change session after)
    (hbefore : session.FailsClosed) : after.FailsClosed := by
  rcases hchange with hchange | hchange | hchange
  · cases hchange with
    | answered answer =>
        intro ticket reason hmem
        unfold PendingTable.resolve at hmem
        split at hmem
        · exact hbefore ticket reason hmem
        · exact hbefore ticket reason (by simpa using hmem)
    | replied hreply => exact hbefore
    | told events => exact hbefore
  · cases hchange <;> exact hbefore
  · cases hchange with
    | registered hregister =>
        obtain ⟨-, -, -, -, rfl⟩ := PendingTable.register_eq_some hregister
        exact hbefore
    | looked answer => exact hbefore.of_subset (answer.outcomes_poll_subset session.pending)
    | gaveUp answer => exact hbefore.of_subset (answer.outcomes_drop_subset session.pending)
    | _ => exact hbefore

theorem FailsClosed.terminate {session : Session} (hbefore : session.FailsClosed)
    (reason : CloseReason) : (session.terminate reason).FailsClosed := by
  unfold Session.terminate
  split
  · exact hbefore
  · intro ticket error hmem
    simp only [PendingTable.close, List.mem_append, List.mem_map, Prod.mk.injEq,
      Except.error.injEq] at hmem
    rcases hmem with ⟨_, -, -, rfl⟩ | hmem
    · rfl
    · exact hbefore ticket error hmem

theorem FailsClosed.of_goes {session after : Session} {cause? : Option CloseReason}
    (hbefore : session.FailsClosed) (hgoes : session.Goes Change cause? after) :
    after.FailsClosed := by
  have hchanged {last : Session} (hchanges : ReflTransGen Change session last) :
      last.FailsClosed := by
    induction hchanges with
    | refl => exact hbefore
    | tail _ hchange ih => exact hchange.failsClosed ih
  cases hgoes with
  | on hchanges => exact hchanged hchanges
  | ends hchanges reason events => exact (hchanged hchanges).terminate reason

end Session

namespace Connection

/-- What a turn of a call makes of the call and of the queue, given what it has to send. -/
inductive SendTurn (index : SenderId) (offered? : Option Sending) (frames : List Frame) :
    CallState → List Frame → Prop where
  | unsent {state : CallState} (hunsent : state.maybeUnsent = true)
      (hkeeps : state.Keeps index offered?) : SendTurn index offered? frames state frames
  | sent {sending : Sending} {action : CallAction} {frame : Frame} {state : CallState}
      (hoffered : offered? = some sending) (horigin : sending.origin = .call index action)
      (hframe : sending.frame = .ok frame) (hbehind : state.Behind action sending.message) :
      SendTurn index offered? frames state (frames ++ [frame])

theorem answerResult_endsAwaiting {outcome : Outcome}
    (hfails : ∀ reason, outcome = .error reason → reason = .closed) (id : UInt32) (asJson : Bool) :
    (answerResult asJson outcome).EndsAwaiting id asJson := by
  cases outcome with
  | error reason =>
      obtain rfl := hfails reason rfl
      exact .closed asJson
  | ok answer =>
      cases asJson with
      | true => exact .answeredJson answer _
      | false => exact .answered answer

theorem behind_pollAnswer {connection : Connection} (hfails : connection.session.FailsClosed)
    (now : Nat) {answer : PendingAnswer} (deadline : Option Nat) {asJson : Bool}
    {action : CallAction} {route : String} {payload : Bytes} {timeout : Option Nat}
    (haction : action.request? = some (route, payload, .await timeout asJson)) :
    (connection.pollAnswer now answer deadline asJson).1.Behind action
      { kind := .request, id := answer.id, route, payload } := by
  unfold pollAnswer
  split
  · rename_i outcome pending hpoll
    refine .over haction rfl (answerResult_endsAwaiting ?_ answer.id asJson)
    rintro reason rfl
    unfold PendingAnswer.poll at hpoll
    split at hpoll
    · simp at hpoll
    · rename_i outcome hready
      obtain ⟨hsome, -⟩ := Prod.mk.inj hpoll
      obtain rfl : outcome = .error reason := by simpa using hsome
      unfold PendingTable.standing at hready
      split at hready
      · rename_i found hfound
        obtain rfl : found = .error reason := by simpa using hready
        obtain ⟨front, back, hsplit, -⟩ := List.lookup_eq_some_iff.mp hfound
        refine hfails answer.ticket reason ?_
        rw [hsplit]
        exact List.mem_append_right front List.mem_cons_self
      · split at hready <;> simp at hready
    · simpa [eq_comm] using (Prod.mk.inj hpoll).1
  · split
    · exact .over haction rfl (.timedOut asJson)
    · exact .awaiting deadline haction rfl

@[simp] theorem outbox_pollAnswer (connection : Connection) (now : Nat) (answer : PendingAnswer)
    (deadline : Option Nat) (asJson : Bool) :
    (connection.pollAnswer now answer deadline asJson).2.session.outbox =
      connection.session.outbox := by
  unfold pollAnswer
  split
  · rfl
  · split <;> rfl

section

variable {connection : Connection} {index : SenderId} {offered? : Option Sending}

theorem sendTurn_afterRequest (hfails : connection.session.FailsClosed) (now : Nat) {frame : Frame}
    {answer : PendingAnswer} {use : AnswerUse}
    (hkeeps : (CallState.sendingRequest frame answer use).Keeps index offered?)
    {sent : Outbox.Sent × Outbox}
    (hadds : Outbox.Adds connection.session.outbox.frames frame sent) :
    SendTurn index offered? connection.session.outbox.frames
      (connection.afterRequest now frame answer use sent).1
      (connection.afterRequest now frame answer use sent).2.session.outbox.frames := by
  obtain ⟨action, route, payload, routes, haction, hoffered, hframe⟩ := id hkeeps
  obtain ⟨result, outbox⟩ := sent
  cases result with
  | waiting =>
      change SendTurn _ _ _ _ outbox.frames
      rw [show outbox.frames = connection.session.outbox.frames from hadds]
      exact .unsent rfl hkeeps
  | failed reason =>
      change SendTurn _ _ _ _ outbox.frames
      rw [show outbox.frames = connection.session.outbox.frames from hadds]
      exact .unsent rfl trivial
  | done =>
      have hgrown : outbox.frames = connection.session.outbox.frames ++ [frame] := hadds
      cases use with
      | keep =>
          change SendTurn _ _ _ _ outbox.frames
          rw [hgrown]
          exact .sent hoffered rfl hframe (.requested haction rfl)
      | await timeout asJson =>
          have hafter : (connection.setOutbox outbox).session.FailsClosed := hfails
          have hbehind := @behind_pollAnswer _ hafter now answer (timeout.map (now + ·)) _ _ _ _ _
            haction
          unfold afterRequest
          dsimp only
          rw [outbox_pollAnswer]
          change SendTurn _ _ _ _ outbox.frames
          rw [hgrown]
          exact .sent hoffered rfl hframe hbehind

theorem sendTurn_afterNotify {frame : Frame}
    (hkeeps : (CallState.sendingNotify frame).Keeps index offered?)
    {sent : Outbox.Sent × Outbox}
    (hadds : Outbox.Adds connection.session.outbox.frames frame sent) :
    SendTurn index offered? connection.session.outbox.frames
      (connection.afterNotify frame sent).1
      (connection.afterNotify frame sent).2.session.outbox.frames := by
  obtain ⟨route, payload, routes, hoffered, hframe⟩ := id hkeeps
  obtain ⟨result, outbox⟩ := sent
  cases result with
  | waiting =>
      change SendTurn _ _ _ _ outbox.frames
      rw [show outbox.frames = connection.session.outbox.frames from hadds]
      exact .unsent rfl hkeeps
  | failed reason =>
      change SendTurn _ _ _ _ outbox.frames
      rw [show outbox.frames = connection.session.outbox.frames from hadds]
      exact .unsent rfl trivial
  | done =>
      change SendTurn _ _ _ _ outbox.frames
      rw [show outbox.frames = connection.session.outbox.frames ++ [frame] from hadds]
      exact .sent hoffered rfl hframe (.notified rfl rfl)

theorem sendTurn_beginRequest (hfails : connection.session.FailsClosed) (now : Nat)
    {action : CallAction} {route : String} {payload : Bytes} {use : AnswerUse}
    (haction : action.request? = some (route, payload, use)) :
    SendTurn index (connection.offer? index action) connection.session.outbox.frames
      (connection.beginRequest now index route payload use).1
      (connection.beginRequest now index route payload use).2.session.outbox.frames := by
  unfold beginRequest
  split
  · refine .unsent ?_ ?_
    · dsimp only
      split <;> rfl
    · dsimp only
      split <;> trivial
  · rename_i id ticket pending hregister
    have hmessage : action.message? connection.session.pending =
        some { kind := .request, id, route, payload } := by
      cases action <;> simp_all [CallAction.message?, CallAction.request?]
    have hafter : (connection.setPending pending).session.FailsClosed := by
      obtain ⟨-, -, -, -, rfl⟩ := PendingTable.register_eq_some hregister
      exact hfails
    dsimp only
    split
    · exact .unsent rfl trivial
    · rename_i frame hframe
      refine sendTurn_afterRequest hafter now ?_ (Outbox.adds_send _ index frame)
      refine ⟨action, route, payload, connection.session.routes, haction, ?_, hframe⟩
      rw [offer?, hmessage]
      rfl

theorem sendTurn_beginNotify (connection : Connection) (index : SenderId) (route : String)
    (payload : Bytes) :
    SendTurn index (connection.offer? index (.notify route payload))
      connection.session.outbox.frames
      (connection.beginNotify index route payload).1
      (connection.beginNotify index route payload).2.session.outbox.frames := by
  unfold beginNotify
  split
  · exact .unsent rfl trivial
  · rename_i frame hframe
    refine sendTurn_afterNotify ?_ (Outbox.adds_send _ index frame)
    exact ⟨route, payload, connection.session.routes, rfl, hframe⟩

theorem sendTurn_pollJoin (connection : Connection) (index : SenderId) (offered? : Option Sending)
    (frames : List Frame) (parts : List SessionPart) :
    SendTurn index offered? frames (connection.pollJoin parts).1 frames := by
  induction parts with
  | nil => exact .unsent rfl trivial
  | cons part rest ih =>
      unfold pollJoin
      split
      · exact ih
      · exact .unsent rfl trivial

theorem sendTurn_beginJoin (connection : Connection) (index : SenderId) (offered? : Option Sending)
    (frames : List Frame) : SendTurn index offered? frames connection.beginJoin.1 frames :=
  sendTurn_pollJoin _ _ _ _ _

theorem sendTurn_pollEnd (connection : Connection) (index : SenderId) (offered? : Option Sending)
    (frames : List Frame) : SendTurn index offered? frames connection.pollEnd.1 frames := by
  unfold pollEnd
  dsimp only
  split <;> exact .unsent rfl trivial

theorem sendTurn_pollCall (hfails : connection.session.FailsClosed) (now : Nat) {state : CallState}
    (hunsent : state.maybeUnsent = true)
    (hoffered : ∀ action, state = .starting action → offered? = connection.offer? index action)
    (hkeeps : state.Keeps index offered?) :
    SendTurn index offered? connection.session.outbox.frames
      (connection.pollCall now index state).1
      (connection.pollCall now index state).2.session.outbox.frames := by
  cases state with
  | starting action =>
      rw [hoffered action rfl]
      cases action with
      | sendRequest route payload => exact sendTurn_beginRequest hfails now rfl
      | request route payload timeout => exact sendTurn_beginRequest hfails now rfl
      | requestJson route value => exact sendTurn_beginRequest hfails now rfl
      | notify route payload => exact sendTurn_beginNotify connection index route payload
      | close =>
          change SendTurn _ _ _ (connection.beginClose index).1
            (connection.beginClose index).2.session.outbox.frames
          rw [session_beginClose, Session.frames_terminate]
          unfold beginClose
          dsimp only
          split
          · exact sendTurn_beginJoin _ _ _ _
          · exact .unsent rfl trivial
      | awaitEnd => exact sendTurn_pollEnd _ _ _ _
  | sendingRequest frame answer use =>
      exact sendTurn_afterRequest hfails now hkeeps (Outbox.adds_resume _ index frame)
  | sendingNotify frame =>
      exact sendTurn_afterNotify hkeeps (Outbox.adds_resume _ index frame)
  | awaitingAnswer answer deadline asJson => cases hunsent
  | locking =>
      unfold pollCall
      dsimp only
      split
      · rw [session_beginJoin]
        exact sendTurn_beginJoin _ _ _ _
      · exact .unsent rfl trivial
  | joining parts =>
      change SendTurn _ _ _ (connection.pollJoin parts).1
        (connection.pollJoin parts).2.session.outbox.frames
      rw [session_pollJoin]
      exact sendTurn_pollJoin _ _ _ _ _
  | awaitingEnd => exact sendTurn_pollEnd _ _ _ _
  | connecting => exact .unsent rfl trivial
  | searching => exact .unsent rfl trivial
  | ended result => exact .unsent hunsent trivial

end

theorem tryNotify_cases (connection : Connection) (route : String) (payload : Bytes) :
    (∃ reason, (connection.tryNotify route payload).1 = .error reason ∧
      (connection.tryNotify route payload).2.session.outbox.frames =
        connection.session.outbox.frames) ∨
    ∃ frame, connection.notifyFrame route payload = .ok frame ∧
      (connection.tryNotify route payload).1 = .ok () ∧
        (connection.tryNotify route payload).2.session.outbox.frames =
          connection.session.outbox.frames ++ [frame] := by
  unfold tryNotify
  cases connection.notifyFrame route payload with
  | error reason => exact .inl ⟨reason, rfl, rfl⟩
  | ok frame =>
      have hframes := connection.session.outbox.frames_trySend frame
      dsimp only
      generalize connection.session.outbox.trySend frame = sent at hframes
      obtain ⟨result, outbox⟩ := sent
      cases result with
      | error reason => exact .inl ⟨reason, rfl, hframes⟩
      | ok => exact .inr ⟨frame, rfl, rfl, hframes⟩

@[simp] theorem writer_unlock (connection : Connection) :
    connection.unlock.writer = connection.writer := by
  unfold unlock
  split <;> rfl

@[simp] theorem writer_pollJoin (connection : Connection) (parts : List SessionPart) :
    (connection.pollJoin parts).2.writer = connection.writer := by
  induction parts with
  | nil => exact connection.writer_unlock
  | cons part rest ih =>
      unfold pollJoin
      split
      · exact ih
      · rfl

@[simp] theorem writer_pollAnswer (connection : Connection) (now : Nat) (answer : PendingAnswer)
    (deadline : Option Nat) (asJson : Bool) :
    (connection.pollAnswer now answer deadline asJson).2.writer = connection.writer := by
  unfold pollAnswer
  split
  · rfl
  · split <;> rfl

theorem writer_afterRequest (connection : Connection) (now : Nat) (frame : Frame)
    (answer : PendingAnswer) (use : AnswerUse) (sent : Outbox.Sent × Outbox) :
    (connection.afterRequest now frame answer use sent).2.writer = connection.writer := by
  obtain ⟨result, outbox⟩ := sent
  cases result with
  | waiting => rfl
  | failed reason => rfl
  | done =>
      cases use with
      | keep => rfl
      | await timeout asJson => exact writer_pollAnswer _ _ _ _ _

theorem writer_afterNotify (connection : Connection) (frame : Frame) (sent : Outbox.Sent × Outbox) :
    (connection.afterNotify frame sent).2.writer = connection.writer := by
  obtain ⟨result, outbox⟩ := sent
  cases result <;> rfl

theorem writer_beginRequest (connection : Connection) (now : Nat) (index : SenderId)
    (route : String) (payload : Bytes) (use : AnswerUse) :
    (connection.beginRequest now index route payload use).2.writer = connection.writer := by
  unfold beginRequest
  split
  · rfl
  · dsimp only
    split
    · rfl
    · exact writer_afterRequest _ _ _ _ _ _

theorem writer_beginNotify (connection : Connection) (index : SenderId) (route : String)
    (payload : Bytes) :
    (connection.beginNotify index route payload).2.writer = connection.writer := by
  unfold beginNotify
  split
  · rfl
  · exact writer_afterNotify _ _ _

theorem writer_pollCall (connection : Connection) (now : Nat) (index : SenderId)
    (state : CallState) :
    (connection.pollCall now index state).2.writer = connection.writer := by
  cases state with
  | starting action =>
      cases action with
      | notify route payload => exact writer_beginNotify _ _ _ _
      | close =>
          change (connection.beginClose index).2.writer = _
          unfold beginClose
          dsimp only
          split
          · exact writer_pollJoin _ _
          · rfl
      | awaitEnd => rfl
      | _ => exact writer_beginRequest _ _ _ _ _ _
  | sendingRequest frame answer use => exact writer_afterRequest _ _ _ _ _ _
  | sendingNotify frame => exact writer_afterNotify _ _ _
  | awaitingAnswer answer deadline asJson => exact writer_pollAnswer _ _ _ _ _
  | locking =>
      unfold pollCall
      dsimp only
      split
      · exact writer_pollJoin _ _
      · rfl
  | joining parts => exact writer_pollJoin _ _
  | _ => rfl

theorem writer_tryNotify (connection : Connection) (route : String) (payload : Bytes) :
    (connection.tryNotify route payload).2.writer = connection.writer := by
  unfold tryNotify
  split <;> rfl

theorem writer_abortCall (connection : Connection) (index : SenderId) (state : CallState) :
    (connection.abortCall index state).writer = connection.writer := by
  cases state with
  | locking =>
      unfold abortCall
      dsimp only
      split
      · exact connection.writer_unlock
      · rfl
  | joining parts => exact connection.writer_unlock
  | _ => rfl

theorem frames_abortCall (connection : Connection) (index : SenderId) (state : CallState) :
    (connection.abortCall index state).session.outbox.frames =
      connection.session.outbox.frames := by
  cases state with
  | sendingRequest frame answer use => exact connection.session.outbox.frames_leave index
  | sendingNotify frame => exact connection.session.outbox.frames_leave index
  | locking =>
      unfold abortCall
      dsimp only
      split
      · rw [session_unlock]
      · rfl
  | joining parts =>
      change connection.unlock.session.outbox.frames = _
      rw [session_unlock]
  | _ => rfl

end Connection

end RoutedSession
