import RoutedSession.Proofs.Session.Lasting
import RoutedSession.Proofs.Session.Tracking

namespace RoutedSession

open PendingTable (HoldsOwn Released)

section

variable {route : String} {payload : Bytes} {limit due now : Nat} {came : List Message}
  {registered : PendingAnswer}

/-- How a request can end whose time is over when the clock shows `due`, if these answers have come
by now. -/
inductive CallResult.EndsTimed (route : String) (payload : Bytes) (due now : Nat)
    (came : List Message) (registered : PendingAnswer) : CallResult → Prop where
  | answered {message : Message} (hcame : message ∈ came) (hid : message.id = registered.id) :
      EndsTimed route payload due now came registered (.answered message)
  | timedOut (hover : due ≤ now) :
      EndsTimed route payload due now came registered (.failed (.requestTimeout registered.id))
  | closed : EndsTimed route payload due now came registered (.failed .closed)
  /-- Its message cannot be written down. -/
  | unsendable {routes : RouteTable} {reason : SessionError}
      (hframe : Session.frame routes { kind := .request, id := registered.id, route, payload } =
        .error reason) : EndsTimed route payload due now came registered (.failed reason)
  | aborted : EndsTimed route payload due now came registered .aborted

/-- How far a request has come that has been registered, if at most `limit` milliseconds are left
from now on. -/
inductive CallState.Timed (route : String) (payload : Bytes) (limit due now : Nat)
    (came : List Message) (registered : PendingAnswer) : CallState → Prop where
  | waiting (frame : Frame) : Timed route payload limit due now came registered
      (.sendingRequest frame registered (.await (some limit) false))
  | awaiting {deadline : Nat} (hearliest : due ≤ deadline) (hlatest : deadline ≤ now + limit) :
      Timed route payload limit due now came registered
        (.awaitingAnswer registered (some deadline) false)
  | ended {result : CallResult}
      (hends : result.EndsTimed route payload due now came registered) :
      Timed route payload limit due now came registered (.ended result)

/-- How far a call has come that is to make a request and has not been registered. -/
inductive CallState.Unregistered (route : String) (payload : Bytes) (limit : Nat) :
    CallState → Prop where
  | starting : Unregistered route payload limit (.starting (.request route payload (some limit)))
  | searching : Unregistered route payload limit .searching
  | closed : Unregistered route payload limit (.ended (.failed .closed))
  | aborted : Unregistered route payload limit (.ended .aborted)

namespace CallState.Timed

variable {state : CallState}

theorem later (htimed : state.Timed route payload limit due now came registered) {more : Nat}
    (hlater : now ≤ more) : state.Timed route payload limit due more came registered := by
  cases htimed with
  | waiting frame => exact .waiting frame
  | awaiting hearliest hlatest => exact .awaiting hearliest (by omega)
  | ended hends =>
      refine .ended ?_
      cases hends with
      | answered hcame hid => exact .answered hcame hid
      | timedOut hover => exact .timedOut (Nat.le_trans hover hlater)
      | closed => exact .closed
      | unsendable hframe => exact .unsendable hframe
      | aborted => exact .aborted

theorem answer?_eq_some (htimed : state.Timed route payload limit due now came registered)
    (hrunning : state.hasEnded = false) : state.answer? = some registered := by
  cases htimed with
  | ended => cases hrunning
  | _ => rfl

theorem handle?_eq_none (htimed : state.Timed route payload limit due now came registered)
    (hended : state.hasEnded = true) : state.handle? = none := by
  cases htimed with
  | ended hends => cases hends <;> rfl
  | _ => cases hended

end CallState.Timed

namespace Connection

variable {connection : Connection} {rest : List PendingAnswer}

theorem timed_pollAnswer (hfails : connection.session.FailsClosed)
    (hown : connection.session.pending.HoldsOwn came registered) {deadline : Nat}
    (hearliest : due ≤ deadline) (hlatest : deadline ≤ now + limit) :
    (connection.pollAnswer now registered (some deadline) false).1.Timed route payload limit due now
      came registered := by
  unfold pollAnswer
  split
  · rename_i outcome pending hpoll
    have houtcome := PendingAnswer.mem_outcomes_of_poll (congrArg Prod.fst hpoll)
    refine .ended ?_
    rcases houtcome with hmem | rfl
    · cases outcome with
      | ok message =>
          obtain ⟨hcame, hid⟩ := hown.outcome message hmem
          exact .answered hcame hid
      | error reason =>
          obtain rfl := hfails _ _ hmem
          exact .closed
    · exact .closed
  · split
    · rename_i hover
      have hpast : deadline ≤ now := by simpa using hover
      exact .ended (.timedOut (Nat.le_trans hearliest hpast))
    · exact .awaiting hearliest hlatest

theorem timed_afterRequest (hfails : connection.session.FailsClosed)
    (hown : connection.session.pending.HoldsOwn came registered) (hdue : due ≤ now + limit)
    (frame : Frame) {sent : Outbox.Sent × Outbox}
    (hclosed : ∀ reason, sent.1 = .failed reason → reason = .closed) :
    (connection.afterRequest now frame registered (.await (some limit) false) sent).1.Timed route
      payload limit due now came registered := by
  obtain ⟨result, outbox⟩ := sent
  cases result with
  | waiting => exact .waiting frame
  | failed reason =>
      obtain rfl := hclosed reason rfl
      exact .ended .closed
  | done =>
      have hset : (connection.setOutbox outbox).session.FailsClosed := hfails
      exact timed_pollAnswer hset hown hdue (Nat.le_refl _)

theorem timed_pollCall {state : CallState} (hfails : connection.session.FailsClosed)
    (hown : connection.session.pending.HoldsOwn came registered) (hdue : due ≤ now + limit)
    (htimed : state.Timed route payload limit due now came registered) {index : SenderId}
    (hready : connection.callReady now index state = true) :
    (connection.pollCall now index state).1.Timed route payload limit due now came registered := by
  cases htimed with
  | waiting frame =>
      exact timed_afterRequest hfails hown hdue frame fun _ => Outbox.closed_of_resume
  | awaiting hearliest hlatest => exact timed_pollAnswer hfails hown hearliest hlatest
  | ended hends => cases hready

theorem timed_beginRequest {index : SenderId} {pending : PendingTable}
    (hregister : connection.session.pending.register =
      some ((registered.id, registered.ticket), pending))
    (hsound : connection.session.pending.Sound) (hfails : connection.session.FailsClosed)
    (hdue : due ≤ now + limit) :
    let begun := connection.beginRequest now index route payload (.await (some limit) false)
    begun.1.Timed route payload limit due now came registered ∧
      begun.2.session.pending.HoldsOwn came registered := by
  have hown := hsound.holdsOwn_register hregister came
  have hset : (connection.setPending pending).session.FailsClosed := by
    obtain ⟨-, -, -, -, rfl⟩ := PendingTable.register_eq_some hregister
    exact hfails
  unfold beginRequest
  simp only [hregister]
  split
  · rename_i reason hframe
    exact ⟨.ended (.unsendable hframe), (PendingTable.lasts_holdsOwn came registered).drop hown _⟩
  · rename_i frame hframe
    refine ⟨timed_afterRequest hset hown hdue frame fun _ => Outbox.closed_of_send, ?_⟩
    refine (PendingTable.lasts_holdsOwn came registered).callChanges
      (changes_afterRequest _ now frame _ _ _ (.sent index frame)) ?_
    exact hown

theorem unregistered_beginRequest {index : SenderId}
    (hnone : ∀ answer pending, connection.session.pending.register ≠
      some ((PendingAnswer.id answer, PendingAnswer.ticket answer), pending)) :
    (connection.beginRequest now index route payload
      (.await (some limit) false)).1.Unregistered route payload limit := by
  unfold beginRequest
  split
  · dsimp only
    split
    · exact .closed
    · exact .searching
  · rename_i id ticket pending hregister
    exact absurd hregister (hnone ⟨id, ticket⟩ pending)

end Connection

end

namespace Conversation

theorem now_pollCall (conversation : Conversation) (index : SenderId) :
    (conversation.pollCall index).now = conversation.now := by
  unfold pollCall
  split
  · unfold settleCall
    dsimp only
    split <;> rfl
  · rfl
  · unfold pollAttempt
    split
    · rfl
    · rfl
    · unfold connect
      split <;> rfl
  · rfl

theorem now_poll (conversation : Conversation) (task : Task) :
    (conversation.poll task).now = conversation.now := by
  unfold poll
  split
  · exact now_pollCall _ _
  · rfl
  · rfl
  · rfl
  · rfl

theorem now_performOn (conversation : Conversation) (connection : Connection)
    (command : SessionCommand) :
    (conversation.performOn connection command).2.now = conversation.now := by
  cases command with
  | drop =>
      simp only [performOn, dropSession]
      split <;> rfl
  | _ => rfl

theorem now_le_perform (conversation : Conversation) (command : Command) :
    conversation.now ≤ (conversation.perform command).2.now := by
  cases command with
  | advance milliseconds => exact Nat.le_add_right _ _
  | onSession command =>
      simp only [perform]
      split
      · exact Nat.le_refl _
      · exact Nat.le_of_eq (now_performOn _ _ _).symm
  | peerSends bytes isLast =>
      simp only [perform, peerSends]
      split <;> exact Nat.le_refl _
  | pollKept slot =>
      simp only [perform, pollKept]
      split
      · split <;> exact Nat.le_refl _
      · exact Nat.le_refl _
  | dropKept slot =>
      simp only [perform, dropKept]
      split <;> exact Nat.le_refl _
  | abort slot =>
      simp only [perform, abort]
      split
      · exact Nat.le_refl _
      · split <;> exact Nat.le_refl _
  | receive limit =>
      simp only [perform, receive]
      split
      · exact Nat.le_refl _
      · split <;> exact Nat.le_refl _
  | dropEvents =>
      simp only [perform, dropEvents]
      split
      · exact Nat.le_refl _
      · split <;> exact Nat.le_refl _
  | _ => exact Nat.le_refl _

theorem now_le_move (conversation : Conversation) (move : Move) :
    conversation.now ≤ (conversation.move move).now := by
  cases move with
  | command command => exact conversation.now_le_perform command
  | task task =>
      unfold Conversation.move
      dsimp only
      split
      · exact Nat.le_of_eq (conversation.now_poll task).symm
      · exact Nat.le_refl _
  | peerWrites =>
      unfold Conversation.move peerWrites
      dsimp only
      split <;> exact Nat.le_refl _
  | peerReads limit =>
      unfold Conversation.move peerReads
      dsimp only
      split <;> exact Nat.le_refl _

theorem now_le_follow (conversation : Conversation) (moves : List Move) :
    conversation.now ≤ (conversation.follow moves).now := by
  induction moves generalizing conversation with
  | nil => exact Nat.le_refl _
  | cons move moves ih => exact Nat.le_trans (conversation.now_le_move move) (ih _)

/-- How a request stands that has been registered, and what the table holds of it. -/
structure Held (route : String) (payload : Bytes) (limit due now : Nat) (came : List Message)
    (answer : PendingAnswer) (table : PendingTable) (state : CallState) : Prop where
  timed : state.Timed route payload limit due now came answer
  own : table.HoldsOwn came answer
  released : state.hasEnded = true → table.Released answer

section

variable {settings : Settings} {capacity : Nat} {fault : Fault} {moves : List Move}
  {connection next : Connection} {index : SenderId} {call after : Call} {route : String}
  {payload : Bytes} {limit due : Nat} {came : List Message} {answer : PendingAnswer}

theorem Held.move {move : Move}
    (hstage : ((start settings capacity fault).follow moves).stage = .connected connection)
    (hcall : ((start settings capacity fault).follow moves).calls[index]? = some call)
    (hnext : (((start settings capacity fault).follow moves).move move).stage = .connected next)
    (hafter : (((start settings capacity fault).follow moves).move move).calls[index]? = some after)
    (hmoved : CallMoved ((start settings capacity fault).follow moves) connection index call move
      after)
    (hcame : (((start settings capacity fault).follow moves).dispatchedBy
      move).filterMap (·.packet.answer?) ⊆ came)
    (hdue : due ≤ ((start settings capacity fault).follow moves).now + limit)
    (hheld : Held route payload limit due ((start settings capacity fault).follow moves).now came
      answer connection.session.pending call.state) :
    Held route payload limit due (((start settings capacity fault).follow moves).move move).now came
      answer next.session.pending after.state := by
  have htracks := (tracks_start settings capacity fault).follow moves
  have hown : next.session.pending.HoldsOwn came answer :=
    (PendingTable.lasts_holdsOwn came answer).move hstage hnext
      (fun message hmem _ hholds => hholds.resolve (hcame hmem)) hheld.own
  have htimed : after.state.Timed route payload limit due
      (((start settings capacity fault).follow moves).move move).now came answer := by
    refine CallState.Timed.later ?_ (now_le_move _ move)
    cases hmoved with
    | aside => exact hheld.timed
    | aborted => exact .ended .aborted
    | polled hready =>
        exact Connection.timed_pollCall (htracks.fails connection hstage) hheld.own hdue hheld.timed
          hready
  refine ⟨htimed, hown, fun hended => ?_⟩
  cases hrunning : call.state.hasEnded with
  | true =>
      exact (PendingTable.lasts_released answer).move hstage hnext
        (fun message _ _ hreleased => hreleased.resolve message) (hheld.released hrunning)
  | false =>
      -- A call that ends in this move takes its entry with it.
      have haccounts := (accounts_start settings capacity fault).follow moves
      have hentries := entries_of_ended haccounts hstage hcall
        (hheld.timed.answer?_eq_some hrunning) hnext hafter hended (htimed.handle?_eq_none hended)
      refine ⟨hown.issued, ?_⟩
      rw [hentries]
      simp

theorem held_of_begins
    (hstage : ((start settings capacity fault).follow moves).stage = .connected connection)
    (hcall : ((start settings capacity fault).follow moves).calls[index]? = some call)
    (hstarting : call.state = .starting (.request route payload (some limit)))
    {pending : PendingTable}
    (hregister : connection.session.pending.register = some ((answer.id, answer.ticket), pending))
    (hnext : (((start settings capacity fault).follow moves).move (.task (.call index))).stage =
      .connected next)
    (hafter : (((start settings capacity fault).follow moves).move (.task (.call index))).calls[
      index]? = some after)
    (hmoved : CallMoved ((start settings capacity fault).follow moves) connection index call
      (.task (.call index)) after)
    (hdue : due ≤ ((start settings capacity fault).follow moves).now + limit) :
    Held route payload limit due
      (((start settings capacity fault).follow moves).move (.task (.call index))).now came answer
      next.session.pending after.state := by
  obtain ⟨slot, state, isTold⟩ := call
  obtain rfl : state = _ := hstarting
  have hready : connection.callReady ((start settings capacity fault).follow moves).now index
      (.starting (.request route payload (some limit))) = true := rfl
  have htracks := (tracks_start settings capacity fault).follow moves
  have hserves := ((accounts_start settings capacity fault).follow moves).connected connection
    hstage
  have hturn := stage_move_call hstage hcall hready
  obtain rfl := Stage.connected.inj (hturn.symm.trans hnext)
  have hbegun := @Connection.timed_beginRequest route payload limit due _ came answer connection
    index pending hregister hserves.sound (htracks.fails connection hstage) hdue
  cases hmoved with
  | aside hidle => cases hready.symm.trans (hidle rfl)
  | polled =>
      have hlater := hbegun.1.later (now_le_move _ (.task (.call index)))
      refine ⟨hlater, hbegun.2, fun hended => ⟨hbegun.2.issued, ?_⟩⟩
      rw [entries_of_refused ((accounts_start settings capacity fault).follow moves) hstage hcall
        rfl hnext hafter hended (hlater.handle?_eq_none hended)]
      intro hmem
      obtain ⟨-, -, hfree, -⟩ := PendingTable.register_eq_some hregister
      exact PendingTable.ticket?_eq_none_iff.mp hfree _ hmem rfl

end

/-- A call is registered in the turn in which it begins to make a request, unless the table is
closed or every id is in use. -/
inductive Registers (origin : Conversation) (index : SenderId) (moves : List Move)
    (answer : PendingAnswer) : Prop where
  | intro {early late : List Move} {slot : String} {action : CallAction} {isTold : Bool}
      {connection : Connection} {pending : PendingTable}
      (hmoves : moves = early ++ .task (.call index) :: late)
      (hcall : (origin.follow early).calls[index]? = some ⟨slot, .starting action, isTold⟩)
      (hrequest : action.request?.isSome = true)
      (hstage : (origin.follow early).stage = .connected connection)
      (hregister : connection.session.pending.register =
        some ((answer.id, answer.ticket), pending)) : Registers origin index moves answer

theorem Registers.later {origin : Conversation} {index : SenderId} {moves : List Move}
    {answer : PendingAnswer} (hregisters : origin.Registers index moves answer)
    (more : List Move) : origin.Registers index (moves ++ more) answer := by
  obtain ⟨rfl, hcall, hrequest, hstage, hregister⟩ := hregisters
  exact .intro (List.append_assoc ..) hcall hrequest hstage hregister

theorem Registers.before_or_now {origin : Conversation} {index : SenderId} {moves : List Move}
    {move : Move} {answer : PendingAnswer}
    (hregisters : origin.Registers index (moves ++ [move]) answer) :
    origin.Registers index moves answer ∨
      move = .task (.call index) ∧ ∃ slot action isTold connection pending,
        (origin.follow moves).calls[index]? = some ⟨slot, .starting action, isTold⟩ ∧
          (origin.follow moves).stage = .connected connection ∧
            connection.session.pending.register =
              some ((answer.id, answer.ticket), pending) := by
  obtain ⟨hmoves, hcall, hrequest, hstage, hregister⟩ := hregisters
  rename_i early late slot action isTold connection pending
  cases late using List.reverseRecOn with
  | nil =>
      obtain ⟨rfl, hmove⟩ := List.append_inj' hmoves rfl
      obtain rfl : move = _ := by simpa using hmove
      exact .inr ⟨rfl, slot, action, isTold, connection, pending, hcall, hstage, hregister⟩
  | append_singleton late last =>
      rw [← List.cons_append, ← List.append_assoc] at hmoves
      obtain ⟨rfl, -⟩ := List.append_inj' hmoves rfl
      exact .inl (.intro rfl hcall hrequest hstage hregister)

/-- How a call stands that was to make a request with a time limit when the moves began. -/
structure Stands (origin : Conversation) (index : SenderId) (route : String) (payload : Bytes)
    (limit : Nat) (came : List Message) (moves : List Move) (table : PendingTable)
    (state : CallState) : Prop where
  registered : ∀ answer, origin.Registers index moves answer →
    Held route payload limit (origin.now + limit) (origin.follow moves).now came answer table state
  unregistered : (∀ answer, ¬ origin.Registers index moves answer) →
    state.Unregistered route payload limit

theorem Stands.action_eq {origin : Conversation} {index : SenderId} {route : String}
    {payload : Bytes} {limit : Nat} {came : List Message} {moves : List Move}
    {table : PendingTable} {action : CallAction}
    (hstands : origin.Stands index route payload limit came moves table (.starting action)) :
    action = .request route payload (some limit) := by
  by_cases hsome : ∃ answer, origin.Registers index moves answer
  · obtain ⟨answer, hregisters⟩ := hsome
    cases (hstands.registered answer hregisters).timed
  · cases hstands.unregistered (not_exists.mp hsome)
    rfl

section

variable {settings : Settings} {capacity : Nat} {fault : Fault} {front : List Move}
  {connection : Connection} {index : SenderId} {slot : String} {route : String} {payload : Bytes}
  {limit : Nat} {isTold : Bool} {came : List Message}

/-- Whatever happens, a call that was to make a request stands in one of these ways. -/
theorem exists_stands {back : List Move}
    (hstage : ((start settings capacity fault).follow front).stage = .connected connection)
    (hcall : ((start settings capacity fault).follow front).calls[index]? =
      some ⟨slot, .starting (.request route payload (some limit)), isTold⟩)
    (hcame : ((start settings capacity fault).follow front).answered back ⊆ came) :
    ∃ last state, ((start settings capacity fault).follow (front ++ back)).stage =
        .connected last ∧
      ((start settings capacity fault).follow (front ++ back)).calls[index]? =
        some ⟨slot, state, isTold⟩ ∧
      Stands ((start settings capacity fault).follow front) index route payload limit came back
        last.session.pending state := by
  induction back using List.reverseRecOn with
  | nil =>
      rw [List.append_nil]
      refine ⟨connection, _, hstage, hcall, fun answer hregisters => ?_, fun _ => .starting⟩
      obtain ⟨hmoves, -⟩ := hregisters
      simp at hmoves
  | append_singleton back move ih =>
      rw [answered_append_singleton, ← follow_append, List.append_subset] at hcame
      obtain ⟨earlier, state, hearlier, hfound, hstands⟩ := ih hcame.1
      obtain ⟨next, -, hnext, -⟩ := exists_goes_move hearlier move
      obtain ⟨after, hafter, hmoved⟩ := exists_callMoved hearlier hfound move
      have hdue : ((start settings capacity fault).follow front).now + limit ≤
          ((start settings capacity fault).follow (front ++ back)).now + limit := by
        rw [follow_append]
        exact Nat.add_le_add_right (now_le_follow _ _) limit
      have hsame : after = ⟨slot, after.state, isTold⟩ := by cases hmoved <;> rfl
      rw [← List.append_assoc, follow_append_singleton]
      refine ⟨next, after.state, hnext, hsame ▸ hafter, fun answer hregisters => ?_,
        fun hnone => ?_⟩
      · -- The call was registered before the move, or is by it.
        rw [follow_append_singleton, ← follow_append]
        rcases hregisters.before_or_now with hbefore | ⟨rfl, hnow⟩
        · have hheld := hstands.registered answer hbefore
          rw [← follow_append] at hheld
          exact hheld.move hearlier hfound hnext hafter hmoved hcame.2 hdue
        · obtain ⟨_, action, _, meets, pending, hstarts, hmeets, hregister⟩ := hnow
          rw [← follow_append] at hstarts hmeets
          obtain rfl := Stage.connected.inj (hmeets.symm.trans hearlier)
          obtain ⟨⟩ := hstarts.symm.trans hfound
          exact held_of_begins hearlier hfound (congrArg _ hstands.action_eq) hregister hnext hafter
            hmoved hdue
      · have hbefore := hstands.unregistered fun answer hregisters =>
          hnone answer (hregisters.later [move])
        cases hmoved with
        | aside => exact hbefore
        | aborted => exact .aborted
        | polled hready =>
            cases hbefore with
            | starting =>
                refine Connection.unregistered_beginRequest fun answer pending hregister => ?_
                rw [follow_append] at hearlier hfound
                exact hnone answer (.intro rfl hfound rfl hearlier hregister)
            | _ => cases hready

theorem exists_awaiting_or_ended {conversation : Conversation} {answer : PendingAnswer}
    {deadline : Option Nat} {asJson : Bool} {state : CallState}
    (hstage : conversation.stage = .connected connection)
    (hcall : conversation.calls[index]? = some ⟨slot, state, isTold⟩)
    (hstate : state.hasEnded = true ∨ state = .awaitingAnswer answer deadline asJson)
    (moves : List Move) :
    ∃ later, (conversation.follow moves).calls[index]? = some ⟨slot, later, isTold⟩ ∧
      (later.hasEnded = true ∨ later = .awaitingAnswer answer deadline asJson) := by
  induction moves using List.reverseRecOn with
  | nil => exact ⟨state, hcall, hstate⟩
  | append_singleton moves move ih =>
      obtain ⟨state, hfound, hstate⟩ := ih
      obtain ⟨middle, hmiddle⟩ := exists_connected_follow hstage moves
      obtain ⟨after, hafter, hmoved⟩ := exists_callMoved hmiddle hfound move
      rw [follow_append_singleton, hafter]
      rcases hstate with hended | rfl
      · rw [hmoved.eq_of_hasEnded hended]
        exact ⟨state, rfl, .inl hended⟩
      · cases hmoved with
        | aside => exact ⟨_, rfl, .inr rfl⟩
        | aborted => exact ⟨_, rfl, .inl rfl⟩
        | polled hready =>
            refine ⟨_, rfl, ?_⟩
            change (middle.pollAnswer _ answer deadline asJson).1.hasEnded = true ∨
              (middle.pollAnswer _ answer deadline asJson).1 = _
            unfold Connection.pollAnswer
            split
            · exact .inl rfl
            · split
              · exact .inl rfl
              · exact .inr rfl

theorem callReady_of_idle {conversation : Conversation} {call : Call}
    (hidle : conversation.isBusy = false) (hstage : conversation.stage = .connected connection)
    (hcall : conversation.calls[index]? = some call) :
    connection.callReady conversation.now index call.state = false := by
  have hnone := isReady_of_idle hidle hcall
  simpa [isReady, hcall, hstage] using hnone

theorem exists_deadline {journal : Journal} {request : HandshakeRequest} {origin : Conversation}
    {moves : List Move} {table : PendingTable} {state : CallState} {conversation : Conversation}
    (htracks : Tracks request conversation journal) (hnow : origin.follow moves = conversation)
    (hcall : conversation.calls[index]? = some ⟨slot, state, isTold⟩)
    (hstands : origin.Stands index route payload limit came moves table state)
    (hsent : journal.sentBy index ≠ []) :
    ∃ answer deadline, deadline ≤ conversation.now + limit ∧
      (state.hasEnded = true ∨ state = .awaitingAnswer answer (some deadline) false) := by
  subst hnow
  have hbehind : state.maybeUnsent = false ∨ state.hasEnded = true := by
    have hown := (htracks.calls index _ hcall).1
    generalize journal.sentBy index = own at hown hsent
    cases hown with
    | nothing => exact absurd rfl hsent
    | once horigin hbehind => cases hbehind <;> simp [CallState.maybeUnsent, CallState.hasEnded]
  by_cases hsome : ∃ answer, origin.Registers index moves answer
  · obtain ⟨answer, hregisters⟩ := hsome
    cases (hstands.registered answer hregisters).timed with
    | waiting frame => simp [CallState.maybeUnsent, CallState.hasEnded] at hbehind
    | awaiting hearliest hlatest => exact ⟨answer, _, hlatest, .inr rfl⟩
    | ended hends => exact ⟨answer, 0, Nat.zero_le _, .inl rfl⟩
  · cases hstands.unregistered (not_exists.mp hsome) with
    | starting => simp [CallState.maybeUnsent, CallState.hasEnded] at hbehind
    | searching => simp [CallState.maybeUnsent, CallState.hasEnded] at hbehind
    | closed => exact ⟨⟨0, 0⟩, 0, Nat.zero_le _, .inl rfl⟩
    | aborted => exact ⟨⟨0, 0⟩, 0, Nat.zero_le _, .inl rfl⟩

end

/-- How the time of a call is kept that is to make a request after `front`. Then follows `back`. -/
structure KeepsTime (origin : Conversation) (front back : List Move) (index : SenderId)
    (route : String) (payload : Bytes) (limit : Nat) (last : Connection) (state : CallState) :
    Prop where
  /-- Its time begins at the latest when the queue has taken its frame. When it is over and no task
  would do anything, the call has ended. -/
  in_time : ∀ early late, back = early ++ late →
    (Journal.record {} origin (front ++ early)).sentBy index ≠ [] →
      (origin.follow (front ++ early)).now + limit ≤ (origin.follow (front ++ back)).now →
        (origin.follow (front ++ back)).isBusy = false → state.hasEnded = true
  /-- As long as the queue has not taken it, there is no limit. The call has not been given a slot,
  or it has found no id. -/
  unqueued : (Journal.record {} origin (front ++ back)).sentBy index = [] →
    (origin.follow (front ++ back)).isBusy = false → state.hasEnded = false →
      state = .searching ∨
        ∃ frame answer, (origin.follow front).Registers index back answer ∧
          state = .sendingRequest frame answer (.await (some limit) false) ∧
            last.session.reason = none ∧ last.session.outbox.granted.contains index = false
  /-- It ends with an answer only if one with its id has come since, and for its limit only if so
  many milliseconds are over. -/
  ends : ∀ answer result, (origin.follow front).Registers index back answer →
    state = .ended result →
      result.EndsTimed route payload ((origin.follow front).now + limit)
        (origin.follow (front ++ back)).now ((origin.follow front).answered back) answer
  released : ∀ answer, (origin.follow front).Registers index back answer →
    state.hasEnded = true → answer.entry ∉ last.session.pending.entries
  unregistered : ∀ result, (∀ answer, ¬ (origin.follow front).Registers index back answer) →
    state = .ended result → result = .failed .closed ∨ result = .aborted

/-- Whatever happens in whatever order, the time of a request is kept from the moment in which the
queue takes its frame. -/
theorem follow_keepsTime {settings : Settings} {capacity : Nat} {fault : Fault}
    {front back : List Move} {connection : Connection} {index : SenderId} {slot route : String}
    {payload : Bytes} {limit : Nat} {isTold : Bool}
    (hstage : ((start settings capacity fault).follow front).stage = .connected connection)
    (hcall : ((start settings capacity fault).follow front).calls[index]? =
      some ⟨slot, .starting (.request route payload (some limit)), isTold⟩) :
    ∃ last state,
      ((start settings capacity fault).follow (front ++ back)).stage = .connected last ∧
        ((start settings capacity fault).follow (front ++ back)).calls[index]? =
          some ⟨slot, state, isTold⟩ ∧
        KeepsTime (start settings capacity fault) front back index route payload limit last
          state := by
  obtain ⟨last, state, hlast, hfound, hstands⟩ := exists_stands hstage hcall
    (List.Subset.refl (((start settings capacity fault).follow front).answered back))
  refine ⟨last, state, hlast, hfound, ?_⟩
  constructor
  case in_time =>
    rintro early late rfl hsent hover hidle
    obtain ⟨middle, earlier, hmiddle, hearlier, hmeanwhile⟩ := exists_stands hstage hcall
      (List.Subset.refl (((start settings capacity fault).follow front).answered early))
    obtain ⟨answer, deadline, hdeadline, hstate⟩ := exists_deadline
      ((tracks_start settings capacity fault).follow (front ++ early)) (follow_append _ _ _).symm
      hearlier hmeanwhile hsent
    obtain ⟨later, hlater, hends⟩ := exists_awaiting_or_ended hmiddle hearlier hstate late
    rw [← follow_append, List.append_assoc, hfound] at hlater
    obtain ⟨⟩ := hlater
    rcases hends with hended | rfl
    · exact hended
    · have hready := callReady_of_idle hidle hlast hfound
      simp [Connection.callReady, Nat.le_trans hdeadline hover] at hready
  case unqueued =>
    intro hunsent hidle hrunning
    have hready := callReady_of_idle hidle hlast hfound
    by_cases hsome : ∃ answer, ((start settings capacity fault).follow front).Registers index back
        answer
    · obtain ⟨answer, hregisters⟩ := hsome
      cases (hstands.registered answer hregisters).timed with
      | waiting frame =>
          have hcoherent :=
            (coherent_start settings capacity fault).follow (front ++ back) last hlast
          simp only [Connection.callReady, Outbox.canResume, Bool.or_eq_false_iff,
            hcoherent.outbox_stopped, Option.isSome_eq_false_iff, Option.isNone_iff_eq_none]
            at hready
          exact .inr ⟨frame, answer, hregisters, rfl, hready.1.1, hready.2⟩
      | awaiting =>
          have htracks := (tracks_start settings capacity fault).follow (front ++ back)
          have hown := (htracks.calls index _ hfound).1
          rw [hunsent] at hown
          cases hown with
          | nothing hunsent => cases hunsent
      | ended => cases hrunning
    · cases hstands.unregistered (not_exists.mp hsome) with
      | starting => cases hready
      | searching => exact .inl rfl
      | closed => cases hrunning
      | aborted => cases hrunning
  case ends =>
    rintro answer result hregisters rfl
    cases (hstands.registered answer hregisters).timed with
    | ended hends =>
        rw [follow_append]
        exact hends
  case released =>
    intro answer hregisters hended
    exact ((hstands.registered answer hregisters).released hended).gone
  case unregistered =>
    rintro result hnone rfl
    cases hstands.unregistered hnone with
    | closed => exact .inl rfl
    | aborted => exact .inr rfl

/-- The queue has one slot, which is taken, and the peer does not read. -/
def fullQueue : List Move :=
  acceptance ++
    [.task .reader, .command .peerStalls,
      .command (.onSession (.tryNotify "bulk" (List.replicate 300 0))), .task .writer,
      .command (.onSession (.tryNotify "next" []))]

/-- A request is made that may take ten milliseconds. -/
def lateRequest : List Move :=
  fullQueue ++ [.command (.onSession (.call "late" (.request "room.join" [1] (some 10))))]

/-- It waits for a slot, and twenty milliseconds go by. -/
def overdue : List Move :=
  [.task (.call 1), .command (.advance 20)]

theorem calls_lateRequest :
    ((start { queueCapacity := 1 } 256 {}).follow lateRequest).calls[1]? =
      some ⟨"late", .starting (.request "room.join" [1] (some 10)), false⟩ := by
  have hlength : ((start { queueCapacity := 1 } 256 {}).follow fullQueue).calls.length = 1 := by
    decide +kernel
  have hheld : ((start { queueCapacity := 1 } 256 {}).follow fullQueue).session?.isSome = true := by
    decide +kernel
  obtain ⟨connection, hsession⟩ := Option.isSome_iff_exists.mp hheld
  have hstarted := getElem?_calls_started hsession "late" (.request "room.join" [1] (some 10))
  rwa [hlength, ← follow_append_singleton] at hstarted

theorem follow_keepsTime_lateRequest :
    ∃ connection last state,
      ((start { queueCapacity := 1 } 256 {}).follow lateRequest).stage = .connected connection ∧
        ((start { queueCapacity := 1 } 256 {}).follow lateRequest).calls[1]? =
          some ⟨"late", .starting (.request "room.join" [1] (some 10)), false⟩ ∧
        KeepsTime (start { queueCapacity := 1 } 256 {}) lateRequest overdue 1 "room.join" [1] 10
          last state := by
  have hconnected : ((start { queueCapacity := 1 } 256 {}).follow
      lateRequest).connection?.isSome = true := by
    decide +kernel
  obtain ⟨connection, hconnection⟩ := Option.isSome_iff_exists.mp hconnected
  have hstage := connection?_eq_some_iff.mp hconnection
  obtain ⟨last, state, -, -, hkeeps⟩ :=
    @follow_keepsTime _ _ _ lateRequest overdue _ _ _ _ _ _ _ hstage calls_lateRequest
  exact ⟨connection, last, state, hstage, calls_lateRequest, hkeeps⟩

/-- Its time is over and no task would do anything, but the call goes on and its id is pending. -/
theorem unfinished_lateRequest :
    ((start { queueCapacity := 1 } 256 {}).follow lateRequest).calls[1]? =
        some ⟨"late", .starting (.request "room.join" [1] (some 10)), false⟩ ∧
      ((start { queueCapacity := 1 } 256 {}).follow lateRequest).now + 10 ≤
        ((start { queueCapacity := 1 } 256 {}).follow (lateRequest ++ overdue)).now ∧
      ((start { queueCapacity := 1 } 256 {}).follow (lateRequest ++ overdue)).isBusy = false ∧
      ((start { queueCapacity := 1 } 256 {}).follow (lateRequest ++ overdue)).calls[1]?.map
          (·.state.hasEnded) = some false ∧
      ((start { queueCapacity := 1 } 256 {}).follow (lateRequest ++ overdue)).connection?.map
          (·.session.pending.entries) = some [(1, 0)] :=
  ⟨calls_lateRequest, by decide +kernel, by decide +kernel, by decide +kernel, by decide +kernel⟩

end Conversation

end RoutedSession
