import RoutedSession.Proofs.Session.Events
import RoutedSession.Session.Run

/-!
The courses that a conversation can take, as lists of moves, and all that one move can do to a
conversation, before there is a session and with one.
-/

namespace RoutedSession

def SessionCommand.routeCall? : SessionCommand → Option RouteCall
  | register route code => some (.register route code)
  | extend pairs => some (.extend pairs)
  | clear => some .clear
  | _ => none

namespace Conversation

/-- What can happen next: something from outside, a turn of a task, or a move of the peer. -/
inductive Move where
  | command (command : Command)
  | task (task : Task)
  | peerWrites
  | peerReads (limit : Nat)

/-- Makes a move. A task that would do nothing has no turn. -/
def move (conversation : Conversation) : Move → Conversation
  | .command command => (conversation.perform command).2
  | .task task => if conversation.isReady task then conversation.poll task else conversation
  | .peerWrites => conversation.peerWrites
  | .peerReads limit => conversation.peerReads limit

/-- Makes moves in turn. -/
def follow (conversation : Conversation) (moves : List Move) : Conversation :=
  moves.foldl move conversation

@[simp] theorem follow_nil (conversation : Conversation) : conversation.follow [] = conversation :=
  rfl

@[simp] theorem follow_cons (conversation : Conversation) (move : Move) (moves : List Move) :
    conversation.follow (move :: moves) = (conversation.move move).follow moves :=
  rfl

theorem follow_append (conversation : Conversation) (front back : List Move) :
    conversation.follow (front ++ back) = (conversation.follow front).follow back :=
  List.foldl_append

theorem follow_append_singleton (conversation : Conversation) (moves : List Move) (move : Move) :
    conversation.follow (moves ++ [move]) = (conversation.follow moves).move move :=
  conversation.follow_append moves [move]

theorem reaches_move (conversation : Conversation) (move : Move) :
    Reaches conversation (conversation.move move) := by
  cases move with
  | command command => exact .single (.command conversation command)
  | task task =>
      simp only [Conversation.move]
      split
      · rename_i hready
        exact .single (.task conversation task hready)
      · exact .refl
  | peerWrites => exact .single (.peerWrites conversation)
  | peerReads limit => exact .single (.peerReads conversation limit)

/-- What can be reached is what moves lead to. -/
theorem reaches_iff_exists_follow {first last : Conversation} :
    Reaches first last ↔ ∃ moves, first.follow moves = last := by
  constructor
  · intro hreached
    induction hreached with
    | refl => exact ⟨[], rfl⟩
    | step _ hnext ih =>
        obtain ⟨moves, rfl⟩ := ih
        cases hnext with
        | command command =>
            exact ⟨moves ++ [.command command], follow_append _ _ _⟩
        | task task hready =>
            refine ⟨moves ++ [.task task], ?_⟩
            rw [follow_append_singleton, move, if_pos hready]
        | peerWrites => exact ⟨moves ++ [.peerWrites], follow_append _ _ _⟩
        | peerReads limit => exact ⟨moves ++ [.peerReads limit], follow_append _ _ _⟩
  · rintro ⟨moves, rfl⟩
    induction moves generalizing first with
    | nil => exact .refl
    | cons move moves ih => exact (reaches_move first move).trans ih

/-- All bytes that the client has put into the stream: those that the peer has read, and those that
are on their way to it. -/
def carried (conversation : Conversation) : Bytes :=
  conversation.peer.received.reverse.flatten ++ conversation.link.toPeer.held.bytes

theorem connection?_eq_some_iff {conversation : Conversation} {connection : Connection} :
    conversation.connection? = some connection ↔ conversation.stage = .connected connection := by
  unfold connection?
  cases conversation.stage <;> simp

/-- What a move makes of a conversation without a session. -/
inductive Opening (before : Conversation) : Move → Conversation → Prop where
  | aside {move : Move} {after : Conversation} (hstage : after.stage = before.stage)
      (hcalls : after.calls = before.calls) (hcarried : after.carried = before.carried)
      (hkept : after.kept = before.kept) : Opening before move after
  | aborted {slot : String} {index : SenderId} {after : Conversation}
      (hstage : after.stage = .failed before.lifecycle before.routes)
      (hcalls : after.calls = (before.setCall index (.ended .aborted)).calls)
      (hcarried : after.carried = before.carried) (hkept : after.kept = before.kept) {call : Call}
      (hcall : before.calls[index]? = some call) (hrunning : call.state.hasEnded = false) :
      Opening before (.command (.abort slot)) after
  | begun {index : SenderId} {settings : Settings} (hstage : before.stage = .unconnected settings)
      {call : Call} (hcall : before.calls[index]? = some call)
      (hconnecting : call.state = .connecting) :
      Opening before (.task (.call index)) (before.beginAttempt settings)
  | polled {index : SenderId} {settings : Settings} {attempt : Attempt}
      (hstage : before.stage = .connecting settings attempt) {call : Call}
      (hcall : before.calls[index]? = some call) (hconnecting : call.state = .connecting) :
      Opening before (.task (.call index)) (before.pollAttempt settings attempt index)

theorem connection?_eq_none {conversation : Conversation}
    (hstage : ∀ connection, conversation.stage ≠ .connected connection) :
    conversation.connection? = none := by
  unfold connection?
  split
  · rename_i connection hconnected
    exact absurd hconnected (hstage connection)
  · rfl

theorem carried_peerWrites (conversation : Conversation) :
    conversation.peerWrites.carried = conversation.carried := by
  unfold peerWrites
  dsimp only
  split <;> rfl

theorem carried_peerReads (conversation : Conversation) (limit : Nat) :
    (conversation.peerReads limit).carried = conversation.carried := by
  have hsplit := List.take_append_drop limit conversation.link.toPeer.held.bytes
  unfold peerReads
  dsimp only
  split
  · rfl
  · unfold carried Pipe.take
    dsimp only
    rw [Pieces.bytes_drop]
    split
    · rename_i hnone
      rw [List.isEmpty_iff] at hnone
      rw [hnone, List.nil_append] at hsplit
      rw [hsplit]
    · rw [List.reverse_cons, List.flatten_append, List.flatten_singleton, List.append_assoc, hsplit]

theorem opening_task {before : Conversation}
    (hstage : ∀ connection, before.stage ≠ .connected connection) (task : Task) :
    Opening before (.task task) (before.move (.task task)) := by
  have hnone := connection?_eq_none hstage
  unfold move
  dsimp only
  split
  · rename_i hready
    unfold isReady at hready
    unfold poll
    cases task with
    | call index =>
        dsimp only at hready ⊢
        unfold pollCall
        split at hready
        · rename_i connection hcall hconnected
          exact absurd hconnected (hstage connection)
        · rename_i slot isTold settings hcall hunconnected
          exact .begun hunconnected hcall rfl
        · rename_i slot isTold settings attempt hcall hconnecting
          exact .polled hconnecting hcall rfl
        · simp at hready
    | writer => simp [hnone] at hready
    | reader => simp [hnone] at hready
    | callback => simp [hnone] at hready
  · exact .aside rfl rfl rfl rfl

theorem opening_abort {before : Conversation}
    (hstage : ∀ connection, before.stage ≠ .connected connection) (slot : String) :
    Opening before (.command (.abort slot)) (before.abort slot).2 := by
  unfold abort
  split
  · exact .aside rfl rfl rfl rfl
  · rename_i index hfound
    obtain ⟨hindex, hmatches, -⟩ := List.findIdx?_eq_some_iff_getElem.mp hfound
    have hcall : before.calls[index]? = some before.calls[index] := List.getElem?_eq_getElem hindex
    simp only [Bool.and_eq_true, Bool.not_eq_true'] at hmatches
    have habort {after : Conversation}
        (hafter : after.stage = .failed before.lifecycle before.routes)
        (hcalls : after.calls = (before.setCall index (.ended .aborted)).calls)
        (hcarried : after.carried = before.carried) (hkept : after.kept = before.kept) :
        Opening before (.command (.abort slot)) after :=
      .aborted hafter hcalls hcarried hkept hcall hmatches.2
    rw [hcall]
    cases hbefore : before.stage with
    | unconnected settings => exact habort (by simp [routes, hbefore]) rfl rfl rfl
    | connecting settings attempt => exact habort (by simp [routes, hbefore]) rfl rfl rfl
    | failed lifecycle routes =>
        refine habort ?_ rfl rfl rfl
        simp [setCall, Conversation.lifecycle, Conversation.routes, hbefore]
    | connected connection => exact absurd hbefore (hstage connection)

theorem opening_command {before : Conversation}
    (hstage : ∀ connection, before.stage ≠ .connected connection) (command : Command) :
    Opening before (.command command) (before.perform command).2 := by
  have hnone := connection?_eq_none hstage
  unfold perform
  cases command with
  | peerSends bytes isLast =>
      simp only [peerSends]
      split <;> exact .aside rfl rfl rfl rfl
  | peerEnds => exact .aside rfl rfl rfl rfl
  | peerRegisters route code => exact .aside rfl rfl rfl rfl
  | peerStalls => exact .aside rfl rfl rfl rfl
  | peerResumes => exact .aside rfl rfl rfl rfl
  | setFault fault => exact .aside rfl rfl rfl rfl
  | advance milliseconds => exact .aside rfl rfl rfl rfl
  | pollKept slot =>
      simp only [pollKept, hnone]
      cases before.kept.lookup slot <;> exact .aside rfl rfl rfl rfl
  | dropKept slot =>
      simp only [dropKept, hnone]
      cases before.kept.lookup slot <;> exact .aside rfl rfl rfl rfl
  | abort slot => exact opening_abort hstage slot
  | receive limit =>
      simp only [receive, hnone]
      exact .aside rfl rfl rfl rfl
  | dropEvents =>
      simp only [dropEvents, hnone]
      exact .aside rfl rfl rfl rfl
  | takePushed => exact .aside rfl rfl rfl rfl
  | onSession command =>
      simp only [session?, hnone, Option.filter_none]
      exact .aside rfl rfl rfl rfl

/-- A move before there is a session does one of the things listed. -/
theorem opening {before : Conversation}
    (hstage : ∀ connection, before.stage ≠ .connected connection) (move : Move) :
    Opening before move (before.move move) := by
  cases move with
  | command command => exact opening_command hstage command
  | task task => exact opening_task hstage task
  | peerWrites =>
      refine .aside ?_ ?_ before.carried_peerWrites ?_ <;>
        (unfold Conversation.move peerWrites; dsimp only; split <;> rfl)
  | peerReads limit =>
      refine .aside ?_ ?_ (before.carried_peerReads limit) ?_ <;>
        (unfold Conversation.move peerReads; dsimp only; split <;> rfl)

/-- A move of a kind that neither sends anything nor ends a session, or one that does nothing as
things stand. -/
inductive Quiet (before : Conversation) (connection : Connection) : Move → Prop where
  | idle {task : Task} (hidle : before.isReady task = false) : Quiet before connection (.task task)
  | callback : Quiet before connection (.task .callback)
  | command {command : Command} (hother : command ≠ .onSession .drop) :
      Quiet before connection (.command command)
  | refused (hneeded : connection.isHeld = true →
        before.calls.any (!·.state.hasEnded) = true) :
      Quiet before connection (.command (.onSession .drop))
  | peerWrites : Quiet before connection .peerWrites
  | peerReads (limit : Nat) : Quiet before connection (.peerReads limit)

/-- What a move makes of a conversation with a session. -/
inductive Moved (before : Conversation) (connection : Connection) : Move → Conversation → Prop where
  /-- Nothing happens to the session or to the calls on it. -/
  | aside {move : Move} {after : Conversation} (hquiet : Quiet before connection move)
      (hstage : after.stage = .connected connection) (hcalls : after.calls = before.calls)
      (hcarried : after.carried = before.carried) (hkept : after.kept = before.kept) :
      Moved before connection move after
  | started (slot : String) (action : CallAction) :
      Moved before connection (.command (.onSession (.call slot action)))
        { before with calls := before.calls ++ [{ slot, state := .starting action }] }
  | tried (route : String) (payload : Bytes) :
      Moved before connection (.command (.onSession (.tryNotify route payload)))
        (before.setConnection (connection.tryNotify route payload).2)
  /-- Something happens to the events only, and none is put in. -/
  | told {move : Move} (hquiet : Quiet before connection move) (events : EventChannel)
      (pushed : List Message) (hdrains : connection.session.events.Drains events) :
      Moved before connection move
        ({ before with pushed }.setConnection
          { connection with session := { connection.session with events } })
  | changedRoutes {command : SessionCommand} {call : RouteCall}
      (hcall : command.routeCall? = some call) :
      Moved before connection (.command (.onSession command)) (before.callRoutes connection call)
  | dropped (hheld : connection.isHeld = true)
      (hidle : before.calls.any (!·.state.hasEnded) = false) :
      Moved before connection (.command (.onSession .drop))
        (before.setConnection connection.dropSession)
  | looked {slot : String} {answer : PendingAnswer}
      (hkept : before.kept.lookup slot = some answer)
      (hcame : (answer.poll connection.session.pending).1.isSome = true) :
      Moved before connection (.command (.pollKept slot))
        ((before.unkeep slot).setConnection
          (connection.setPending (answer.poll connection.session.pending).2))
  | gaveUp {slot : String} {answer : PendingAnswer}
      (hkept : before.kept.lookup slot = some answer) :
      Moved before connection (.command (.dropKept slot))
        ((before.unkeep slot).setConnection (connection.dropAnswer answer))
  | aborted {slot : String} {index : SenderId} {call : Call}
      (hcall : before.calls[index]? = some call) (hrunning : call.state.hasEnded = false) :
      Moved before connection (.command (.abort slot))
        ((before.setCall index (.ended .aborted)).setConnection
          (connection.abortCall index call.state))
  | polled {index : SenderId} {call : Call} (hcall : before.calls[index]? = some call)
      (hready : connection.callReady before.now index call.state = true) :
      Moved before connection (.task (.call index))
        ((before.setConnection (connection.pollCall before.now index call.state).2).settleCall index
          call (connection.pollCall before.now index call.state).1)
  | wrote (hready : connection.writerReady before.link = true) :
      Moved before connection (.task .writer)
        ({ before with link := (connection.pollWriter before.link).2 }.setConnection
          (connection.pollWriter before.link).1)
  | read (hready : connection.readerReady before.link = true) :
      Moved before connection (.task .reader)
        ({ before with link := (connection.pollReader before.link).2 }.setConnection
          (connection.pollReader before.link).1)

theorem moved_peerWrites {before : Conversation} {connection : Connection}
    (hstage : before.stage = .connected connection) :
    Moved before connection .peerWrites before.peerWrites := by
  refine .aside .peerWrites ?_ ?_ before.carried_peerWrites ?_
  · unfold peerWrites
    dsimp only
    split <;> exact hstage
  all_goals
    unfold peerWrites
    dsimp only
    split <;> rfl

theorem moved_peerReads {before : Conversation} {connection : Connection}
    (hstage : before.stage = .connected connection) (limit : Nat) :
    Moved before connection (.peerReads limit) (before.peerReads limit) := by
  refine .aside (.peerReads limit) ?_ ?_ (before.carried_peerReads limit) ?_
  · unfold peerReads
    dsimp only
    split <;> exact hstage
  all_goals
    unfold peerReads
    dsimp only
    split <;> rfl

theorem moved_task {before : Conversation} {connection : Connection}
    (hstage : before.stage = .connected connection) (task : Task) :
    Moved before connection (.task task) (before.move (.task task)) := by
  have hconnection := connection?_eq_some_iff.mpr hstage
  unfold move
  dsimp only
  split
  · rename_i hready
    unfold isReady at hready
    unfold poll
    cases task with
    | call index =>
        dsimp only at hready ⊢
        unfold pollCall
        cases hcall : before.calls[index]? with
        | none => simp [hcall] at hready
        | some call =>
            simp only [hcall, hstage] at hready ⊢
            exact .polled hcall hready
    | writer =>
        simp only [hconnection, Option.any_some] at hready ⊢
        exact .wrote hready
    | reader =>
        simp only [hconnection, Option.any_some] at hready ⊢
        exact .read hready
    | callback =>
        simp only [hconnection]
        exact .told .callback _ _ (EventChannel.drains_callBack _)
  · rename_i hidle
    exact .aside (.idle (by simpa using hidle)) hstage rfl rfl rfl

theorem moved_performOn {before : Conversation} {connection : Connection}
    (hstage : before.stage = .connected connection) (hheld : connection.isHeld = true)
    (command : SessionCommand) :
    Moved before connection (.command (.onSession command))
      (before.performOn connection command).2 := by
  cases command with
  | call slot action => exact .started slot action
  | tryNotify route payload => exact .tried route payload
  | takeEvents =>
      exact .told (.command (by simp)) _ before.pushed (EventChannel.drains_giveTo _ _)
  | setCallback =>
      exact .told (.command (by simp)) _ before.pushed (EventChannel.drains_giveTo _ _)
  | inspect => exact .aside (.command (by simp)) hstage rfl rfl rfl
  | lookUpCode route => exact .aside (.command (by simp)) hstage rfl rfl rfl
  | lookUpRoute code => exact .aside (.command (by simp)) hstage rfl rfl rfl
  | register route code => exact .changedRoutes rfl
  | extend pairs => exact .changedRoutes rfl
  | clear => exact .changedRoutes rfl
  | drop =>
      simp only [performOn, dropSession]
      split
      · rename_i hrunning
        exact .aside (.refused fun _ => hrunning) hstage rfl rfl rfl
      · rename_i hidle
        exact .dropped hheld (by simpa using hidle)

theorem moved_abort {before : Conversation} {connection : Connection}
    (hstage : before.stage = .connected connection) (slot : String) :
    Moved before connection (.command (.abort slot)) (before.abort slot).2 := by
  unfold abort
  split
  · exact .aside (.command (by simp)) hstage rfl rfl rfl
  · rename_i index hfound
    obtain ⟨hindex, hmatches, -⟩ := List.findIdx?_eq_some_iff_getElem.mp hfound
    have hcall : before.calls[index]? = some before.calls[index] := List.getElem?_eq_getElem hindex
    simp only [Bool.and_eq_true, Bool.not_eq_true'] at hmatches
    simp only [hcall, hstage]
    exact .aborted hcall hmatches.2

theorem moved_command {before : Conversation} {connection : Connection}
    (hstage : before.stage = .connected connection) (command : Command) :
    Moved before connection (.command command) (before.perform command).2 := by
  have hconnection := connection?_eq_some_iff.mpr hstage
  unfold perform
  cases command with
  | peerSends bytes isLast =>
      simp only [peerSends]
      split <;> exact .aside (.command (by simp)) hstage rfl rfl rfl
  | peerEnds => exact .aside (.command (by simp)) hstage rfl rfl rfl
  | peerRegisters route code => exact .aside (.command (by simp)) hstage rfl rfl rfl
  | peerStalls => exact .aside (.command (by simp)) hstage rfl rfl rfl
  | peerResumes => exact .aside (.command (by simp)) hstage rfl rfl rfl
  | setFault fault => exact .aside (.command (by simp)) hstage rfl rfl rfl
  | advance milliseconds => exact .aside (.command (by simp)) hstage rfl rfl rfl
  | pollKept slot =>
      simp only [pollKept, hconnection]
      cases hkept : before.kept.lookup slot with
      | none => exact .aside (.command (by simp)) hstage rfl rfl rfl
      | some answer =>
          dsimp only
          split
          · exact .aside (.command (by simp)) hstage rfl rfl rfl
          · rename_i outcome pending hpoll
            have hpending : pending = (answer.poll connection.session.pending).2 := by rw [hpoll]
            rw [hpending]
            exact .looked hkept (by rw [hpoll]; rfl)
  | dropKept slot =>
      simp only [dropKept, hconnection]
      cases hkept : before.kept.lookup slot with
      | none => exact .aside (.command (by simp)) hstage rfl rfl rfl
      | some answer => exact .gaveUp hkept
  | abort slot => exact moved_abort hstage slot
  | receive limit =>
      simp only [receive, hconnection]
      split
      · exact .told (.command (by simp)) _ before.pushed (EventChannel.drains_take _ _)
      · exact .aside (.command (by simp)) hstage rfl rfl rfl
  | dropEvents =>
      simp only [dropEvents, hconnection]
      split
      · exact .told (.command (by simp)) _ before.pushed (EventChannel.drains_dropReceiver _)
      · exact .aside (.command (by simp)) hstage rfl rfl rfl
  | takePushed => exact .aside (.command (by simp)) hstage rfl rfl rfl
  | onSession command =>
      simp only [session?, hconnection, Option.filter_some]
      cases hheld : connection.isHeld with
      | false =>
          by_cases hdrop : command = .drop
          · subst hdrop
            exact .aside (.refused (by simp [hheld])) hstage rfl rfl rfl
          · exact .aside (.command (by simpa using hdrop)) hstage rfl rfl rfl
      | true => exact moved_performOn hstage hheld command

/-- A move does one of the things listed. -/
theorem moved {before : Conversation} {connection : Connection}
    (hstage : before.stage = .connected connection) (move : Move) :
    Moved before connection move (before.move move) := by
  cases move with
  | command command => exact moved_command hstage command
  | task task => exact moved_task hstage task
  | peerWrites => exact moved_peerWrites hstage
  | peerReads limit => exact moved_peerReads hstage limit

theorem getElem?_setCall (conversation : Conversation) (index other : SenderId)
    (state : CallState) :
    (conversation.setCall index state).calls[other]? =
      if index = other then conversation.calls[other]?.map ({ · with state })
      else conversation.calls[other]? := by
  change (conversation.calls.modify index _)[other]? = _
  rw [List.getElem?_modify]
  split <;> simp_all

theorem getElem?_calls_started {conversation : Conversation} {connection : Connection}
    (hsession : conversation.session? = some connection) (slot : String) (action : CallAction) :
    (conversation.move (.command (.onSession (.call slot action)))).calls[
      conversation.calls.length]? = some ⟨slot, .starting action, false⟩ := by
  simp only [Conversation.move, perform, hsession, performOn]
  rw [List.getElem?_append_right (Nat.le_refl _), Nat.sub_self]
  rfl

theorem calls_opening {before after : Conversation} {move : Move}
    (hopening : Opening before move after) (index : SenderId) :
    after.calls[index]? = before.calls[index]? ∨
      ∃ call result, before.calls[index]? = some call ∧
        after.calls[index]? = some { call with state := .ended result } ∧
          (result = .aborted ∨ (∃ reason, result = .failed reason) ∨
            ∃ response, result = .connected response) := by
  have hset (other : SenderId) {result : CallResult}
      (hresult : result = .aborted ∨ (∃ reason, result = .failed reason) ∨
        ∃ response, result = .connected response)
      (hafter : after.calls = (before.setCall other (.ended result)).calls) :
      after.calls[index]? = before.calls[index]? ∨
        ∃ call result, before.calls[index]? = some call ∧
          after.calls[index]? = some { call with state := .ended result } ∧
            (result = .aborted ∨ (∃ reason, result = .failed reason) ∨
              ∃ response, result = .connected response) := by
    rw [hafter, getElem?_setCall]
    split
    · cases hcall : before.calls[index]? with
      | none => exact .inl rfl
      | some call => exact .inr ⟨call, result, rfl, rfl, hresult⟩
    · exact .inl rfl
  cases hopening with
  | aside hstage hcalls hcarried => exact .inl (by rw [hcalls])
  | @aborted slot other _ hstage hcalls hcarried => exact hset other (.inl rfl) hcalls
  | begun hstage => exact .inl rfl
  | @polled other settings attempt hstage =>
      revert hset
      unfold pollAttempt
      split
      · exact fun _ => .inl rfl
      · exact fun hset => hset other (.inr (.inl ⟨_, rfl⟩)) rfl
      · unfold connect
        split
        · exact fun hset => hset other (.inr (.inr ⟨_, rfl⟩)) rfl
        · exact fun hset => hset other (.inl rfl) rfl

theorem kept_opening {before after : Conversation} {move : Move}
    (hopening : Opening before move after) : after.kept = before.kept := by
  cases hopening with
  | aside hstage hcalls hcarried hkept => exact hkept
  | aborted hstage hcalls hcarried hkept => exact hkept
  | begun hstage => rfl
  | polled hstage =>
      unfold pollAttempt
      split
      · rfl
      · rfl
      · unfold connect
        split <;> rfl

@[simp] theorem calls_settleCall (conversation : Conversation) (index : SenderId) (call : Call)
    (state : CallState) :
    (conversation.settleCall index call state).calls =
      (conversation.setCall index state).calls := by
  unfold settleCall
  dsimp only
  split <;> rfl

@[simp] theorem stage_settleCall (conversation : Conversation) (index : SenderId) (call : Call)
    (state : CallState) :
    (conversation.settleCall index call state).stage = conversation.stage := by
  unfold settleCall
  dsimp only
  split <;> rfl

/-- What a move makes of one call on a session. -/
inductive CallMoved (before : Conversation) (connection : Connection) (index : SenderId)
    (call : Call) : Move → Call → Prop where
  | aside {move : Move} (hidle : move = .task (.call index) →
        connection.callReady before.now index call.state = false) :
      CallMoved before connection index call move call
  | aborted (slot : String) (hrunning : call.state.hasEnded = false) :
      CallMoved before connection index call (.command (.abort slot))
        { call with state := .ended .aborted }
  | polled (hready : connection.callReady before.now index call.state = true) :
      CallMoved before connection index call (.task (.call index))
        { call with state := (connection.pollCall before.now index call.state).1 }

theorem Quiet.callReady_eq_false {before : Conversation} {connection : Connection}
    (hstage : before.stage = .connected connection) {index : SenderId} {call : Call}
    (hcall : before.calls[index]? = some call) {move : Move} (hquiet : Quiet before connection move)
    (hown : move = .task (.call index)) :
    connection.callReady before.now index call.state = false := by
  subst hown
  cases hquiet with
  | idle hidle => simpa [isReady, hcall, hstage] using hidle

theorem exists_callMoved {before : Conversation} {connection : Connection}
    (hstage : before.stage = .connected connection) {index : SenderId} {call : Call}
    (hcall : before.calls[index]? = some call) (move : Move) :
    ∃ after, (before.move move).calls[index]? = some after ∧
      CallMoved before connection index call move after := by
  have hmoved := moved hstage move
  generalize before.move move = after at hmoved
  cases hmoved with
  | aside hquiet hafter hcalls hcarried =>
      exact ⟨call, by rw [hcalls, hcall], .aside (hquiet.callReady_eq_false hstage hcall)⟩
  | told hquiet events pushed =>
      exact ⟨call, hcall, .aside (hquiet.callReady_eq_false hstage hcall)⟩
  | started slot action =>
      refine ⟨call, ?_, .aside nofun⟩
      obtain ⟨hindex, -⟩ := List.getElem?_eq_some_iff.mp hcall
      exact (List.getElem?_append_left hindex).trans hcall
  | @aborted slot other found hfound hrunning =>
      change ∃ after, (before.setCall other (.ended .aborted)).calls[index]? = some after ∧ _
      rw [getElem?_setCall]
      split
      · rename_i hsame
        subst hsame
        obtain rfl := Option.some.inj (hcall.symm.trans hfound)
        exact ⟨_, by rw [hcall]; rfl, .aborted slot hrunning⟩
      · exact ⟨call, hcall, .aside nofun⟩
  | @polled other found hfound hready =>
      rw [calls_settleCall]
      change ∃ after, (before.setCall other _).calls[index]? = some after ∧ _
      rw [getElem?_setCall]
      split
      · rename_i hsame
        subst hsame
        obtain rfl := Option.some.inj (hcall.symm.trans hfound)
        exact ⟨_, by rw [hcall]; rfl, .polled hready⟩
      · rename_i hother
        refine ⟨call, hcall, .aside fun hown => absurd ?_ hother⟩
        injection hown with htask
        injection htask
  | _ => exact ⟨call, hcall, .aside nofun⟩

theorem stage_move_call {conversation : Conversation} {connection : Connection} {index : SenderId}
    {call : Call} (hstage : conversation.stage = .connected connection)
    (hcall : conversation.calls[index]? = some call)
    (hready : connection.callReady conversation.now index call.state = true) :
    (conversation.move (.task (.call index))).stage =
      .connected (connection.pollCall conversation.now index call.state).2 := by
  have hturned : conversation.isReady (.call index) = true := by
    simpa only [isReady, hcall, hstage] using hready
  simp only [Conversation.move, hturned, if_true, poll, pollCall, hcall, hstage, stage_settleCall]
  rfl

theorem call_mem_tasks {conversation : Conversation} {index : SenderId} {call : Call}
    (hcall : conversation.calls[index]? = some call) : .call index ∈ conversation.tasks := by
  obtain ⟨hlength, -⟩ := List.getElem?_eq_some_iff.mp hcall
  exact List.mem_append_left _ (List.mem_map_of_mem (List.mem_range.mpr hlength))

theorem isReady_of_idle {conversation : Conversation} {index : SenderId} {call : Call}
    (hidle : conversation.isBusy = false) (hcall : conversation.calls[index]? = some call) :
    conversation.isReady (.call index) = false :=
  Bool.eq_false_iff.mpr (List.any_eq_false.mp hidle _ (call_mem_tasks hcall))

theorem turn_eq_follow (conversation : Conversation) :
    conversation.turn = conversation.follow (conversation.tasks.map .task) := by
  rw [follow, List.foldl_map]
  rfl

theorem exists_run_eq_follow (conversation : Conversation) :
    ∃ tasks : List Task, conversation.run = conversation.follow (tasks.map .task) ∧
      (conversation.isBusy = true → conversation.tasks ⊆ tasks) := by
  have htakeTurns (turns : Nat) (conversation : Conversation) :
      ∃ tasks : List Task, takeTurns turns conversation = conversation.follow (tasks.map .task) ∧
        (0 < turns → conversation.isBusy = true → conversation.tasks ⊆ tasks) := by
    induction turns generalizing conversation with
    | zero => exact ⟨[], rfl, nofun⟩
    | succ turns ih =>
        unfold takeTurns
        split
        · obtain ⟨tasks, htasks, -⟩ := ih conversation.turn
          refine ⟨conversation.tasks ++ tasks, ?_, fun _ _ => List.subset_append_left _ _⟩
          rw [htasks, turn_eq_follow, List.map_append, follow_append]
        · rename_i hidle
          exact ⟨[], rfl, fun _ hbusy => absurd hbusy hidle⟩
  obtain ⟨tasks, htasks, hall⟩ := htakeTurns
    (8 * conversation.calls.length + 16 + conversation.link.toPeer.room +
      conversation.link.toClient.held.size) conversation
  exact ⟨tasks, htasks, hall (by omega)⟩

end Conversation

end RoutedSession
