import RoutedSession.Proofs.Session.Handover
import RoutedSession.Proofs.Session.Operations
import RoutedSession.Proofs.Session.Tracking

namespace RoutedSession

namespace Session

theorem Change.lifecycle_eq {session after : Session} (hchange : Change session after) :
    after.lifecycle = session.lifecycle := by
  rcases hchange with hchange | hchange | hchange <;> cases hchange <;> rfl

theorem lifecycle_of_changes {session after : Session}
    (hchanges : Relation.ReflTransGen Change session after) :
    after.lifecycle = session.lifecycle := by
  induction hchanges with
  | refl => rfl
  | tail _ hchange ih => exact hchange.lifecycle_eq.trans ih

theorem Goes.lifecycle_cases {session after : Session} {cause? : Option CloseReason}
    (hgoes : Goes Change session cause? after) :
    after.lifecycle = session.lifecycle ∨ after.lifecycle = .closed := by
  cases hgoes with
  | on hchanges => exact .inl (lifecycle_of_changes hchanges)
  | @ends last hchanges reason events =>
      rw [← lifecycle_of_changes hchanges]
      cases hreason : last.reason with
      | some first => exact .inl (by rw [terminate_of_isSome (by rw [hreason]; rfl)])
      | none => exact .inr (by rw [terminate_of_eq_none hreason])

end Session

namespace Conversation

/-- The client has read a complete packet, and of all that the peer was given to send this comes
first: an answer that accepts the offer. -/
def HasAnswer (conversation : Conversation) (served : Bytes) (response : HandshakeResponse) :
    Prop :=
  ∃ (first : Packet) (rest : Bytes), first.bytes ++ rest ++ conversation.unread = served ∧
    first.kind = .handshake ∧ HandshakeResponse.parse first.payload = .ok response ∧
      response.code = HandshakeResponse.accepted

theorem hasAnswer_of_yields {conversation : Conversation} {limit : Nat} {read served : Bytes}
    {first : Packet} {packets : List Packet} {buffer : PacketBuffer} {response : HandshakeResponse}
    (hyields : PacketBuffer.Yields limit read (first :: packets) buffer)
    (hjudged : Attempt.judge first = .ok response) {more : Bytes}
    (hread : read ++ more ++ conversation.unread = served) :
    conversation.HasAnswer served response := by
  obtain ⟨hkind, hparsed⟩ := Attempt.judge_eq_ok_iff.mp hjudged
  obtain ⟨rest, rfl⟩ : ∃ rest, read = first.bytes ++ rest := by
    rw [hyields.divides.all, List.flatMap_cons, List.append_assoc]
    exact ⟨_, rfl⟩
  refine ⟨first, rest ++ more, ?_, hkind, hparsed, HandshakeResponse.code_of_parse hparsed⟩
  rw [← hread, ← List.append_assoc first.bytes]

/-- What a call that has failed has put into the stream: a part of the offer and the confirmation,
and none of the confirmation unless the offer `hadAnswer`. -/
structure LeavesPart (request : HandshakeRequest) (hadAnswer : Prop) (gone : Bytes) : Prop where
  part : Attempt.Part request gone
  unconfirmed : gone <+: (Attempt.offer request).bytes ∨ hadAnswer

/-- How the call that opens the connection stands, as far as the client has come. As long as there
is no session it is the only call. -/
inductive Opens (settings : Settings) (hadAnswer : Prop) (gone : Bytes) :
    Stage → List Call → Prop where
  | unconnected {call : Call} (hstate : call.state = .connecting) :
      Opens settings hadAnswer gone (.unconnected settings) [call]
  | connecting {attempt : Attempt} {call : Call} (hstate : call.state = .connecting)
      (hrequest : attempt.request = settings.request)
      (htimeout : attempt.timeout = settings.handshakeTimeout) :
      Opens settings hadAnswer gone (.connecting settings attempt) [call]
  | refused {call : Call} {reason : SessionError} (hstate : call.state = .ended (.failed reason))
      (hleaves : LeavesPart settings.request hadAnswer gone) :
      Opens settings hadAnswer gone (.failed .closed settings.routes) [call]
  | givenUp {call : Call} {lifecycle : Lifecycle} (routes : RouteTable)
      (hstate : call.state = .ended .aborted)
      (hlifecycle : lifecycle = .disconnected ∨ lifecycle = .handshakeSent) :
      Opens settings hadAnswer gone (.failed lifecycle routes) [call]
  | connected {connection : Connection} {call : Call} (calls : List Call)
      (hstate : call.state = .ended (.connected connection.response))
      (hlifecycle : connection.session.lifecycle = .connected ∨
        connection.session.lifecycle = .closed) :
      Opens settings hadAnswer gone (.connected connection) (call :: calls)

section

variable {settings : Settings} {hadAnswer : Prop} {served gone : Bytes}
  {before after : Conversation}

theorem Opens.mono {stage : Stage} {calls : List Call} {hasAnswer : Prop}
    (hopens : Opens settings hadAnswer gone stage calls) (hstill : hadAnswer → hasAnswer) :
    Opens settings hasAnswer gone stage calls := by
  cases hopens with
  | unconnected hstate => exact .unconnected hstate
  | connecting hstate hrequest htimeout => exact .connecting hstate hrequest htimeout
  | refused hstate hleaves =>
      exact .refused hstate ⟨hleaves.part, hleaves.unconfirmed.imp_right hstill⟩
  | givenUp routes hstate hlifecycle => exact .givenUp routes hstate hlifecycle
  | connected calls hstate hlifecycle => exact .connected calls hstate hlifecycle

theorem Opens.index_eq_zero {stage : Stage} {calls : List Call}
    (hopens : Opens settings hadAnswer gone stage calls)
    (hstage : ∀ connection, stage ≠ .connected connection) {index : SenderId} {call : Call}
    (hcall : calls[index]? = some call) : index = 0 := by
  cases hopens with
  | connected => exact absurd rfl (hstage _)
  | _ =>
      cases index with
      | zero => rfl
      | succ index => cases hcall

theorem Opens.succeeds_iff {stage : Stage} {calls : List Call}
    (hopens : Opens settings hadAnswer gone stage calls) :
    (∃ call response, calls[0]? = some call ∧ call.state = .ended (.connected response)) ↔
      ∃ connection, stage = .connected connection := by
  cases hopens with
  | unconnected hstate => simp [hstate]
  | connecting hstate => simp [hstate]
  | refused hstate => simp [hstate]
  | givenUp _ hstate => simp [hstate]
  | connected calls hstate => exact iff_of_true ⟨_, _, rfl, hstate⟩ ⟨_, rfl⟩

theorem Opens.of_connected {connection : Connection} {calls : List Call}
    (hopens : Opens settings hadAnswer gone (.connected connection) calls) :
    (∃ call, calls[0]? = some call ∧ call.state = .ended (.connected connection.response)) ∧
      (connection.session.lifecycle = .connected ∨ connection.session.lifecycle = .closed) := by
  obtain _ | _ | _ | _ | ⟨calls, hstate, hlifecycle⟩ := hopens
  exact ⟨⟨_, rfl, hstate⟩, hlifecycle⟩

theorem Opens.of_failed {stage : Stage} {calls : List Call}
    (hopens : Opens settings hadAnswer gone stage calls) {call : Call}
    (hcall : calls[0]? = some call) {reason : SessionError}
    (hstate : call.state = .ended (.failed reason)) :
    stage = .failed .closed settings.routes ∧ LeavesPart settings.request hadAnswer gone := by
  cases hopens with
  | refused _ hleaves => exact ⟨rfl, hleaves⟩
  | unconnected hother | connecting hother | givenUp _ hother | connected _ hother =>
      obtain rfl := Option.some.inj hcall
      cases hother.symm.trans hstate

theorem response_move {connection next : Connection} (hstage : before.stage = .connected connection)
    {move : Move} (hnext : (before.move move).stage = .connected next) :
    next.response = connection.response := by
  rcases reader_or_aside before connection move with ⟨rfl, hready⟩ | haside
  · rw [move_reader hstage hready] at hnext
    obtain rfl := Stage.connected.inj hnext
    rfl
  · obtain ⟨found, _, hfound, _, hresponse, -⟩ := exists_next_aside hstage haside
    obtain rfl := Stage.connected.inj (hfound.symm.trans hnext)
    exact hresponse

theorem Opens.moved {connection : Connection}
    (hopens : Opens settings hadAnswer gone before.stage before.calls)
    (hstage : before.stage = .connected connection) (move : Move) (hasAnswer : Prop) (now : Bytes) :
    Opens settings hasAnswer now (before.move move).stage (before.move move).calls := by
  obtain ⟨next, cause?, hnext, hgoes, -⟩ := exists_goes_move hstage move
  rw [hstage] at hopens
  generalize hcalls : before.calls = all at hopens
  obtain _ | _ | _ | _ | ⟨calls, hstate, hlifecycle⟩ := hopens
  rename_i call
  have hcall : before.calls[0]? = some call := by rw [hcalls]; rfl
  obtain ⟨same, hfound, hmoved⟩ := exists_callMoved hstage hcall move
  obtain rfl := hmoved.eq_of_hasEnded (by rw [hstate]; rfl)
  obtain ⟨rest, hrest⟩ : ∃ rest, (before.move move).calls = same :: rest := by
    cases hall : (before.move move).calls with
    | nil => simp [hall] at hfound
    | cons first rest => exact ⟨rest, by simpa [hall] using hfound⟩
  rw [hnext, hrest]
  rw [← response_move hstage hnext] at hstate
  refine .connected rest hstate ?_
  rcases hgoes.lifecycle_cases with hsame | hclosed
  · rwa [hsame]
  · exact .inr hclosed

section

variable {read : Bytes} {dispatches : List Dispatch} {calls : List RouteCall}
  {attempt : Attempt}

theorem leavesPart_of_fails (hdelivers : Delivers settings read served dispatches calls before)
    (hstage : before.stage = .connecting settings attempt)
    (hholds : StageHolds settings.request before.carried [] before.stage) {reason : SessionError}
    (hfails : attempt.FailsInTurn before.now before.link reason)
    (hlink : after.link = (attempt.poll before.now before.link).2.drop)
    (hpeer : after.peer = before.peer) :
    LeavesPart settings.request (∃ response, after.HasAnswer served response) after.carried := by
  have hreads := hdelivers.stage
  rw [hstage] at hreads hholds
  obtain _ | ⟨hlimit, hphase, -⟩ := hreads
  obtain _ | ⟨_, hrequest, hgone, -⟩ := hholds
  have hopen : before.link.isDropped = false := by
    by_contra hdropped
    have hover := hdelivers.gave_up (Bool.of_not_eq_false hdropped)
    rwa [ReadsNoMore, hstage] at hover
  rw [← hlimit] at hphase
  rw [← hrequest] at hgone
  obtain ⟨hpart, hunconfirmed⟩ := hfails.leaves hgone hphase
  have hcarried : after.carried = before.peer.received.reverse.flatten ++
      (attempt.poll before.now before.link).2.outgoing := by
    rw [carried, hlink, hpeer]
    rfl
  rw [← hcarried, hrequest] at hpart hunconfirmed
  refine ⟨hpart, hunconfirmed.imp_right ?_⟩
  rintro ⟨some, more, accepted, htook, first, hjudged, hyields⟩
  have hunread : after.unread =
      (attempt.poll before.now before.link).2.incoming ++ before.peer.outgoing := by
    rw [unread, hlink, hpeer]
    rfl
  have hall : read ++ some ++ more ++ after.unread = served := by
    rw [← hdelivers.unread hopen, hunread, unread, htook.incoming]
    simp only [List.append_assoc]
  exact ⟨accepted.response, hasAnswer_of_yields hyields hjudged hall⟩

theorem Opens.pollAttempt {call : Call} (hcalls : before.calls = [call])
    (hstate : call.state = .connecting) (hrequest : attempt.request = settings.request)
    (htimeout : attempt.timeout = settings.handshakeTimeout)
    (hdelivers : Delivers settings read served dispatches calls before)
    (hstage : before.stage = .connecting settings attempt)
    (hholds : StageHolds settings.request before.carried [] before.stage) :
    let after := before.pollAttempt settings attempt 0
    Opens settings (∃ response, after.HasAnswer served response) after.carried after.stage
      after.calls := by
  have hset (state : CallState) :
      before.calls.modify 0 ({ · with state }) = [{ call with state }] := by
    rw [hcalls]
    rfl
  have hfailed (reason : SessionError) (hfailed : (attempt.poll before.now before.link).1 =
      .failed reason) {after : Conversation}
      (hlink : after.link = (attempt.poll before.now before.link).2.drop)
      (hpeer : after.peer = before.peer) :=
    leavesPart_of_fails hdelivers hstage hholds (Attempt.poll_eq_failed_iff.mp hfailed) hlink hpeer
  unfold Conversation.pollAttempt
  generalize attempt.poll before.now before.link = polled at hfailed
  obtain ⟨phase | accepted | reason, link⟩ := polled
  · dsimp only
    rw [hcalls]
    exact .connecting hstate hrequest htimeout
  · unfold connect
    dsimp only
    split
    · change Opens settings _ _ _ (before.calls.modify 0 _)
      rw [hset]
      exact .connected [] rfl (.inl rfl)
    · change Opens settings _ _ _ (before.calls.modify 0 _)
      rw [hset]
      exact .givenUp _ rfl (.inr rfl)
  · change Opens settings _ _ _ (before.calls.modify 0 _)
    rw [hset]
    exact .refused rfl (hfailed reason rfl rfl rfl)

theorem Opens.opening
    (hopens : Opens settings hadAnswer before.carried before.stage before.calls)
    (hdelivers : Delivers settings read served dispatches calls before)
    (hholds : StageHolds settings.request before.carried [] before.stage)
    (hstage : ∀ connection, before.stage ≠ .connected connection) (move : Move) :
    let after := before.move move
    let hasAnswer := ∃ response, after.HasAnswer (served ++ before.servedBy move) response
    Opens settings (hadAnswer ∨ hasAnswer) after.carried after.stage after.calls := by
  have hopening := Conversation.opening hstage move
  generalize before.move move = after at hopening
  cases hopening with
  | aside hsame hcalls hcarried =>
      dsimp only
      rw [hsame, hcalls, hcarried]
      exact hopens.mono .inl
  | @aborted _ index _ hafter hcalls _ _ call hcall hrunning =>
      obtain rfl := hopens.index_eq_zero hstage hcall
      dsimp only
      rw [hafter, hcalls]
      change Opens settings _ _ _ (before.calls.modify 0 _)
      unfold lifecycle
      generalize before.stage = stage at hopens hstage
      generalize before.calls = calls at hopens hcall
      cases hopens with
      | unconnected => exact .givenUp _ rfl (.inl rfl)
      | connecting => exact .givenUp _ rfl (.inr rfl)
      | refused hstate | givenUp _ hstate =>
          obtain rfl := Option.some.inj hcall
          rw [hstate] at hrunning
          cases hrunning
      | connected => exact absurd rfl (hstage _)
  | begun hunconnected =>
      rw [hunconnected] at hopens
      generalize hcalls : before.calls = calls at hopens
      obtain ⟨hstate⟩ := hopens
      dsimp only [beginAttempt]
      rw [hcalls]
      exact .connecting hstate rfl rfl
  | polled hconnecting hcall =>
      obtain rfl := hopens.index_eq_zero hstage hcall
      rw [hconnecting] at hopens
      generalize hcalls : before.calls = calls at hopens
      obtain _ | ⟨hstate, hrequest, htimeout⟩ := hopens
      have hafter := Opens.pollAttempt hcalls hstate hrequest htimeout hdelivers hconnecting hholds
      have hnone : before.servedBy (.task (.call 0)) = [] := rfl
      rw [hnone, List.append_nil]
      exact hafter.mono .inr

end

end

/-- At some time by then the client has read an answer that accepts the offer. -/
def HadAnswer (origin : Conversation) (moves : List Move) (response : HandshakeResponse) : Prop :=
  ∃ front back, moves = front ++ back ∧
    (origin.follow front).HasAnswer (origin.served front) response

/-- Whatever happens, the call that opens the connection stands as far as the client has come. -/
theorem opens (settings : Settings) (capacity : Nat) (fault : Fault) (moves : List Move) :
    Opens settings (∃ response, (start settings capacity fault).HadAnswer moves response)
      ((start settings capacity fault).follow moves).carried
      ((start settings capacity fault).follow moves).stage
      ((start settings capacity fault).follow moves).calls := by
  -- On the moves. What an exchange has read when it fails is known from those before.
  induction moves using List.reverseRecOn with
  | nil => exact .unconnected rfl
  | append_singleton moves move ih =>
      obtain ⟨read, hdelivers⟩ := exists_delivers settings capacity fault moves
      have htracks := (tracks_start settings capacity fault).follow moves
      by_cases hconnected :
          ∃ connection, ((start settings capacity fault).follow moves).stage = .connected connection
      · obtain ⟨connection, hstage⟩ := hconnected
        rw [follow_append_singleton]
        exact ih.moved hstage move _ _
      · rw [not_exists] at hconnected
        have hholds := htracks.stage
        rw [(hholds.of_not_connected hconnected).2] at hholds
        have hafter := ih.opening hdelivers hholds hconnected move
        rw [follow_append_singleton]
        refine hafter.mono ?_
        rintro (⟨response, front, back, rfl, hanswer⟩ | ⟨response, hanswer⟩)
        · exact ⟨response, front, back ++ [move], List.append_assoc _ _ _, hanswer⟩
        · refine ⟨response, moves ++ [move], [], (List.append_nil _).symm, ?_⟩
          rw [follow_append, served, collect_append_singleton]
          exact hanswer

end Conversation

end RoutedSession
