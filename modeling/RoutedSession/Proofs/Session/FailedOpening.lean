import RoutedSession.Proofs.Session.Establishment

namespace RoutedSession.Conversation

section

variable {settings chosen : Settings} {capacity : Nat} {fault : Fault} {moves : List Move}
  {before : Conversation} {attempt : Attempt}

theorem connecting_of_pollAttempt {earlier : Attempt} {index : SenderId} {own : Settings}
    (hstage : (before.pollAttempt own earlier index).stage = .connecting chosen attempt) :
    own = chosen ∧ ∃ phase, attempt = { earlier with phase } := by
  unfold pollAttempt at hstage
  generalize earlier.poll before.now before.link = polled at hstage
  obtain ⟨phase | accepted | reason, link⟩ := polled
  · obtain ⟨rfl, rfl⟩ := Stage.connecting.inj hstage
    exact ⟨rfl, phase, rfl⟩
  · dsimp only [connect] at hstage
    split at hstage <;> cases hstage
  · cases hstage

theorem exists_begun
    (hstage : ((start settings capacity fault).follow moves).stage = .connecting chosen attempt) :
    ∃ front back, moves = front ++ .task (.call 0) :: back ∧
      ((start settings capacity fault).follow front).stage = .unconnected chosen ∧
        attempt.deadline =
          ((start settings capacity fault).follow front).now + chosen.handshakeTimeout := by
  -- On the moves; no later turn gives the exchange another deadline.
  induction moves using List.reverseRecOn generalizing attempt with
  | nil => cases hstage
  | append_singleton moves move ih =>
      have hlater {earlier : Attempt}
          (hbefore : ((start settings capacity fault).follow moves).stage =
            .connecting chosen earlier) :
          ∃ front back, moves ++ [move] = front ++ .task (.call 0) :: back ∧
            ((start settings capacity fault).follow front).stage = .unconnected chosen ∧
              earlier.deadline =
                ((start settings capacity fault).follow front).now + chosen.handshakeTimeout := by
        obtain ⟨front, back, rfl, hfirst, hbegun⟩ := ih hbefore
        exact ⟨front, back ++ [move], by simp, hfirst, hbegun⟩
      rw [follow_append_singleton] at hstage
      by_cases hconnected :
          ∃ connection, ((start settings capacity fault).follow moves).stage = .connected connection
      · obtain ⟨connection, hbefore⟩ := hconnected
        obtain ⟨next, -, hnext, -⟩ := exists_goes_move hbefore move
        cases hnext.symm.trans hstage
      · rw [not_exists] at hconnected
        have hopening := opening hconnected move
        generalize ((start settings capacity fault).follow moves).move move = after
          at hopening hstage
        cases hopening with
        | aside hsame => exact hlater (hsame.symm.trans hstage)
        | aborted hfailed => cases hfailed.symm.trans hstage
        | begun hunconnected hcall =>
            obtain ⟨rfl, rfl⟩ := Stage.connecting.inj hstage
            obtain rfl := (opens settings capacity fault moves).index_eq_zero hconnected hcall
            exact ⟨moves, [], rfl, hunconnected, rfl⟩
        | polled hconnecting =>
            obtain ⟨rfl, phase, rfl⟩ := connecting_of_pollAttempt hstage
            obtain ⟨front, back, hmoves, hfirst, hbegun⟩ := hlater hconnecting
            exact ⟨front, back, hmoves, hfirst, hbegun⟩

section

variable {call : Call} (hcall : before.calls[0]? = some call) (hstate : call.state = .connecting)

include hcall hstate

theorem isReady_of_late (hstage : before.stage = .connecting chosen attempt)
    (hlate : attempt.deadline ≤ before.now) : before.isReady (.call 0) = true := by
  obtain ⟨slot, state, isTold⟩ := call
  obtain rfl : state = .connecting := hstate
  rw [isReady, hcall, hstage]
  simp [Attempt.isReady, hlate]

theorem move_of_ready (hstage : before.stage = .connecting chosen attempt)
    (hready : before.isReady (.call 0) = true) :
    before.move (.task (.call 0)) = before.pollAttempt chosen attempt 0 := by
  obtain ⟨slot, state, isTold⟩ := call
  obtain rfl : state = .connecting := hstate
  unfold Conversation.move
  dsimp only
  rw [if_pos hready, poll, pollCall, hcall, hstage]

theorem call_pollAttempt (chosen : Settings) (attempt : Attempt) :
    ∃ after, (before.pollAttempt chosen attempt 0).calls[0]? = some after ∧
      match (attempt.poll before.now before.link).1 with
      | .waiting _ => after.state = .connecting
      | .failed reason => after.state = .ended (.failed reason)
      | .accepted accepted =>
          after.state = .ended (.connected accepted.response) ∨ after.state = .ended .aborted := by
  have hset {conversation : Conversation} (hsame : conversation.calls = before.calls)
      (state : CallState) :
      (conversation.setCall 0 state).calls[0]? = some { call with state } := by
    rw [getElem?_setCall, hsame, hcall]
    rfl
  unfold pollAttempt
  rcases attempt.poll before.now before.link with ⟨phase | accepted | reason, link⟩
  · exact ⟨call, hcall, hstate⟩
  · unfold connect
    dsimp only
    split
    · exact ⟨_, hset rfl _, .inl rfl⟩
    · exact ⟨_, hset rfl _, .inr rfl⟩
  · exact ⟨_, hset rfl _, rfl⟩

theorem fails_pollAttempt_iff (chosen : Settings) (attempt : Attempt) (reason : SessionError) :
    (∃ after, (before.pollAttempt chosen attempt 0).calls[0]? = some after ∧
        after.state = .ended (.failed reason)) ↔
      attempt.FailsInTurn before.now before.link reason := by
  obtain ⟨after, hafter, hcomes⟩ := call_pollAttempt hcall hstate chosen attempt
  rw [← Attempt.poll_eq_failed_iff]
  generalize (attempt.poll before.now before.link).1 = state at hcomes ⊢
  simp only [hafter, Option.some.injEq, exists_eq_left']
  cases state with
  | waiting => simp_all
  | failed => simp_all
  | accepted => rcases hcomes with hcomes | hcomes <;> simp [hcomes]

theorem hasEnded_pollAttempt (chosen : Settings) (hlate : attempt.deadline ≤ before.now) :
    ∃ after, (before.pollAttempt chosen attempt 0).calls[0]? = some after ∧
      after.state.hasEnded = true := by
  obtain ⟨after, hafter, hcomes⟩ := call_pollAttempt hcall hstate chosen attempt
  refine ⟨after, hafter, ?_⟩
  split at hcomes
  · rename_i phase hwaiting
    exact absurd hwaiting (Attempt.poll_ne_waiting hlate phase)
  · rw [hcomes]
    rfl
  · rcases hcomes with hcomes | hcomes <;> rw [hcomes] <;> rfl

end

theorem exists_call_of_connecting
    (hstage : ((start settings capacity fault).follow moves).stage = .connecting chosen attempt) :
    chosen = settings ∧ attempt.request = settings.request ∧
      attempt.limit = settings.maxPacketSize ∧ attempt.timeout = settings.handshakeTimeout ∧
        ∃ call, ((start settings capacity fault).follow moves).calls[0]? = some call ∧
          call.state = .connecting := by
  obtain ⟨read, hdelivers⟩ := exists_delivers settings capacity fault moves
  have hreads := hdelivers.stage
  have hopens := opens settings capacity fault moves
  rw [hstage] at hreads hopens
  obtain _ | ⟨hlimit⟩ := hreads
  generalize ((start settings capacity fault).follow moves).calls = calls at hopens
  obtain _ | ⟨hstate, hrequest, htimeout⟩ := hopens
  exact ⟨rfl, hrequest, hlimit, htimeout, _, rfl, hstate⟩

end

/-- What a call that fails to open a connection leaves, and for which causes it fails. -/
structure LeavesNothing (settings : Settings) (origin : Conversation) (moves : List Move) :
    Prop where
  /-- If the call has failed, the connection is closed, the codes are those that there were, and
  the stream has a part of the offer and the confirmation at most. -/
  failed : ∀ call reason, (origin.follow moves).calls[0]? = some call →
    call.state = .ended (.failed reason) →
      (origin.follow moves).lifecycle = .closed ∧ (origin.follow moves).routes = settings.routes ∧
        LeavesPart settings.request (∃ response, origin.HadAnswer moves response)
          (origin.follow moves).carried
  /-- The exchange is the one that was chosen, and has as much time from its beginning on. -/
  exchange : ∀ chosen attempt, (origin.follow moves).stage = .connecting chosen attempt →
    attempt.request = settings.request ∧ attempt.limit = settings.maxPacketSize ∧
      attempt.timeout = settings.handshakeTimeout ∧
        ∃ front back, moves = front ++ .task (.call 0) :: back ∧
          (origin.follow front).stage = .unconnected settings ∧
            attempt.deadline = (origin.follow front).now + settings.handshakeTimeout
  /-- In a turn of the call it fails exactly if the exchange comes to a cause. -/
  fails_iff : ∀ chosen attempt, (origin.follow moves).stage = .connecting chosen attempt →
    (origin.follow moves).isReady (.call 0) = true → ∀ reason,
      (∃ call, (origin.follow (moves ++ [.task (.call 0)])).calls[0]? = some call ∧
          call.state = .ended (.failed reason)) ↔
        attempt.FailsInTurn (origin.follow moves).now (origin.follow moves).link reason
  /-- When the time is over the call has a turn, and ends in it. -/
  ends_late : ∀ chosen attempt, (origin.follow moves).stage = .connecting chosen attempt →
    attempt.deadline ≤ (origin.follow moves).now →
      (origin.follow moves).isReady (.call 0) = true ∧
        ∃ call, (origin.follow (moves ++ [.task (.call 0)])).calls[0]? = some call ∧
          call.state.hasEnded = true

/-- Whatever the peer sends, however the stream fails and whenever the time is over, a call that
fails to open a connection leaves nothing behind. -/
theorem follow_leavesNothing (settings : Settings) (capacity : Nat) (fault : Fault)
    (moves : List Move) :
    LeavesNothing settings (start settings capacity fault) moves := by
  constructor
  case failed =>
    intro call reason hcall hstate
    obtain ⟨hstage, hleaves⟩ := (opens settings capacity fault moves).of_failed hcall hstate
    refine ⟨?_, ?_, hleaves⟩
    · rw [lifecycle, hstage]
    · rw [routes, hstage]
  case exchange =>
    intro chosen attempt hstage
    obtain ⟨rfl, hrequest, hlimit, htimeout, -⟩ := exists_call_of_connecting hstage
    exact ⟨hrequest, hlimit, htimeout, exists_begun hstage⟩
  case fails_iff =>
    intro chosen attempt hstage hready reason
    obtain ⟨-, -, -, -, call, hcall, hstate⟩ := exists_call_of_connecting hstage
    rw [follow_append_singleton, move_of_ready hcall hstate hstage hready]
    exact fails_pollAttempt_iff hcall hstate chosen attempt reason
  case ends_late =>
    intro chosen attempt hstage hlate
    obtain ⟨-, -, -, -, call, hcall, hstate⟩ := exists_call_of_connecting hstage
    have hready := isReady_of_late hcall hstate hstage hlate
    rw [follow_append_singleton, move_of_ready hcall hstate hstage hready]
    exact ⟨hready, hasEnded_pollAttempt hcall hstate chosen hlate⟩

/-- Half of the confirmation has been written when the time is over. -/
example :
    let after := (start {} 102 {}).follow
      (acceptance ++ [.command (.advance 10000), .task (.call 0)])
    after.lifecycle = .closed ∧
      after.carried = (Attempt.written ({} : Settings).request).take 102 := by
  decide +kernel

end RoutedSession.Conversation
