import RoutedSession.Proofs.Session.FailedOpening

namespace RoutedSession

namespace HandshakeResponse

theorem plainText_ne_noAnswer (payload : Bytes) (limit : Nat) :
    plainText payload ≠ .error (.noAnswer limit) := by
  unfold plainText
  split
  · cases Gzip.decompress payload <;> simp [Except.mapError]
  · nofun

theorem parse_ne_noAnswer (payload : Bytes) (limit : Nat) :
    parse payload ≠ .error (.noAnswer limit) := by
  unfold parse
  cases hplain : plainText payload with
  | error reason =>
      rintro ⟨⟩
      exact plainText_ne_noAnswer payload limit hplain
  | ok text =>
      simp only [bind, Except.bind]
      cases ofText text with
      | error reason => nofun
      | ok response =>
          dsimp only [Except.mapError]
          split <;> nofun

end HandshakeResponse

namespace Attempt

theorem judge_ne_noAnswer (first : Packet) (limit : Nat) :
    judge first ≠ .error (.noAnswer limit) := by
  unfold judge
  split
  · exact HandshakeResponse.parse_ne_noAnswer _ _
  · nofun

theorem advance_ne_noAnswer (attempt : Attempt) (link : Link) (limit : Nat) :
    (attempt.advance link).1 ≠ .failed (.handshake (.noAnswer limit)) := by
  obtain ⟨last, state, hreached, hstands⟩ :=
    exists_stands attempt.request attempt.limit (attempt.point link)
  rw [advance_of_reached hreached, hstands.goOn_eq]
  rintro rfl
  obtain _ | hfails := hstands
  cases hfails with
  | refused share hread hpush hjudged => exact judge_ne_noAnswer _ _ hjudged

theorem poll_eq_noAnswer_iff {attempt : Attempt} {now : Nat} {link : Link} {limit : Nat} :
    (attempt.poll now link).1 = .failed (.handshake (.noAnswer limit)) ↔
      limit = attempt.timeout ∧ attempt.deadline ≤ now ∧
        ∃ phase, (attempt.advance link).1 = .waiting phase := by
  have hnever := attempt.advance_ne_noAnswer link limit
  rw [fst_poll]
  generalize (attempt.advance link).1 = state at hnever ⊢
  cases state with
  | waiting phase =>
      dsimp only
      split
      · rename_i hlate
        simp [hlate, eq_comm]
      · rename_i hlate
        simp [hlate]
  | accepted accepted => simp
  | failed reason => simpa using hnever

end Attempt

namespace Conversation

/-- In this move the exchange that opens the connection has to wait, and its time is over. -/
def RunsOutIn (before : Conversation) (due : Nat) (move : Move) : Prop :=
  move = .task (.call 0) ∧ due ≤ before.now ∧ ∃ chosen attempt phase,
    before.stage = .connecting chosen attempt ∧ (attempt.advance before.link).1 = .waiting phase

/-- In one of these moves the exchange has had to wait when its time was over. -/
def RunsOut (begun : Conversation) (due : Nat) (moves : List Move) : Prop :=
  ∃ front move back, moves = front ++ move :: back ∧ (begun.follow front).RunsOutIn due move

theorem runsOut_append_singleton {begun : Conversation} {due : Nat} {moves : List Move}
    {move : Move} :
    begun.RunsOut due (moves ++ [move]) ↔
      begun.RunsOut due moves ∨ (begun.follow moves).RunsOutIn due move := by
  constructor
  · rintro ⟨front, other, back, hmoves, hout⟩
    rcases List.eq_nil_or_concat' back with rfl | ⟨back, last, rfl⟩
    · obtain ⟨rfl, rfl⟩ := List.append_singleton_inj.mp hmoves
      exact .inr hout
    · rw [← List.cons_append, ← List.append_assoc] at hmoves
      obtain ⟨rfl, -⟩ := List.append_singleton_inj.mp hmoves
      exact .inl ⟨front, other, back, rfl, hout⟩
  · rintro (⟨front, other, back, rfl, hout⟩ | hout)
    · exact ⟨front, other, back ++ [move], List.append_assoc _ _ _, hout⟩
    · exact ⟨moves, move, [], rfl, hout⟩

/-- How the call stands that has begun the exchange, as far as the client has come. -/
inductive Underway (settings : Settings) (due : Nat) (ranOut givenUp : Prop) :
    Stage → CallState → Prop where
  | exchanging {attempt : Attempt} (hdeadline : attempt.deadline = due)
      (htimeout : attempt.timeout = settings.handshakeTimeout) (hnot : ¬ ranOut) :
      Underway settings due ranOut givenUp (.connecting settings attempt) .connecting
  | connected {connection : Connection} (hnot : ¬ ranOut) :
      Underway settings due ranOut givenUp (.connected connection)
        (.ended (.connected connection.response))
  | refused {reason : SessionError} (hcause : ∀ limit, reason ≠ .handshake (.noAnswer limit))
      (hnot : ¬ ranOut) :
      Underway settings due ranOut givenUp (.failed .closed settings.routes)
        (.ended (.failed reason))
  | late (hout : ranOut) :
      Underway settings due ranOut givenUp (.failed .closed settings.routes)
        (.ended (.failed (.handshake (.noAnswer settings.handshakeTimeout))))
  /-- The application has given it up, or the queues of a session could not be made. -/
  | aborted {lifecycle : Lifecycle} {routes : RouteTable}
      (hwhy : givenUp ∨ settings.queuesFit = false) (hnot : ¬ ranOut) :
      Underway settings due ranOut givenUp (.failed lifecycle routes) (.ended .aborted)

section

variable {settings : Settings} {due : Nat} {ranOut givenUp : Prop} {before : Conversation}

theorem Underway.mono {stage : Stage} {state : CallState} {after nowGivenUp : Prop}
    (hunderway : Underway settings due ranOut givenUp stage state) (hout : after ↔ ranOut)
    (hgivenUp : givenUp → nowGivenUp) : Underway settings due after nowGivenUp stage state := by
  obtain rfl := propext hout
  cases hunderway with
  | exchanging hdeadline htimeout hnot => exact .exchanging hdeadline htimeout hnot
  | connected hnot => exact .connected hnot
  | refused hcause hnot => exact .refused hcause hnot
  | late hout => exact .late hout
  | aborted hwhy hnot => exact .aborted (hwhy.imp_left hgivenUp) hnot

theorem runsOutIn_iff {attempt : Attempt} (hstage : before.stage = .connecting settings attempt)
    (hdeadline : attempt.deadline = due) :
    before.RunsOutIn due (.task (.call 0)) ↔
      (attempt.poll before.now before.link).1 =
        .failed (.handshake (.noAnswer attempt.timeout)) := by
  rw [Attempt.poll_eq_noAnswer_iff, RunsOutIn, hstage, hdeadline]
  simp

theorem underway_pollAttempt {attempt : Attempt} {call : Call}
    (hstage : before.stage = .connecting settings attempt) (hcall : before.calls[0]? = some call)
    (hstate : call.state = .connecting) (hdeadline : attempt.deadline = due)
    (htimeout : attempt.timeout = settings.handshakeTimeout) (hnot : ¬ ranOut) :
    let after := before.pollAttempt settings attempt 0
    ∃ next, after.calls[0]? = some next ∧
      Underway settings due (ranOut ∨ before.RunsOutIn due (.task (.call 0))) givenUp after.stage
        next.state := by
  have hset {conversation : Conversation} (hsame : conversation.calls = before.calls)
      (state : CallState) :
      (conversation.setCall 0 state).calls[0]? = some { call with state } := by
    rw [getElem?_setCall, hsame, hcall]
    rfl
  have hout := runsOutIn_iff hstage hdeadline
  have hlimit (limit : Nat) (hfailed : (attempt.poll before.now before.link).1 =
      .failed (.handshake (.noAnswer limit))) : limit = attempt.timeout :=
    (Attempt.poll_eq_noAnswer_iff.mp hfailed).1
  unfold Conversation.pollAttempt
  generalize attempt.poll before.now before.link = polled at hout hlimit
  rw [hout]
  obtain ⟨phase | accepted | reason, link⟩ := polled
  · refine ⟨call, hcall, ?_⟩
    rw [hstate]
    exact .exchanging hdeadline htimeout (by simpa using hnot)
  · unfold connect
    dsimp only
    split
    · exact ⟨_, hset rfl _, .connected (by simpa using hnot)⟩
    · rename_i hroom
      exact ⟨_, hset rfl _, .aborted (.inr (by simpa using hroom)) (by simpa using hnot)⟩
  · refine ⟨_, hset rfl _, ?_⟩
    by_cases hlate : ∃ limit, reason = .handshake (.noAnswer limit)
    · obtain ⟨limit, rfl⟩ := hlate
      obtain rfl := hlimit limit rfl
      rw [htimeout]
      exact .late (.inr rfl)
    · rw [not_exists] at hlate
      exact .refused hlate (by simpa [hnot] using hlate _)

theorem Underway.not_ranOut {stage : Stage} {state : CallState}
    (hunderway : Underway settings due ranOut givenUp stage state)
    (hstage : ∀ routes, stage ≠ .failed .closed routes) : ¬ ranOut := by
  cases hunderway with
  | late hout => exact absurd rfl (hstage _)
  | refused hcause hnot => exact hnot
  | _ => assumption

/-- The application has given up the call that opens the connection. -/
def GivesUp (moves : List Move) : Prop :=
  ∃ slot, .command (.abort slot) ∈ moves

theorem GivesUp.later {moves : List Move} (hgivenUp : GivesUp moves) (move : Move) :
    GivesUp (moves ++ [move]) := by
  obtain ⟨slot, hmem⟩ := hgivenUp
  exact ⟨slot, List.mem_append_left _ hmem⟩

theorem Underway.opening {call : Call} {moves : List Move}
    (hunderway : Underway settings due ranOut (GivesUp moves) before.stage call.state)
    (hcall : before.calls[0]? = some call)
    (hfirst : ∀ index call, before.calls[index]? = some call → index = 0)
    (hstage : ∀ connection, before.stage ≠ .connected connection) (move : Move) :
    ∃ next, (before.move move).calls[0]? = some next ∧
      Underway settings due (ranOut ∨ before.RunsOutIn due move) (GivesUp (moves ++ [move]))
        (before.move move).stage next.state := by
  by_cases hout : before.RunsOutIn due move
  · obtain ⟨rfl, hlate, chosen, attempt, phase, hconnecting, hwaits⟩ := hout
    rw [hconnecting] at hunderway
    generalize hstate : call.state = state at hunderway
    obtain @⟨_, hdeadline, htimeout, hnot⟩ := hunderway
    have hready := isReady_of_late hcall hstate hconnecting (hdeadline ▸ hlate)
    rw [move_of_ready hcall hstate hconnecting hready]
    exact underway_pollAttempt hconnecting hcall hstate hdeadline htimeout hnot
  · have hstill : ranOut ∨ before.RunsOutIn due move ↔ ranOut := by simp [hout]
    have hopening := Conversation.opening hstage move
    generalize before.move move = after at hopening
    cases hopening with
    | aside hsame hcalls =>
        rw [hsame, hcalls]
        exact ⟨call, hcall, hunderway.mono hstill (·.later _)⟩
    | @aborted slot index _ hfailed hcalls _ _ given hgiven hrunning =>
        obtain rfl := hfirst index given hgiven
        obtain rfl := Option.some.inj (hcall.symm.trans hgiven)
        rw [hfailed, hcalls, getElem?_setCall, hcall]
        refine ⟨_, rfl, .aborted (.inl ⟨slot, List.mem_concat_self⟩) ?_⟩
        rw [hstill]
        generalize call.state = state at hunderway hrunning
        generalize before.stage = stage at hunderway
        cases hunderway with
        | exchanging hdeadline htimeout hnot => exact hnot
        | _ => cases hrunning
    | begun hunconnected =>
        rw [hunconnected] at hunderway
        cases hunderway
    | @polled index chosen attempt hconnecting given hgiven hstate =>
        obtain rfl := hfirst index given hgiven
        obtain rfl := Option.some.inj (hcall.symm.trans hgiven)
        rw [hconnecting, hstate] at hunderway
        obtain @⟨_, hdeadline, htimeout, hnot⟩ := hunderway
        exact underway_pollAttempt hconnecting hcall hstate hdeadline htimeout hnot

end

/-- Whatever happens, the call stands as the time of its exchange and its turns make it stand. -/
theorem exists_underway {settings : Settings} {capacity : Nat} {fault : Fault} {front : List Move}
    (hbegins : ((start settings capacity fault).follow front).stage = .unconnected settings)
    (back : List Move) :
    let begun := (start settings capacity fault).follow (front ++ [.task (.call 0)])
    let due := ((start settings capacity fault).follow front).now + settings.handshakeTimeout
    ∃ call, (begun.follow back).calls[0]? = some call ∧
      Underway settings due (begun.RunsOut due back) (GivesUp back) (begun.follow back).stage
        call.state := by
  intro begun due
  have hopens (moves : List Move) :=
    opens settings capacity fault (front ++ [.task (.call 0)] ++ moves)
  simp only [follow_append _ (front ++ [.task (.call 0)])] at hopens
  -- On the moves since the exchange began.
  induction back using List.reverseRecOn with
  | nil =>
      have hfirst := opens settings capacity fault front
      rw [hbegins] at hfirst
      generalize hcalls : ((start settings capacity fault).follow front).calls = calls at hfirst
      obtain @⟨call, hstate⟩ := hfirst
      obtain ⟨slot, state, isTold⟩ := call
      obtain rfl : state = .connecting := hstate
      have hbegun :
          begun = ((start settings capacity fault).follow front).beginAttempt settings := by
        show ((start settings capacity fault).follow (front ++ [.task (.call 0)])) = _
        rw [follow_append_singleton]
        simp [Conversation.move, isReady, poll, pollCall, hcalls, hbegins]
      rw [follow_nil, hbegun]
      refine ⟨⟨slot, .connecting, isTold⟩, ?_, .exchanging rfl rfl ?_⟩
      · simp [beginAttempt, hcalls]
      · rintro ⟨early, move, late, hnone, -⟩
        simp at hnone
  | append_singleton back move ih =>
      obtain ⟨call, hcall, hunderway⟩ := ih
      rw [follow_append_singleton, runsOut_append_singleton]
      by_cases hconnected : ∃ connection, (begun.follow back).stage = .connected connection
      · obtain ⟨connection, hstage⟩ := hconnected
        obtain ⟨next, -, hnext, -⟩ := exists_goes_move hstage move
        have hlater := hopens (back ++ [move])
        rw [follow_append_singleton, hnext] at hlater
        rw [hnext]
        obtain ⟨⟨after, hafter, hstate⟩, -⟩ := hlater.of_connected
        refine ⟨after, hafter, ?_⟩
        rw [hstate]
        refine .connected ?_
        rw [not_or]
        constructor
        · exact hunderway.not_ranOut (by simp [hstage])
        · rintro ⟨-, -, chosen, attempt, phase, hconnecting, -⟩
          cases hstage.symm.trans hconnecting
      · rw [not_exists] at hconnected
        refine hunderway.opening hcall (fun index call => ?_) hconnected move
        exact (hopens back).index_eq_zero hconnected

/-- What a call that opens a connection returns, and how far the client has come with it: a session
or an error. -/
inductive Returns (settings : Settings) : Stage → CallResult → Prop where
  | session (connection : Connection) :
      Returns settings (.connected connection) (.connected connection.response)
  | error (reason : SessionError) :
      Returns settings (.failed .closed settings.routes) (.failed reason)

/-- How the time is kept of an exchange that is over when the clock shows `due`. -/
structure OpensInTime (settings : Settings) (begun : Conversation) (due : Nat)
    (moves : List Move) : Prop where
  /-- When the time is over and no task would do anything, the call has returned, unless it was
  given up or no session could be made. -/
  in_time : due ≤ (begun.follow moves).now → (begun.follow moves).isBusy = false →
    ∃ call result, (begun.follow moves).calls[0]? = some call ∧ call.state = .ended result ∧
      (Returns settings (begun.follow moves).stage result ∨
        result = .aborted ∧ (GivesUp moves ∨ settings.queuesFit = false))
  /-- A turn that the call has after its time is its last. -/
  next_turn : due ≤ (begun.follow moves).now → ∀ call, (begun.follow moves).calls[0]? = some call →
    call.state.hasEnded = false →
      ∃ after, (begun.follow (moves ++ [.task (.call 0)])).calls[0]? = some after ∧
        after.state.hasEnded = true
  /-- If it had to wait when its time was over, the error tells the limit. -/
  ran_out : begun.RunsOut due moves → (begun.follow moves).lifecycle = .closed ∧
    ∃ call reason, (begun.follow moves).calls[0]? = some call ∧
      call.state = .ended (.failed reason) ∧
        reason = .handshake (.noAnswer settings.handshakeTimeout) ∧
          reason.message = "Handshake error: no answer within " ++
            durationText settings.handshakeTimeout
  /-- No other call ends with that error. -/
  only_ran_out : ∀ call limit, (begun.follow moves).calls[0]? = some call →
    call.state = .ended (.failed (.handshake (.noAnswer limit))) → begun.RunsOut due moves

/-- However the peer answers or does not, reads or does not, an exchange has its time from the turn
on in which it begins, and no more. -/
theorem follow_opensInTime {settings : Settings} {capacity : Nat} {fault : Fault}
    {front : List Move}
    (hbegins : ((start settings capacity fault).follow front).stage = .unconnected settings)
    (back : List Move) :
    OpensInTime settings ((start settings capacity fault).follow (front ++ [.task (.call 0)]))
      (((start settings capacity fault).follow front).now + settings.handshakeTimeout) back := by
  obtain ⟨call, hcall, hunderway⟩ := exists_underway hbegins back
  generalize (start settings capacity fault).follow (front ++ [.task (.call 0)]) = begun at *
  generalize hstate : call.state = state at hunderway
  generalize hstage : (begun.follow back).stage = stage at hunderway
  constructor
  case in_time =>
    intro hlate hidle
    refine ⟨call, ?_⟩
    rw [hstage, hstate]
    cases hunderway with
    | exchanging hdeadline =>
        have hready := isReady_of_late hcall hstate hstage (hdeadline ▸ hlate)
        cases (isReady_of_idle hidle hcall).symm.trans hready
    | connected => exact ⟨_, hcall, rfl, .inl (.session _)⟩
    | refused => exact ⟨_, hcall, rfl, .inl (.error _)⟩
    | late => exact ⟨_, hcall, rfl, .inl (.error _)⟩
    | aborted hwhy => exact ⟨_, hcall, rfl, .inr ⟨rfl, hwhy⟩⟩
  case next_turn =>
    intro hlate given hgiven hrunning
    obtain rfl := Option.some.inj (hcall.symm.trans hgiven)
    rw [hstate] at hrunning
    cases hunderway with
    | exchanging hdeadline =>
        rw [← hdeadline] at hlate
        have hready := isReady_of_late hcall hstate hstage hlate
        rw [follow_append_singleton, move_of_ready hcall hstate hstage hready]
        exact hasEnded_pollAttempt hcall hstate settings hlate
    | _ => cases hrunning
  case ran_out =>
    intro hout
    rw [lifecycle, hstage]
    cases hunderway with
    | late => exact ⟨rfl, call, _, hcall, hstate, rfl, rfl⟩
    | _ => contradiction
  case only_ran_out =>
    intro given limit hgiven hended
    obtain rfl := Option.some.inj (hcall.symm.trans hgiven)
    obtain rfl := hstate.symm.trans hended
    cases hunderway with
    | late hout => exact hout
    | refused hcause => exact absurd rfl (hcause limit)

/-- The offer needs two writes, the answer comes in two parts, and the peer reads nothing of the
confirmation. -/
def trickled : List Move :=
  let answer := Packet.bytes ⟨.handshake, Bytes.ofString "\x7b\"code\":200\x7d"⟩
  [.task (.call 0), .command (.advance 500), .peerReads 50, .task (.call 0), .command .peerStalls,
    .command (.peerSends (answer.take 9) false), .peerWrites, .task (.call 0),
    .command (.advance 999), .command (.peerSends (answer.drop 9) false), .peerWrites,
    .task (.call 0), .command (.advance 1), .task (.call 0)]

theorem follow_opensInTime_trickled :
    (start { handshakeTimeout := 1500 } 50 {}).stage = .unconnected { handshakeTimeout := 1500 } ∧
      (let begun := (start { handshakeTimeout := 1500 } 50 {}).follow [.task (.call 0)]
      OpensInTime { handshakeTimeout := 1500 } begun 1500 trickled ∧
        (begun.follow trickled).now = 1500 ∧ (begun.follow trickled).isBusy = false ∧
          (begun.follow trickled).lifecycle = .closed) := by
  have hbegins : (start { handshakeTimeout := 1500 } 50 {}).stage =
      .unconnected { handshakeTimeout := 1500 } := rfl
  refine ⟨hbegins, ?_, by decide +kernel, by decide +kernel, by decide +kernel⟩
  exact @follow_opensInTime _ _ _ [] hbegins trickled

end Conversation

end RoutedSession
