import RoutedSession.Proofs.RouteTable.History
import RoutedSession.Proofs.Session.Dispatching
import RoutedSession.Proofs.Session.Exchange
import RoutedSession.Proofs.Session.Termination

namespace RoutedSession

open PacketBuffer (Yields Divides)

namespace Attempt

/-- The server's answer has been read, and all that was read behind it is passed on. -/
def Answered (limit : Nat) (read : Bytes) (accepted : Accepted) : Prop :=
  ∃ first, judge first = .ok accepted.response ∧
    Yields limit read (first :: accepted.trailing) accepted.buffer

/-- What an exchange has made of what it has read. -/
inductive PhaseReads (limit : Nat) (read : Bytes) : AttemptPhase → Prop where
  | starting (hnone : read = []) : PhaseReads limit read .starting
  | offering (left : List Bytes) (hnone : read = []) : PhaseReads limit read (.offering left)
  | awaiting {buffer : PacketBuffer} (hyields : Yields limit read [] buffer) :
      PhaseReads limit read (.awaiting buffer)
  | confirming (left : List Bytes) {accepted : Accepted}
      (hanswered : Answered limit read accepted) :
      PhaseReads limit read (.confirming left accepted)

inductive StateReads (limit : Nat) (read : Bytes) : State → Prop where
  | waiting {phase : AttemptPhase} (hphase : PhaseReads limit read phase) :
      StateReads limit read (.waiting phase)
  | accepted {accepted : Accepted} (hanswered : Answered limit read accepted) :
      StateReads limit read (.accepted accepted)
  | failed (reason : SessionError) : StateReads limit read (.failed reason)

/-- An exchange has gone on from what had been read before. -/
def Proceeds (limit : Nat) (front : Bytes) (link : Link) (result : State × Link) : Prop :=
  ∃ read, link.Took result.2 read ∧ StateReads limit (front ++ read) result.1

section

variable {limit : Nat} {front read : Bytes} {link rest : Link}

theorem proceeds_waiting {phase : AttemptPhase} (hphase : PhaseReads limit front phase) :
    Proceeds limit front link (.waiting phase, link) :=
  ⟨[], .refl link, .waiting (by rwa [List.append_nil])⟩

theorem proceeds_failed (htook : link.Took rest read) (reason : SessionError) :
    Proceeds limit front link (.failed reason, rest) :=
  ⟨read, htook, .failed reason⟩

theorem Proceeds.after {result : State × Link} (htook : link.Took rest read)
    (hproceeds : Proceeds limit (front ++ read) rest result) :
    Proceeds limit front link result := by
  obtain ⟨more, hmore, hstate⟩ := hproceeds
  exact ⟨read ++ more, htook.trans hmore, by rwa [← List.append_assoc]⟩

theorem proceeds_confirm {accepted : Accepted} (hanswered : Answered limit front accepted)
    (share : Nat) (link : Link) (left : List Bytes) :
    Proceeds limit front link (confirm share link left accepted) := by
  have htook := link.took_writeOut "write zero" share left
  unfold confirm writePacket
  generalize Writer.writeOut Link.sink "write zero" share link left = result at htook
  obtain ⟨progress, after⟩ := result
  have hfront : Answered limit (front ++ []) accepted := by rwa [List.append_nil]
  cases progress with
  | finished => exact ⟨[], htook, .accepted hfront⟩
  | halted left => exact ⟨[], htook, .waiting (.confirming left hfront)⟩
  | failed reason => exact ⟨[], htook, .failed _⟩

theorem proceeds_readAnswer {buffer : PacketBuffer} (hyields : Yields limit front [] buffer)
    (share : Nat) (link : Link) : Proceeds limit front link (readAnswer share link buffer) := by
  fun_induction readAnswer share link buffer generalizing front with
  | case1 => exact proceeds_waiting (.awaiting hyields)
  | case2 => exact proceeds_failed (.refl _) _
  | case3 => exact proceeds_waiting (.awaiting hyields)
  | case4 => exact proceeds_failed (.refl _) _
  | case5 _ _ _ _ _ hread => exact proceeds_failed (Link.took_read hread) _
  | case6 link buffer share bytes rest hread after hpush ih =>
      exact .after (Link.took_read hread) (ih (hyields.push_ok hpush))
  | case7 _ _ _ _ _ hread => exact proceeds_failed (Link.took_read hread) _
  | case8 link buffer share bytes rest hread first trailing after hpush response hjudge =>
      have hanswered : Answered limit (front ++ bytes) ⟨response, trailing, after⟩ :=
        ⟨first, hjudge, hyields.push_ok hpush⟩
      exact .after (Link.took_read hread) (proceeds_confirm hanswered share rest _)

theorem proceeds_writeOffer (hnone : front = []) (share : Nat) (link : Link) (left : List Bytes) :
    Proceeds limit front link (writeOffer limit share link left) := by
  have htook := link.took_writeOut "write zero" share left
  unfold writeOffer writePacket
  generalize Writer.writeOut Link.sink "write zero" share link left = result at htook
  obtain ⟨progress, after⟩ := result
  cases progress with
  | finished share =>
      refine .after htook (proceeds_readAnswer ?_ share after)
      rw [hnone]
      exact PacketBuffer.yields_empty limit
  | halted left => exact ⟨[], htook, .waiting (.offering left (by rw [hnone]; rfl))⟩
  | failed reason => exact ⟨[], htook, .failed _⟩

theorem proceeds_poll {attempt : Attempt} (hphase : PhaseReads attempt.limit front attempt.phase)
    (now : Nat) (link : Link) : Proceeds attempt.limit front link (attempt.poll now link) := by
  have hadvance : Proceeds attempt.limit front link (attempt.advance link) := by
    obtain ⟨request, limit, timeout, deadline, phase⟩ := attempt
    cases hphase with
    | starting hnone =>
        unfold advance
        dsimp only
        split
        · exact proceeds_failed (.refl link) _
        · exact proceeds_writeOffer hnone _ link _
    | offering left hnone => exact proceeds_writeOffer hnone _ link left
    | awaiting hyields => exact proceeds_readAnswer hyields _ link
    | confirming left hanswered => exact proceeds_confirm hanswered _ link left
  unfold poll
  split
  · rename_i phase after hresult
    rw [hresult] at hadvance
    obtain ⟨read, htook, hstate⟩ := hadvance
    split
    · exact ⟨read, htook, .failed _⟩
    · exact ⟨read, htook, hstate⟩
  · exact hadvance

end

end Attempt

namespace Conversation

/-- What moves yield one after the other. -/
def collect {α : Type} (yield : Conversation → Move → List α) (conversation : Conversation) :
    List Move → List α
  | [] => []
  | move :: moves => yield conversation move ++ (conversation.move move).collect yield moves

theorem collect_append {α : Type} (yield : Conversation → Move → List α)
    (conversation : Conversation) (front back : List Move) :
    conversation.collect yield (front ++ back) =
      conversation.collect yield front ++ (conversation.follow front).collect yield back := by
  induction front generalizing conversation with
  | nil => rfl
  | cons move front ih =>
      rw [List.cons_append, collect, collect, ih, follow_cons, List.append_assoc]

theorem collect_append_singleton {α : Type} (yield : Conversation → Move → List α)
    (conversation : Conversation) (moves : List Move) (move : Move) :
    conversation.collect yield (moves ++ [move]) =
      conversation.collect yield moves ++ yield (conversation.follow moves) move := by
  rw [collect_append, collect, collect, List.append_nil]

/-- The packets that take effect in a move. -/
def dispatchedBy (conversation : Conversation) : Move → List Dispatch
  | .task .reader =>
      match conversation.connection? with
      | some connection =>
          if connection.readerReady conversation.link then
            connection.reader.dispatches connection.session conversation.link
          else []
      | none => []
  | _ => []

/-- The call on the codes that the application makes in a move, if there is a session. -/
def routeCallsBy : Move → List RouteCall
  | .command (.onSession command) => command.routeCall?.toList
  | _ => []

/-- All that the peer has been given to send. -/
def served (conversation : Conversation) (moves : List Move) : Bytes :=
  conversation.collect servedBy moves

/-- The packets that have taken effect. -/
def dispatched (conversation : Conversation) (moves : List Move) : List Dispatch :=
  conversation.collect dispatchedBy moves

section

variable {before : Conversation} {connection : Connection} {move : Move}

theorem reader_or_aside (before : Conversation) (connection : Connection) (move : Move) :
    move = .task .reader ∧ connection.readerReady before.link = true ∨
      (move = .task .reader → connection.readerReady before.link = false) := by
  cases connection.readerReady before.link with
  | true => simp [em]
  | false => exact .inr fun _ => rfl

theorem dispatchedBy_eq_nil (hstage : before.stage = .connected connection)
    (haside : move = .task .reader → connection.readerReady before.link = false) :
    before.dispatchedBy move = [] := by
  unfold dispatchedBy
  split
  · rw [connection?_eq_some_iff.mpr hstage]
    simp [haside rfl]
  · rfl

theorem dispatchedBy_reader (hstage : before.stage = .connected connection)
    (hready : connection.readerReady before.link = true) :
    before.dispatchedBy (.task .reader) =
      connection.reader.dispatches connection.session before.link := by
  rw [dispatchedBy, connection?_eq_some_iff.mpr hstage]
  dsimp only
  rw [if_pos hready]

theorem move_reader (hstage : before.stage = .connected connection)
    (hready : connection.readerReady before.link = true) :
    before.move (.task .reader) =
      { before with link := (connection.pollReader before.link).2 }.setConnection
        (connection.pollReader before.link).1 := by
  have hconnection := connection?_eq_some_iff.mpr hstage
  have hturn : before.isReady .reader = true := by
    rw [isReady, hconnection]
    exact hready
  rw [Conversation.move, if_pos hturn]
  unfold poll
  rw [hconnection]

theorem passes_aside (hstage : before.stage = .connected connection)
    (haside : move = .task .reader → connection.readerReady before.link = false) :
    Passes before (before.move move) (before.servedBy move) [] := by
  have hconnection := connection?_eq_some_iff.mpr hstage
  cases move with
  | command command => exact before.passes_command command
  | peerWrites => exact before.passes_peerWrites
  | peerReads limit => exact before.passes_peerReads limit
  | task task =>
      unfold Conversation.move
      dsimp only
      split
      · rename_i hready
        unfold poll
        cases task with
        | call index => exact passes_pollCall hstage index
        | writer =>
            rw [hconnection]
            exact before.passes_pollWriter connection
        | reader => simp [isReady, hconnection, haside rfl] at hready
        | callback =>
            rw [hconnection]
            exact passes_of_same rfl rfl
      · exact passes_of_same rfl rfl

theorem exists_next_aside (hstage : before.stage = .connected connection)
    (haside : move = .task .reader → connection.readerReady before.link = false) :
    ∃ next, ∃ more : List RouteCall, (before.move move).stage = .connected next ∧
      next.reader = connection.reader ∧ next.response = connection.response ∧
        more.Sublist (routeCallsBy move) ∧
          next.session.routes = more.foldl RouteTable.call connection.session.routes := by
  have hmoved := moved hstage move
  have hkept {after : Conversation} {next : Connection} (hnext : after.stage = .connected next)
      (hkeeps : connection.KeepsReader next) :
      ∃ next, ∃ more : List RouteCall, after.stage = .connected next ∧
        next.reader = connection.reader ∧ next.response = connection.response ∧
          more.Sublist (routeCallsBy move) ∧
            next.session.routes = more.foldl RouteTable.call connection.session.routes :=
    ⟨next, [], hnext, hkeeps.reader, hkeeps.response, List.nil_sublist _, hkeeps.routes⟩
  generalize before.move move = after at hmoved
  cases hmoved with
  | aside hquiet hafter => exact hkept hafter ⟨rfl, rfl, rfl⟩
  | started slot action => exact hkept hstage ⟨rfl, rfl, rfl⟩
  | tried route payload => exact hkept rfl (connection.keepsReader_tryNotify route payload)
  | told hquiet events pushed => exact hkept rfl ⟨rfl, rfl, rfl⟩
  | @changedRoutes command call hcall =>
      have hmade : [call].Sublist (routeCallsBy (.command (.onSession command))) := by
        rw [routeCallsBy, hcall]
        exact List.Sublist.refl _
      exact ⟨_, [call], rfl, rfl, rfl, hmade, rfl⟩
  | dropped hheld hidle => exact hkept rfl connection.keepsReader_dropSession
  | looked hlooked hcame => exact hkept rfl (connection.keepsReader_setPending _)
  | gaveUp hgave => exact hkept rfl (connection.keepsReader_setPending _)
  | aborted hcall hrunning => exact hkept rfl (connection.keepsReader_abortCall _ _)
  | polled hcall hready =>
      exact hkept (stage_settleCall _ _ _ _) (connection.keepsReader_pollCall _ _ _)
  | wrote hready => exact hkept rfl (connection.keepsReader_pollWriter before.link)
  | read hready =>
      rw [haside rfl] at hready
      cases hready

end

theorem passes_opening {before : Conversation}
    (hstage : ∀ connection, before.stage ≠ .connected connection) (move : Move) :
    Passes before (before.move move) (before.servedBy move) [] ∨
      ∃ settings attempt index, move = .task (.call index) ∧
        before.stage = .connecting settings attempt ∧
          before.move move = before.pollAttempt settings attempt index := by
  have hnone := connection?_eq_none hstage
  cases move with
  | command command => exact .inl (before.passes_command command)
  | peerWrites => exact .inl before.passes_peerWrites
  | peerReads limit => exact .inl (before.passes_peerReads limit)
  | task task =>
      unfold Conversation.move
      dsimp only
      split
      · unfold poll
        cases task with
        | call index =>
            dsimp only
            unfold pollCall
            split
            · rename_i connection hcall hconnected
              exact absurd hconnected (hstage connection)
            · exact .inl (passes_of_same rfl rfl)
            · rename_i settings attempt hcall hconnecting
              exact .inr ⟨settings, attempt, index, rfl, hconnecting, rfl⟩
            · exact .inl (passes_of_same rfl rfl)
        | _ =>
            rw [hnone]
            exact .inl (passes_of_same rfl rfl)
      · exact .inl (passes_of_same rfl rfl)

/-- A table to which the server's codes have been added, and on which the application has made some
of the calls then. -/
def TableOf (settings : Settings) (response : HandshakeResponse) (calls : List RouteCall)
    (table : RouteTable) : Prop :=
  ∃ made : List RouteCall, made.Sublist calls ∧
    table = made.foldl RouteTable.call (settings.routesWith response.server)

theorem TableOf.append {settings : Settings} {response : HandshakeResponse}
    {calls made more : List RouteCall} {table : RouteTable}
    (htable : TableOf settings response calls table) (hmade : made.Sublist more) :
    TableOf settings response (calls ++ more) (made.foldl RouteTable.call table) := by
  obtain ⟨before, hbefore, rfl⟩ := htable
  exact ⟨before ++ made, hbefore.append hmade, List.foldl_append.symm⟩

/-- What has become of what the client has read, and which codes there are. -/
inductive StageReads (settings : Settings) (read : Bytes) (dispatched : List Dispatch)
    (calls : List RouteCall) : Stage → Prop where
  | unconnected (hread : read = []) (hnone : dispatched = []) :
      StageReads settings read dispatched calls (.unconnected settings)
  | connecting {attempt : Attempt} (hlimit : attempt.limit = settings.maxPacketSize)
      (hphase : Attempt.PhaseReads settings.maxPacketSize read attempt.phase)
      (hnone : dispatched = []) :
      StageReads settings read dispatched calls (.connecting settings attempt)
  | failed (lifecycle : Lifecycle) (routes : RouteTable) :
      StageReads settings read dispatched calls (.failed lifecycle routes)
  | connected {connection : Connection} {first : Packet}
      (hanswer : Attempt.judge first = .ok connection.response)
      (hposition : Reader.Position settings.maxPacketSize read first dispatched connection.reader)
      (htable : TableOf settings connection.response calls connection.session.routes)
      (hmet : ∀ dispatch ∈ dispatched,
        TableOf settings connection.response calls dispatch.session.routes) :
      StageReads settings read dispatched calls (.connected connection)

/-- The client has read the first of the bytes that the peer was given to send, and the others are
on their way as long as the client has not given up the stream. -/
structure Delivers (settings : Settings) (read served : Bytes) (dispatched : List Dispatch)
    (calls : List RouteCall) (conversation : Conversation) : Prop where
  flows : read = [] ∨ 0 < conversation.link.toClient.capacity
  closes_last : conversation.ClosesLast
  unread : conversation.link.isDropped = false → read ++ conversation.unread = served
  first : read <+: served
  gave_up : conversation.link.isDropped = true → conversation.ReadsNoMore
  stage : StageReads settings read dispatched calls conversation.stage

section

variable {settings : Settings} {read served : Bytes} {dispatches : List Dispatch}
  {calls : List RouteCall} {before : Conversation}

theorem Delivers.connected
    (hbefore : Delivers settings read served dispatches calls before)
    {connection : Connection} (hstage : before.stage = .connected connection) :
    ∃ first, Attempt.judge first = .ok connection.response ∧
      Reader.Position settings.maxPacketSize read first dispatches connection.reader ∧
        TableOf settings connection.response calls connection.session.routes ∧
          ∀ dispatch ∈ dispatches,
            TableOf settings connection.response calls dispatch.session.routes := by
  have hholds := hbefore.stage
  rw [hstage] at hholds
  obtain _ | _ | _ | ⟨hanswer, hposition, htable, hmet⟩ := hholds
  exact ⟨_, hanswer, hposition, htable, hmet⟩

theorem Delivers.isDropped_eq_false
    (hbefore : Delivers settings read served dispatches calls before)
    {connection : Connection} (hstage : before.stage = .connected connection)
    (hleft : connection.reader ≠ .ended) : before.link.isDropped = false := by
  by_contra hdropped
  have hover := hbefore.gave_up (Bool.of_not_eq_false hdropped)
  rw [ReadsNoMore, hstage] at hover
  exact hleft hover

theorem Delivers.pass (hbefore : Delivers settings read served dispatches calls before)
    {after : Conversation} {added more : Bytes} {later : List Dispatch}
    {made : List RouteCall} (hpasses : Passes before after added more)
    (hopen : before.link.isDropped = true → more = [])
    (hover : before.ReadsNoMore → after.ReadsNoMore)
    (hstage : StageReads settings (read ++ more) later made after.stage) :
    Delivers settings (read ++ more) (served ++ added) later made after := by
  have hall (hkept : before.link.isDropped = false) :
      (read ++ more) ++ after.unread = served ++ added := by
    rw [List.append_assoc, ← hpasses.all hkept, ← List.append_assoc, hbefore.unread hkept]
  refine ⟨?_, hpasses.closes_last hbefore.closes_last, fun hkept => hall ?_, ?_,
    fun hdropped => ?_, hstage⟩
  · rw [List.append_eq_nil_iff, hpasses.capacity]
    have hread := hbefore.flows
    have hmore := hpasses.flows
    tauto
  · cases hdropped : before.link.isDropped with
    | false => rfl
    | true =>
        rw [hpasses.dropped hdropped] at hkept
        cases hkept
  · cases hdropped : before.link.isDropped with
    | false => exact ⟨_, hall hdropped⟩
    | true =>
        rw [hopen hdropped, List.append_nil]
        exact hbefore.first.trans (List.prefix_append _ _)
  · rcases hpasses.gave_up hdropped with hdropped | hover
    · exact hover (hbefore.gave_up hdropped)
    · exact hover

theorem Delivers.pollAttempt
    (hbefore : Delivers settings read served dispatches calls before) {chosen : Settings}
    {attempt : Attempt} (hconnecting : before.stage = .connecting chosen attempt)
    (index : SenderId) (made : List RouteCall) :
    ∃ more, Delivers settings (read ++ more) (served ++ []) (dispatches ++ []) made
      (before.pollAttempt chosen attempt index) := by
  have hreads : ¬ before.ReadsNoMore := by
    rw [ReadsNoMore, hconnecting]
    exact id
  have hstage := hbefore.stage
  rw [hconnecting] at hstage
  obtain _ | ⟨hlimit, hphase, hnone⟩ := hstage
  subst hnone
  rw [← hlimit] at hphase
  obtain ⟨more, htook, hstate⟩ := Attempt.proceeds_poll hphase before.now before.link
  have hopen (hdropped : before.link.isDropped = true) : more = [] :=
    absurd (hbefore.gave_up hdropped) hreads
  rw [hlimit] at hstate
  refine ⟨more, ?_⟩
  unfold Conversation.pollAttempt
  generalize attempt.poll before.now before.link = result at htook hstate
  obtain ⟨state, link⟩ := result
  cases hstate with
  | waiting hphase =>
      exact hbefore.pass (passes_of_took htook rfl id) hopen (absurd · hreads)
        (.connecting hlimit hphase rfl)
  | failed reason =>
      exact hbefore.pass (passes_of_drop htook rfl rfl trivial) hopen (absurd · hreads)
        (.failed _ _)
  | @accepted accepted hanswered =>
      unfold connect
      dsimp only
      split
      · obtain ⟨first, hanswer, hyields⟩ := hanswered
        have htable : TableOf settings accepted.response made
            (settings.routesWith accepted.response.server) :=
          ⟨[], List.nil_sublist _, rfl⟩
        have hconnected : StageReads settings (read ++ more) [] made
            (.connected (.establish settings accepted)) :=
          .connected hanswer (.starting rfl hyields) htable (List.forall_mem_nil _)
        exact hbefore.pass (passes_of_took htook rfl id) hopen (absurd · hreads) hconnected
      · exact hbefore.pass (passes_of_drop htook rfl rfl trivial) hopen (absurd · hreads)
          (.failed _ _)

theorem Delivers.opening
    (hbefore : Delivers settings read served dispatches calls before)
    (hstage : ∀ connection, before.stage ≠ .connected connection) (move : Move)
    (made : List RouteCall) :
    ∃ more, Delivers settings (read ++ more) (served ++ before.servedBy move)
      (dispatches ++ before.dispatchedBy move) made (before.move move) := by
  have hnone : before.dispatchedBy move = [] := by
    unfold dispatchedBy
    rw [connection?_eq_none hstage]
    split <;> rfl
  rw [hnone]
  rcases passes_opening hstage move with hpasses | ⟨chosen, attempt, index, rfl, hconnecting, hmove⟩
  · have hopening := Conversation.opening hstage move
    have hholds := hbefore.stage
    generalize before.move move = after at hpasses hopening
    have hkept (hsame : after.stage = before.stage) : ∃ more,
        Delivers settings (read ++ more) (served ++ before.servedBy move) (dispatches ++ []) made
          after := by
      refine ⟨[], hbefore.pass hpasses (fun _ => rfl) (fun hover => ?_) ?_⟩
      · rwa [ReadsNoMore, hsame]
      · rw [hsame, List.append_nil, List.append_nil]
        generalize before.stage = stage at hholds hstage
        cases hholds with
        | unconnected hread hnone => exact .unconnected hread hnone
        | connecting hlimit hphase hnone => exact .connecting hlimit hphase hnone
        | failed lifecycle routes => exact .failed lifecycle routes
        | connected => exact absurd rfl (hstage _)
    cases hopening with
    | aside hsame => exact hkept hsame
    | aborted hfailed =>
        refine ⟨[], hbefore.pass hpasses (fun _ => rfl) (fun _ => ?_) ?_⟩
        · rw [ReadsNoMore, hfailed]
          trivial
        · rw [hfailed]
          exact .failed _ _
    | begun hunconnected =>
        rw [hunconnected] at hholds
        obtain ⟨hread, hnone⟩ := hholds
        refine ⟨[], hbefore.pass hpasses (fun _ => rfl) (fun hover => ?_) ?_⟩
        · rw [ReadsNoMore, hunconnected] at hover
          exact hover.elim
        · refine .connecting rfl (.starting ?_) ?_
          · rw [hread, List.append_nil]
          · rw [hnone, List.append_nil]
    | polled hconnecting => exact hbefore.pollAttempt hconnecting _ made
  · rw [hmove]
    exact hbefore.pollAttempt hconnecting index made

theorem Delivers.aside
    (hbefore : Delivers settings read served dispatches calls before)
    {connection : Connection} (hstage : before.stage = .connected connection) {move : Move}
    (haside : move = .task .reader → connection.readerReady before.link = false) :
    Delivers settings (read ++ []) (served ++ before.servedBy move)
      (dispatches ++ before.dispatchedBy move) (calls ++ routeCallsBy move)
      (before.move move) := by
  obtain ⟨next, more, hnext, hreader, hresponse, hmore, hroutes⟩ :=
    exists_next_aside hstage haside
  obtain ⟨first, hanswer, hposition, htable, hmet⟩ := hbefore.connected hstage
  refine hbefore.pass (passes_aside hstage haside) (fun _ => rfl) (fun hover => ?_) ?_
  · rw [ReadsNoMore, hstage] at hover
    rw [ReadsNoMore, hnext]
    exact hreader.trans hover
  · rw [dispatchedBy_eq_nil hstage haside, List.append_nil, List.append_nil, hnext]
    refine .connected (hresponse ▸ hanswer) (hreader ▸ hposition) ?_ fun dispatch hmem => ?_
    · rw [hresponse, hroutes]
      exact htable.append hmore
    · rw [hresponse]
      exact (hmet dispatch hmem).append (List.nil_sublist _)

theorem Delivers.reading
    (hbefore : Delivers settings read served dispatches calls before)
    {connection : Connection} (hstage : before.stage = .connected connection)
    (hready : connection.readerReady before.link = true) :
    ∃ more, Delivers settings (read ++ more) (served ++ [])
      (dispatches ++ before.dispatchedBy (.task .reader)) calls
      (before.move (.task .reader)) := by
  have hleft := Connection.reader_ne_ended hready
  have hreads : ¬ before.ReadsNoMore := by
    rw [ReadsNoMore, hstage]
    exact hleft
  obtain ⟨first, hanswer, hposition, htable, hmet⟩ := hbefore.connected hstage
  obtain ⟨more, htook, hafter, hcomes⟩ :=
    Reader.turned_poll hposition hleft connection.session before.link
  obtain ⟨hroutes, hkept⟩ := hcomes.routes
  refine ⟨more, ?_⟩
  rw [dispatchedBy_reader hstage hready, move_reader hstage hready]
  refine hbefore.pass (passes_release htook _)
    (fun hdropped => absurd (hbefore.gave_up hdropped) hreads) (absurd · hreads) ?_
  refine .connected hanswer hafter ?_ (List.forall_mem_append.mpr ⟨hmet, fun dispatch hmem => ?_⟩)
  · change TableOf settings connection.response calls
      (Reader.poll ⟨connection.reader, connection.session, before.link⟩).session.routes
    rw [hkept]
    exact htable
  · rw [hroutes dispatch hmem]
    exact htable

theorem Delivers.move (hbefore : Delivers settings read served dispatches calls before)
    (move : Move) :
    ∃ more, Delivers settings (read ++ more) (served ++ before.servedBy move)
      (dispatches ++ before.dispatchedBy move) (calls ++ routeCallsBy move)
      (before.move move) := by
  by_cases hconnected : ∃ connection, before.stage = .connected connection
  · obtain ⟨connection, hstage⟩ := hconnected
    rcases reader_or_aside before connection move with ⟨rfl, hready⟩ | haside
    · have hread := hbefore.reading hstage hready
      rwa [← List.append_nil calls] at hread
    · exact ⟨[], hbefore.aside hstage haside⟩
  · exact hbefore.opening (not_exists.mp hconnected) move _

end

/-- Whatever happens, every packet behind the server's answer is where it has to be. -/
theorem exists_delivers (settings : Settings) (capacity : Nat) (fault : Fault)
    (moves : List Move) :
    ∃ read, Delivers settings read ((start settings capacity fault).served moves)
      ((start settings capacity fault).dispatched moves) (moves.flatMap routeCallsBy)
      ((start settings capacity fault).follow moves) := by
  -- On the moves; the last one meets what the moves before it have left.
  induction moves using List.reverseRecOn with
  | nil =>
      exact ⟨[], .inl rfl, nofun, fun _ => rfl, List.prefix_refl _, nofun, .unconnected rfl rfl⟩
  | append_singleton moves move ih =>
      obtain ⟨read, hbefore⟩ := ih
      obtain ⟨more, hafter⟩ := hbefore.move move
      refine ⟨read ++ more, ?_⟩
      rw [served, dispatched, collect_append_singleton, collect_append_singleton, follow_append,
        follow_cons, follow_nil, List.flatMap_append, List.flatMap_singleton]
      exact hafter

end Conversation

end RoutedSession
