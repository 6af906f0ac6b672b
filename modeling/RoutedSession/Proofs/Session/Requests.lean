import RoutedSession.Proofs.Pending.Owners
import RoutedSession.Proofs.Session.Journal
import RoutedSession.Proofs.Session.Termination

namespace RoutedSession

open Relation (ReflTransGen)

namespace CallState

/-- The waiting side of the request that a call waits with. -/
def answer? : CallState → Option PendingAnswer
  | sendingRequest _ answer _ | awaitingAnswer answer _ _ => some answer
  | _ => none

/-- The waiting side that a call has after a turn, or that it hands over where it ends. -/
def handle? : CallState → Option PendingAnswer
  | ended (.requested answer) => some answer
  | state => state.answer?

theorem handle?_eq_answer? {state : CallState}
    (hother : ∀ answer, state ≠ .ended (.requested answer)) : state.handle? = state.answer? := by
  unfold handle?
  split
  · exact absurd rfl (hother _)
  · rfl

/-- A call that has failed or has been given up. -/
inductive Fruitless : CallState → Prop where
  | failed (reason : SessionError) : Fruitless (.ended (.failed reason))
  | aborted : Fruitless (.ended .aborted)

theorem Fruitless.hasEnded {state : CallState} (hfruitless : state.Fruitless) :
    state.hasEnded = true := by
  cases hfruitless <;> rfl

theorem Fruitless.handle?_eq_none {state : CallState} (hfruitless : state.Fruitless) :
    state.handle? = none := by
  cases hfruitless <;> rfl

end CallState

namespace Session

variable {session after : Session} {live : List PendingAnswer}

theorem serves_terminate (hserves : session.pending.Serves live) (reason : CloseReason) :
    (session.terminate reason).pending.Serves live := by
  unfold terminate
  split
  · exact hserves
  · exact hserves.close

theorem ReaderChange.serves (hchange : ReaderChange session after)
    (hserves : session.pending.Serves live) : after.pending.Serves live := by
  cases hchange with
  | answered answer => exact hserves.resolve answer
  | replied hreply => exact hserves
  | told events => exact hserves

theorem WriterChange.serves (hchange : WriterChange session after)
    (hserves : session.pending.Serves live) : after.pending.Serves live := by
  cases hchange <;> exact hserves

theorem Goes.serves {Changes : Session → Session → Prop} {cause? : Option CloseReason}
    (hchanges : ∀ first last, Changes first last → first.pending.Serves live →
      last.pending.Serves live)
    (hgoes : session.Goes Changes cause? after) (hserves : session.pending.Serves live) :
    after.pending.Serves live := by
  have hon {last : Session} (hcourse : ReflTransGen Changes session last) :
      last.pending.Serves live := by
    induction hcourse with
    | refl => exact hserves
    | tail _ hchange ih => exact hchanges _ _ hchange ih
  cases hgoes with
  | on hcourse => exact hon hcourse
  | ends hcourse reason events => exact serves_terminate (hon hcourse) reason

end Session

namespace Connection

variable {connection : Connection} {answer : PendingAnswer} {live rest : List PendingAnswer}

/-- What a turn makes of a request with whose waiting side a call has come: it is had afterwards, or
its entry has gone, if there was one, and no other entry. -/
structure Settles (table : PendingTable) (answer : PendingAnswer) (rest : List PendingAnswer)
    (after : CallState × Connection) : Prop where
  serves : after.2.session.pending.Serves (after.1.handle?.toList ++ rest)
  released : after.1.handle? = none →
    after.2.session.pending.entries = table.entries.filter (· != answer.entry)

theorem settles_dropAnswer (hserves : connection.session.pending.Serves (answer :: rest))
    {state : CallState} (hnone : state.handle? = none) :
    Settles connection.session.pending answer rest (state, connection.dropAnswer answer) where
  serves := by
    rw [hnone]
    exact hserves.drop.1
  released _ := hserves.drop.2

theorem settles_pollAnswer (hserves : connection.session.pending.Serves (answer :: rest))
    (now : Nat) (deadline : Option Nat) (asJson : Bool) :
    Settles connection.session.pending answer rest
      (connection.pollAnswer now answer deadline asJson) := by
  unfold pollAnswer
  split
  · rename_i outcome pending hpoll
    have hresult : (CallState.ended (answerResult asJson outcome)).handle? = none := by
      unfold answerResult
      split
      · rfl
      · split <;> rfl
    have hdropped : pending = answer.drop connection.session.pending := by
      rw [← hserves.snd_poll (by rw [hpoll]; rfl), hpoll]
    rw [hdropped]
    exact settles_dropAnswer hserves hresult
  · split
    · exact settles_dropAnswer hserves rfl
    · exact ⟨hserves, nofun⟩

theorem settles_afterRequest (hserves : connection.session.pending.Serves (answer :: rest))
    (now : Nat) (frame : Frame) (use : AnswerUse) (sent : Outbox.Sent × Outbox) :
    Settles connection.session.pending answer rest
      (connection.afterRequest now frame answer use sent) := by
  obtain ⟨result, outbox⟩ := sent
  have hset : (connection.setOutbox outbox).session.pending.Serves (answer :: rest) := hserves
  cases result with
  | waiting => exact ⟨hserves, nofun⟩
  | failed reason => exact settles_dropAnswer hset rfl
  | done =>
      cases use with
      | keep => exact ⟨hserves, nofun⟩
      | await timeout asJson => exact settles_pollAnswer hset _ _ _

theorem settles_pollCall {state : CallState} (hanswer : state.answer? = some answer)
    (hserves : connection.session.pending.Serves (answer :: rest)) (now : Nat) (index : SenderId) :
    Settles connection.session.pending answer rest (connection.pollCall now index state) := by
  cases state with
  | sendingRequest frame other use =>
      obtain rfl := Option.some.inj hanswer
      exact settles_afterRequest hserves _ _ _ _
  | awaitingAnswer other deadline asJson =>
      obtain rfl := Option.some.inj hanswer
      exact settles_pollAnswer hserves _ _ _
  | _ => contradiction

theorem serves_beginRequest (hserves : connection.session.pending.Serves live) (now : Nat)
    (index : SenderId) (route : String) (payload : Bytes) (use : AnswerUse) :
    let begun := connection.beginRequest now index route payload use
    begun.2.session.pending.Serves (begun.1.handle?.toList ++ live) ∧
      (begun.1.handle? = none →
        begun.2.session.pending.entries = connection.session.pending.entries) := by
  intro begun
  have hbegun : begun = connection.beginRequest now index route payload use := rfl
  unfold beginRequest at hbegun
  split at hbegun
  · rename_i hfull
    have hnone : begun.1.handle? = none := by
      rw [hbegun]
      dsimp only
      split <;> rfl
    rw [hnone, hbegun]
    exact ⟨hserves, fun _ => rfl⟩
  · rename_i id ticket pending hregister
    have hregistered := hserves.register hregister
    have hsettles : Settles pending ⟨id, ticket⟩ live begun := by
      rw [hbegun]
      dsimp only
      have hset : (connection.setPending pending).session.pending.Serves
          (⟨id, ticket⟩ :: live) := hregistered
      split
      · exact settles_dropAnswer hset rfl
      · exact settles_afterRequest hset _ _ _ _
    refine ⟨hsettles.serves, fun hnone => ?_⟩
    -- The id was free, so no other entry is lost with the new one.
    obtain ⟨-, -, hfree, -, rfl⟩ := PendingTable.register_eq_some hregister
    rw [hsettles.released hnone]
    rw [PendingTable.ticket?_eq_none_iff] at hfree
    have hother : connection.session.pending.entries.filter
        (· != PendingAnswer.entry ⟨id, ticket⟩) = connection.session.pending.entries := by
      refine List.filter_eq_self.mpr fun entry hentry => ?_
      rw [bne_iff_ne]
      rintro rfl
      exact hfree _ hentry rfl
    simpa [PendingAnswer.entry] using hother

theorem pending_afterNotify (connection : Connection) (frame : Frame)
    (sent : Outbox.Sent × Outbox) :
    (connection.afterNotify frame sent).2.session.pending = connection.session.pending ∧
      (connection.afterNotify frame sent).1.handle? = none := by
  obtain ⟨result, outbox⟩ := sent
  cases result <;> exact ⟨rfl, rfl⟩

theorem pending_beginNotify (connection : Connection) (index : SenderId) (route : String)
    (payload : Bytes) :
    (connection.beginNotify index route payload).2.session.pending = connection.session.pending ∧
      (connection.beginNotify index route payload).1.handle? = none := by
  unfold beginNotify
  split
  · exact ⟨rfl, rfl⟩
  · exact pending_afterNotify _ _ _

theorem handle?_pollJoin (connection : Connection) (parts : List SessionPart) :
    (connection.pollJoin parts).1.handle? = none := by
  induction parts with
  | nil => rfl
  | cons part parts ih =>
      unfold pollJoin
      split
      · exact ih
      · rfl

theorem handle?_beginClose (connection : Connection) (index : SenderId) :
    (connection.beginClose index).1.handle? = none := by
  unfold beginClose
  dsimp only
  split
  · exact handle?_pollJoin _ _
  · rfl

theorem serves_pollCall {state : CallState} {now : Nat} {index : SenderId}
    (hready : connection.callReady now index state = true)
    (hserves : connection.session.pending.Serves (state.answer?.toList ++ rest)) :
    (connection.pollCall now index state).2.session.pending.Serves
      ((connection.pollCall now index state).1.handle?.toList ++ rest) := by
  have hsame {after : CallState × Connection}
      (hafter : after.2.session.pending = connection.session.pending ∧ after.1.handle? = none)
      (hserves : connection.session.pending.Serves rest) :
      after.2.session.pending.Serves (after.1.handle?.toList ++ rest) := by
    rw [hafter.1, hafter.2]
    exact hserves
  cases state with
  | starting action =>
      cases action with
      | sendRequest route payload => exact (serves_beginRequest hserves _ _ _ _ _).1
      | request route payload timeout => exact (serves_beginRequest hserves _ _ _ _ _).1
      | requestJson route value => exact (serves_beginRequest hserves _ _ _ _ _).1
      | notify route payload => exact hsame (pending_beginNotify _ _ _ _) hserves
      | close =>
          have hclosed := Session.serves_terminate hserves .byClient
          have hhandle := connection.handle?_beginClose index
          rw [← connection.session_beginClose index] at hclosed
          unfold pollCall beginCall
          dsimp only
          rw [hhandle]
          exact hclosed
      | awaitEnd =>
          refine hsame ⟨rfl, ?_⟩ hserves
          simp only [pollCall, beginCall, pollEnd]
          split <;> rfl
  | sendingRequest frame answer use => exact (settles_pollCall rfl hserves now index).serves
  | awaitingAnswer answer deadline asJson => exact (settles_pollCall rfl hserves now index).serves
  | sendingNotify frame => exact hsame (pending_afterNotify _ _ _) hserves
  | locking =>
      refine hsame ?_ hserves
      unfold pollCall
      dsimp only
      split
      · exact ⟨congrArg Session.pending (session_beginJoin _), handle?_pollJoin _ _⟩
      · exact ⟨rfl, rfl⟩
  | joining parts =>
      exact hsame ⟨congrArg Session.pending (session_pollJoin _ _), handle?_pollJoin _ _⟩ hserves
  | awaitingEnd =>
      refine hsame ⟨rfl, ?_⟩ hserves
      simp only [pollCall, pollEnd]
      split <;> rfl
  | connecting => simp [callReady] at hready
  | searching => simp [callReady] at hready
  | ended result => simp [callReady] at hready

theorem serves_abortCall {state : CallState} (index : SenderId)
    (hserves : connection.session.pending.Serves (state.answer?.toList ++ rest)) :
    (connection.abortCall index state).session.pending.Serves rest := by
  cases state with
  | sendingRequest frame answer use => exact hserves.drop.1
  | awaitingAnswer answer deadline asJson => exact hserves.drop.1
  | locking =>
      unfold abortCall
      dsimp only
      split
      · rw [session_unlock]
        exact hserves
      · exact hserves
  | joining parts =>
      unfold abortCall
      rw [session_unlock]
      exact hserves
  | _ => exact hserves

theorem entries_abortCall {state : CallState} (hanswer : state.answer? = some answer)
    (hserves : connection.session.pending.Serves (answer :: rest)) (index : SenderId) :
    (connection.abortCall index state).session.pending.entries =
      connection.session.pending.entries.filter (· != answer.entry) := by
  cases state with
  | sendingRequest frame other use =>
      obtain rfl := Option.some.inj hanswer
      exact hserves.drop.2
  | awaitingAnswer other deadline asJson =>
      obtain rfl := Option.some.inj hanswer
      exact hserves.drop.2
  | _ => contradiction

end Connection

namespace Conversation

/-- The waiting sides of all requests that somebody waits for or can still wait for. -/
def live (conversation : Conversation) : List PendingAnswer :=
  conversation.calls.filterMap (·.state.answer?) ++ conversation.kept.map Prod.snd

theorem perm_answers (front back : List Call) (call : Call) (kept : List PendingAnswer) :
    ((front ++ call :: back).filterMap (·.state.answer?) ++ kept).Perm
      (call.state.answer?.toList ++
        ((front ++ back).filterMap (·.state.answer?) ++ kept)) := by
  have hcons : (call :: back).filterMap (·.state.answer?) =
      call.state.answer?.toList ++ back.filterMap (·.state.answer?) := by
    cases hanswer : call.state.answer? <;> simp [hanswer]
  rw [List.filterMap_append, hcons, List.filterMap_append]
  simp only [List.append_assoc]
  exact List.perm_append_comm_assoc _ _ _

theorem exists_live_perm {conversation : Conversation} {index : SenderId} {call : Call}
    (hcall : conversation.calls[index]? = some call) :
    ∃ rest, conversation.live.Perm (call.state.answer?.toList ++ rest) ∧
      ∀ state, (conversation.settleCall index call state).live.Perm
        (state.handle?.toList ++ rest) := by
  obtain ⟨hlt, hfound⟩ := List.getElem?_eq_some_iff.mp hcall
  have hbefore : conversation.calls =
      conversation.calls.take index ++ call :: conversation.calls.drop (index + 1) := by
    rw [← hfound, List.getElem_cons_drop, List.take_append_drop]
  have hafter (state : CallState) : (conversation.setCall index state).calls =
      conversation.calls.take index ++
        { call with state } :: conversation.calls.drop (index + 1) := by
    rw [← hfound]
    exact List.modify_eq_take_cons_drop hlt
  generalize conversation.calls.take index = front at hbefore hafter
  generalize conversation.calls.drop (index + 1) = back at hbefore hafter
  refine ⟨(front ++ back).filterMap (·.state.answer?) ++ conversation.kept.map Prod.snd, ?_, ?_⟩
  · unfold live
    rw [hbefore]
    exact perm_answers front back call _
  · intro state
    unfold settleCall
    dsimp only
    split
    · -- The call hands its waiting side over, so it is among those that are kept.
      rename_i answer
      change (List.filterMap _ (conversation.setCall index _).calls ++
        (conversation.kept ++ [(call.slot, answer)]).map Prod.snd).Perm _
      rw [hafter, List.map_append, ← List.append_assoc]
      refine (List.perm_append_singleton _ _).trans (List.Perm.cons answer ?_)
      exact perm_answers front back { call with state := .ended (.requested answer) } _
    · rename_i hother
      change (List.filterMap _ (conversation.setCall index _).calls ++
        conversation.kept.map Prod.snd).Perm _
      rw [hafter, CallState.handle?_eq_answer? hother]
      exact perm_answers front back { call with state } _

theorem live_unkeep {conversation : Conversation} {slot : String} {answer : PendingAnswer}
    (hkept : conversation.kept.lookup slot = some answer) :
    conversation.live.Perm (answer :: (conversation.unkeep slot).live) := by
  obtain ⟨front, back, hsplit, hbefore⟩ := List.lookup_eq_some_iff.mp hkept
  have hfront : ∀ pair ∈ front, ¬(pair.1 == slot) = true := by
    intro pair hpair hsame
    have hdiffers := hbefore pair hpair
    rw [beq_iff_eq.mp hsame, bne_self_eq_false] at hdiffers
    contradiction
  unfold live unkeep
  rw [hsplit, List.eraseP_append_right _ hfront, List.eraseP_cons_of_pos (by simp)]
  simp only [List.map_append, List.map_cons, ← List.append_assoc]
  exact List.perm_middle

/-- The table of a session serves the live requests, and without a session there are none. -/
structure Accounts (conversation : Conversation) : Prop where
  connected : ∀ connection, conversation.stage = .connected connection →
    connection.session.pending.Serves conversation.live
  unconnected : (∀ connection, conversation.stage ≠ .connected connection) →
    conversation.live = []

theorem accounts_start (settings : Settings) (capacity : Nat) (fault : Fault) :
    (start settings capacity fault).Accounts where
  connected connection hstage := by simp [start] at hstage
  unconnected _ := rfl

theorem live_opening {before after : Conversation} {move : Move}
    (hopening : Opening before move after) (hnone : before.live = []) : after.live = [] := by
  obtain ⟨hcalls, hkept⟩ := List.append_eq_nil_iff.mp hnone
  rw [List.filterMap_eq_nil_iff] at hcalls
  refine List.append_eq_nil_iff.mpr ⟨List.filterMap_eq_nil_iff.mpr fun call hmem => ?_, ?_⟩
  · obtain ⟨index, hcall⟩ := List.mem_iff_getElem?.mp hmem
    rcases calls_opening hopening index with hsame | ⟨earlier, result, -, hended, -⟩
    · exact hcalls call (List.mem_of_getElem? (hsame.symm.trans hcall))
    · obtain rfl := Option.some.inj (hended.symm.trans hcall)
      rfl
  · rw [kept_opening hopening]
    exact hkept

/-- What a move makes of the session keeps up with what it makes of the live requests. -/
theorem serves_moved {before after : Conversation} {connection next : Connection} {move : Move}
    (hmoved : Moved before connection move after) (hstage : before.stage = .connected connection)
    (hserves : connection.session.pending.Serves before.live)
    (hnext : after.stage = .connected next) : next.session.pending.Serves after.live := by
  cases hmoved with
  | aside hquiet hafter hcalls hcarried hkept =>
      obtain rfl := Stage.connected.inj (hafter.symm.trans hnext)
      unfold live
      rw [hcalls, hkept]
      exact hserves
  | started slot action =>
      obtain rfl := Stage.connected.inj (hstage.symm.trans hnext)
      refine hserves.perm (List.Perm.of_eq ?_)
      simp [live, CallState.answer?]
  | tried route payload =>
      obtain rfl := Stage.connected.inj hnext
      unfold Connection.tryNotify
      split <;> exact hserves
  | told hquiet events pushed =>
      obtain rfl := Stage.connected.inj hnext
      exact hserves
  | changedRoutes hcall =>
      obtain rfl := Stage.connected.inj hnext
      exact hserves
  | dropped hheld hidle =>
      obtain rfl := Stage.connected.inj hnext
      exact Session.serves_terminate hserves .byClient
  | looked hkept hcame =>
      obtain rfl := Stage.connected.inj hnext
      have hanswer := hserves.perm (live_unkeep hkept)
      have hdropped := hanswer.drop.1
      rw [← hanswer.snd_poll hcame] at hdropped
      exact hdropped
  | gaveUp hkept =>
      obtain rfl := Stage.connected.inj hnext
      exact (hserves.perm (live_unkeep hkept)).drop.1
  | @aborted slot index call hcall hrunning =>
      obtain rfl := Stage.connected.inj hnext
      obtain ⟨rest, hbefore, hafter⟩ := exists_live_perm hcall
      have haborted := Connection.serves_abortCall index (hserves.perm hbefore)
      exact haborted.perm (hafter (.ended .aborted)).symm
  | @polled index call hcall hready =>
      rw [stage_settleCall] at hnext
      obtain rfl := Stage.connected.inj hnext
      -- The call is settled in what its turn has made of the conversation, with the same calls.
      obtain ⟨rest, hbefore, hafter⟩ := @exists_live_perm
        (before.setConnection (connection.pollCall before.now index call.state).2) index call hcall
      have hpolled := Connection.serves_pollCall hready (hserves.perm hbefore)
      exact hpolled.perm (hafter _).symm
  | wrote hready =>
      obtain rfl := Stage.connected.inj hnext
      obtain ⟨cause?, hgoes, -⟩ := connection.goes_pollWriter before.link
      exact hgoes.serves (fun _ _ hchange => hchange.serves) hserves
  | read hready =>
      obtain rfl := Stage.connected.inj hnext
      obtain ⟨cause?, hgoes, -⟩ := connection.reader.goes_poll connection.session before.link
      exact hgoes.serves (fun _ _ hchange => hchange.serves) hserves

theorem Accounts.move {conversation : Conversation} (hbefore : conversation.Accounts)
    (move : Move) :
    (conversation.move move).Accounts := by
  by_cases hconnected : ∃ connection, conversation.stage = .connected connection
  · obtain ⟨connection, hstage⟩ := hconnected
    have hmoved := moved hstage move
    constructor
    · intro next hnext
      exact serves_moved hmoved hstage (hbefore.connected connection hstage) hnext
    · intro hnone
      obtain ⟨next, -, hnext, -, -⟩ := exists_goes_move hstage move
      exact absurd hnext (hnone next)
  · rw [not_exists] at hconnected
    have hopening := opening hconnected move
    have hlive := live_opening hopening (hbefore.unconnected hconnected)
    constructor
    · intro next hnext
      obtain ⟨settings, accepted, rfl⟩ := establish_of_opening hopening hconnected hnext
      rw [hlive]
      exact PendingTable.serves_empty 0
    · exact fun _ => hlive

theorem Accounts.follow {conversation : Conversation} (hbefore : conversation.Accounts)
    (moves : List Move) : (conversation.follow moves).Accounts := by
  induction moves generalizing conversation with
  | nil => exact hbefore
  | cons move moves ih => exact ih (hbefore.move move)

section

variable {before after : Conversation} {connection next : Connection} {move : Move}
  {index : SenderId} {call ended : Call} {answer : PendingAnswer}

theorem ended_cases (hstage : before.stage = .connected connection)
    (hcall : before.calls[index]? = some call) (hrunning : call.state.hasEnded = false)
    (hnext : (before.move move).stage = .connected next)
    (hended : (before.move move).calls[index]? = some ended)
    (hgone : ended.state.hasEnded = true) :
    next = connection.abortCall index call.state ∨
      (ended.state, next) = connection.pollCall before.now index call.state := by
  have hkept {after : Conversation} (hsame : after.calls[index]? = before.calls[index]?)
      (hended : after.calls[index]? = some ended) : False := by
    rw [hsame, hcall] at hended
    obtain rfl := Option.some.inj hended
    rw [hrunning] at hgone
    contradiction
  have hmoved := moved hstage move
  generalize before.move move = after at hmoved hnext hended
  cases hmoved with
  | aside hquiet hafter hcalls => exact (hkept (by rw [hcalls]) hended).elim
  | started slot action =>
      have hlt := (List.getElem?_eq_some_iff.mp hcall).1
      exact (hkept (List.getElem?_append_left hlt) hended).elim
  | @aborted slot other found hfound hrunning =>
      obtain rfl := Stage.connected.inj hnext
      by_cases hother : other = index
      · subst hother
        obtain rfl := Option.some.inj (hcall.symm.trans hfound)
        exact .inl rfl
      · refine (hkept ?_ hended).elim
        exact (getElem?_setCall _ _ _ _).trans (if_neg hother)
  | @polled other found hfound hready =>
      rw [stage_settleCall] at hnext
      obtain rfl := Stage.connected.inj hnext
      rw [calls_settleCall, getElem?_setCall] at hended
      change (if other = index then before.calls[index]?.map _ else before.calls[index]?) = _
        at hended
      by_cases hother : other = index
      · subst hother
        obtain rfl := Option.some.inj (hcall.symm.trans hfound)
        rw [if_pos rfl, hcall] at hended
        obtain rfl := Option.some.inj hended
        exact .inr rfl
      · rw [if_neg hother] at hended
        exact (hkept rfl hended).elim
  | _ => exact (hkept rfl hended).elim

theorem entries_of_ended (hbefore : before.Accounts) (hstage : before.stage = .connected connection)
    (hcall : before.calls[index]? = some call) (hanswer : call.state.answer? = some answer)
    (hnext : (before.move move).stage = .connected next)
    (hended : (before.move move).calls[index]? = some ended)
    (hgone : ended.state.hasEnded = true) (hnone : ended.state.handle? = none) :
    next.session.pending.entries =
      connection.session.pending.entries.filter (· != answer.entry) := by
  have hrunning : call.state.hasEnded = false := by
    cases hstate : call.state <;> simp [hstate, CallState.answer?, CallState.hasEnded] at hanswer ⊢
  obtain ⟨rest, hlive, -⟩ := exists_live_perm hcall
  rw [hanswer] at hlive
  have hserves := (hbefore.connected connection hstage).perm hlive
  rcases ended_cases hstage hcall hrunning hnext hended hgone with rfl | hpolled
  · exact Connection.entries_abortCall hanswer hserves index
  · have hsettles := Connection.settles_pollCall hanswer hserves before.now index
    rw [← hpolled] at hsettles
    exact hsettles.released hnone

theorem entries_of_refused (hbefore : before.Accounts)
    (hstage : before.stage = .connected connection) {slot : String} {action : CallAction}
    {isTold : Bool} (hcall : before.calls[index]? = some ⟨slot, .starting action, isTold⟩)
    (hrequest : action.request?.isSome = true) (hnext : (before.move move).stage = .connected next)
    (hended : (before.move move).calls[index]? = some ended)
    (hgone : ended.state.hasEnded = true) (hnone : ended.state.handle? = none) :
    next.session.pending.entries = connection.session.pending.entries := by
  have hserves := hbefore.connected connection hstage
  rcases ended_cases hstage hcall rfl hnext hended hgone with rfl | hpolled
  · rfl
  · have hbegun (route : String) (payload : Bytes) (use : AnswerUse)
        (hbegin : (ended.state, next) =
          connection.beginRequest before.now index route payload use) :
        next.session.pending.entries = connection.session.pending.entries := by
      have hrefused := (Connection.serves_beginRequest hserves before.now index route payload use).2
      rw [← hbegin] at hrefused
      exact hrefused hnone
    cases action with
    | sendRequest route payload => exact hbegun _ _ _ hpolled
    | request route payload timeout => exact hbegun _ _ _ hpolled
    | requestJson route value => exact hbegun _ _ _ hpolled
    | _ => contradiction

end

/-- The entries of the pending table of a session that some moves have led to from the start. -/
structure EntriesLive (first : Conversation) (moves : List Move) (connection : Connection) :
    Prop where
  /-- They are those of the live requests without an outcome. -/
  entries_perm : connection.session.pending.entries.Perm
    (((first.follow moves).live.filter
      fun answer => !answer.hasOutcome connection.session.pending).map PendingAnswer.entry)
  ids_distinct : (connection.session.pending.entries.map Prod.fst).Nodup
  /-- A request that ends without an answer takes its own id with it and no other, unless it has an
  outcome by then. -/
  released : ∀ move (index : SenderId) (call ended : Call) answer next,
    (first.follow moves).calls[index]? = some call → call.state.answer? = some answer →
      (first.follow (moves ++ [move])).calls[index]? = some ended → ended.state.Fruitless →
        (first.follow (moves ++ [move])).stage = .connected next →
          next.session.pending.entries =
            if answer.hasOutcome connection.session.pending then
              connection.session.pending.entries
            else connection.session.pending.entries.filter (·.1 != answer.id)
  /-- A request that ends so in the move in which it begins leaves the ids as they were. The one
  that it has been given is not among them. -/
  refused : ∀ move (index : SenderId) slot action isTold (ended : Call) next,
    (first.follow moves).calls[index]? = some ⟨slot, .starting action, isTold⟩ →
      action.request?.isSome = true →
        (first.follow (moves ++ [move])).calls[index]? = some ended → ended.state.Fruitless →
          (first.follow (moves ++ [move])).stage = .connected next →
            next.session.pending.entries = connection.session.pending.entries ∧
              ∀ id ticket pending,
                connection.session.pending.register = some ((id, ticket), pending) →
                  next.session.pending.isPending id = false

/-- No entry of the pending table is left behind and none is removed early, whatever happens in
whatever order. -/
theorem follow_entriesLive {settings : Settings} {capacity : Nat} {fault : Fault}
    {moves : List Move} {connection : Connection}
    (hstage : ((start settings capacity fault).follow moves).stage = .connected connection) :
    EntriesLive (start settings capacity fault) moves connection := by
  have hnow := (accounts_start settings capacity fault).follow moves
  have hserves := hnow.connected connection hstage
  constructor
  case entries_perm => exact hserves.entries_perm
  case ids_distinct => exact List.pairwise_map.mpr hserves.sound.ids_distinct
  case released =>
    intro move index call ended answer next hcall hanswer hended hfruitless hnext
    rw [follow_append] at hended hnext
    obtain ⟨rest, hlive, -⟩ := exists_live_perm hcall
    have hmem : answer ∈ ((start settings capacity fault).follow moves).live := by
      rw [hlive.mem_iff, hanswer]
      exact List.mem_cons_self
    rw [← hserves.filter_ne_entry hmem]
    exact entries_of_ended hnow hstage hcall hanswer hnext hended hfruitless.hasEnded
      hfruitless.handle?_eq_none
  case refused =>
    intro move index slot action isTold ended next hcall hrequest hended hfruitless hnext
    rw [follow_append] at hended hnext
    have hsame := entries_of_refused hnow hstage hcall hrequest hnext hended hfruitless.hasEnded
      hfruitless.handle?_eq_none
    refine ⟨hsame, fun id ticket pending hregister => ?_⟩
    have hfree := (PendingTable.register_eq_some hregister).2.2.1
    rw [PendingTable.isPending, hsame, ← PendingTable.isPending,
      PendingTable.isPending_eq_isSome, hfree, Option.isSome_none]

/-- One request awaits its answer, and the waiting side of another is kept. -/
def twoPending : List Move :=
  acceptance ++
    [.command (.onSession (.call "request" (.request "room.join" [1, 2, 3] (some 500)))),
      .command (.onSession (.call "kept" (.sendRequest "room.leave" []))), .task (.call 1),
      .task (.call 2)]

theorem follow_entriesLive_twoPending :
    ∃ connection, ((start {} 4096 {}).follow twoPending).stage = .connected connection ∧
      connection.session.pending.entries = [(2, 1), (1, 0)] ∧
        EntriesLive (start {} 4096 {}) twoPending connection := by
  have hentries : ((start {} 4096 {}).follow twoPending).connection?.map
      (·.session.pending.entries) = some [(2, 1), (1, 0)] := by
    decide +kernel
  obtain ⟨connection, hconnection, hpending⟩ := Option.map_eq_some_iff.mp hentries
  have hstage := connection?_eq_some_iff.mp hconnection
  exact ⟨connection, hstage, hpending, follow_entriesLive hstage⟩

end Conversation

end RoutedSession
