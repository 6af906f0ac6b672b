import RoutedSession.Proofs.Session.Handover
import RoutedSession.Proofs.Session.Sending

namespace RoutedSession

namespace CallState

def awaited : CallState → List SessionPart
  | joining parts => parts
  | _ => []

def hasClosed : CallState → Bool
  | ended .closed => true
  | _ => false

theorem eq_of_hasClosed {state : CallState} (hclosed : state.hasClosed = true) :
    state = .ended .closed := by
  unfold hasClosed at hclosed
  split at hclosed
  · rfl
  · cases hclosed

/-- A call that closes the session and has not ended. -/
inductive Closes : CallState → Prop where
  | starting : Closes (.starting .close)
  | locking : Closes .locking
  | joining (parts : List SessionPart) : Closes (.joining parts)

end CallState

namespace Connection

/-- A turn that has to do with nothing but the session. -/
structure Apart (connection : Connection) (after : CallState × Connection) : Prop where
  same : after.2 = { connection with session := after.2.session }
  other : ∀ parts, after.1 ≠ .joining parts

section

variable (connection : Connection)

theorem apart_pollAnswer (now : Nat) (answer : PendingAnswer) (deadline : Option Nat)
    (asJson : Bool) : connection.Apart (connection.pollAnswer now answer deadline asJson) := by
  unfold pollAnswer
  split
  · exact ⟨rfl, nofun⟩
  · split <;> exact ⟨rfl, nofun⟩

theorem apart_afterRequest (now : Nat) (frame : Frame) (answer : PendingAnswer) (use : AnswerUse)
    (sent : Outbox.Sent × Outbox) :
    connection.Apart (connection.afterRequest now frame answer use sent) := by
  obtain ⟨result, outbox⟩ := sent
  cases result with
  | waiting => exact ⟨rfl, nofun⟩
  | failed reason => exact ⟨rfl, nofun⟩
  | done =>
      cases use with
      | keep => exact ⟨rfl, nofun⟩
      | await timeout asJson =>
          obtain ⟨hsame, hother⟩ := (connection.setOutbox outbox).apart_pollAnswer now answer
            (timeout.map (now + ·)) asJson
          exact ⟨hsame, hother⟩

theorem apart_beginRequest (now : Nat) (index : SenderId) (route : String) (payload : Bytes)
    (use : AnswerUse) :
    connection.Apart (connection.beginRequest now index route payload use) := by
  unfold beginRequest
  split
  · refine ⟨rfl, ?_⟩
    dsimp only
    split <;> nofun
  · dsimp only
    split
    · exact ⟨rfl, nofun⟩
    · obtain ⟨hsame, hother⟩ := apart_afterRequest (connection.setPending _) now _ _ use _
      exact ⟨hsame, hother⟩

theorem apart_afterNotify (frame : Frame) (sent : Outbox.Sent × Outbox) :
    connection.Apart (connection.afterNotify frame sent) := by
  obtain ⟨result, outbox⟩ := sent
  cases result <;> exact ⟨rfl, nofun⟩

theorem apart_beginNotify (index : SenderId) (route : String) (payload : Bytes) :
    connection.Apart (connection.beginNotify index route payload) := by
  unfold beginNotify
  split
  · exact ⟨rfl, nofun⟩
  · exact connection.apart_afterNotify _ _

theorem apart_pollEnd : connection.Apart connection.pollEnd := by
  refine ⟨rfl, ?_⟩
  unfold pollEnd
  dsimp only
  split <;> nofun

/-- What comes of awaiting the ends of parts with the lock. -/
inductive Joins (parts : List SessionPart) : CallState × Connection → Prop where
  | waits {left : List SessionPart}
      (hleft : ∀ part ∈ parts, connection.hasEnded part = true ∨ part ∈ left) :
      Joins parts (.joining left, connection)
  | returns (hended : ∀ part ∈ parts, connection.hasEnded part = true) :
      Joins parts (.ended .closed, connection.unlock)

theorem joins_pollJoin (parts : List SessionPart) :
    connection.Joins parts (connection.pollJoin parts) := by
  induction parts with
  | nil => exact .returns nofun
  | cons part rest ih =>
      unfold pollJoin
      split
      · rename_i hpart
        generalize connection.pollJoin rest = after at ih
        cases ih with
        | waits hleft => exact .waits (List.forall_mem_cons.mpr ⟨.inl hpart, hleft⟩)
        | returns hended => exact .returns (List.forall_mem_cons.mpr ⟨hpart, hended⟩)
      · exact .waits fun _ hmem => .inr hmem

end

/-- What a turn of a call does with the lock. -/
inductive LockTurn (connection : Connection) (index : SenderId) (state : CallState) :
    CallState × Connection → Prop where
  | without {after : CallState × Connection} (hafter : ∀ parts, after.1 ≠ .joining parts)
      (hbefore : ∀ parts, state ≠ .joining parts) (hcloses : state.Closes → after.1.Closes)
      (hjoining : after.2.joining = connection.joining)
      (hunjoined : after.2.unjoined = connection.unjoined)
      (hended : after.2.hasEnded = connection.hasEnded) : LockTurn connection index state after
  /-- The call has the lock, and has taken all parts that it finds. -/
  | holds {held : Connection} {taken : List SessionPart} {after : CallState × Connection}
      (hfree : connection.joining = none ∨ connection.joining = some index)
      (htaken : ∀ part, part ∈ state.awaited ∨ part ∈ connection.unjoined → part ∈ taken)
      (hjoining : held.joining = some index) (hunjoined : held.unjoined = [])
      (hended : held.hasEnded = connection.hasEnded) (hjoins : held.Joins taken after) :
      LockTurn connection index state after

section

variable {connection : Connection} {index : SenderId}

theorem hasEnded_of_parts {after : Connection} (hwriter : after.writer = connection.writer)
    (hreader : after.reader = connection.reader) : after.hasEnded = connection.hasEnded := by
  funext part
  cases part with
  | writer => exact congrArg Writer.hasEnded hwriter
  | reader =>
      unfold hasEnded
      dsimp only
      rw [hreader]

theorem Apart.lockTurn {state : CallState} {after : CallState × Connection}
    (hapart : connection.Apart after) (hbefore : ∀ parts, state ≠ .joining parts)
    (hother : ¬ state.Closes) : connection.LockTurn index state after := by
  refine .without hapart.other hbefore (fun hcloses => absurd hcloses hother) ?_ ?_
    (hasEnded_of_parts ?_ ?_) <;> rw [hapart.same]

theorem lockTurn_beginJoin {held : Connection} {state : CallState} (hbefore : state.awaited = [])
    (hfree : connection.joining = none ∨ connection.joining = some index)
    (hjoining : held.joining = some index) (hunjoined : held.unjoined = connection.unjoined)
    (hended : held.hasEnded = connection.hasEnded) :
    connection.LockTurn index state held.beginJoin := by
  have hjoins : ({ held with unjoined := [] } : Connection).Joins connection.unjoined
      held.beginJoin := by
    rw [← hunjoined]
    exact joins_pollJoin _ _
  refine .holds hfree (fun part hmem => ?_) ?_ ?_ ?_ hjoins
  · rw [hbefore] at hmem
    exact hmem.resolve_left List.not_mem_nil
  · exact hjoining
  · rfl
  · exact hended

theorem lockTurn_pollCall (now : Nat) {state : CallState}
    (hholds : ∀ parts, state = .joining parts →
      connection.joining = some index ∧ connection.unjoined = []) :
    connection.LockTurn index state (connection.pollCall now index state) := by
  cases state with
  | starting action =>
      cases action with
      | sendRequest route payload => exact (apart_beginRequest ..).lockTurn nofun nofun
      | request route payload timeout => exact (apart_beginRequest ..).lockTurn nofun nofun
      | requestJson route value => exact (apart_beginRequest ..).lockTurn nofun nofun
      | notify route payload => exact (apart_beginNotify ..).lockTurn nofun nofun
      | awaitEnd => exact connection.apart_pollEnd.lockTurn nofun nofun
      | close =>
          change connection.LockTurn index _ (connection.beginClose index)
          unfold beginClose
          dsimp only
          split
          · rename_i hfree
            exact lockTurn_beginJoin rfl (.inl hfree) rfl rfl rfl
          · exact .without nofun nofun (fun _ => .locking) rfl rfl rfl
  | sendingRequest frame answer use => exact (apart_afterRequest ..).lockTurn nofun nofun
  | sendingNotify frame => exact (apart_afterNotify ..).lockTurn nofun nofun
  | awaitingAnswer answer deadline asJson => exact (apart_pollAnswer ..).lockTurn nofun nofun
  | locking =>
      unfold pollCall
      dsimp only
      split
      · rename_i hmine
        exact lockTurn_beginJoin rfl (.inr hmine) hmine rfl rfl
      · exact .without nofun nofun id rfl rfl rfl
  | joining parts =>
      obtain ⟨hmine, hnone⟩ := hholds parts rfl
      refine .holds (.inr hmine) (fun part hmem => ?_) hmine hnone rfl
        (connection.joins_pollJoin parts)
      rw [hnone] at hmem
      exact hmem.resolve_right List.not_mem_nil
  | awaitingEnd => exact connection.apart_pollEnd.lockTurn nofun nofun
  | connecting => exact .without nofun nofun id rfl rfl rfl
  | searching => exact .without nofun nofun id rfl rfl rfl
  | ended result => exact .without nofun nofun id rfl rfl rfl

end

section

variable (connection : Connection)

@[simp] theorem unjoined_unlock : connection.unlock.unjoined = connection.unjoined := by
  unfold unlock
  split <;> rfl

@[simp] theorem hasEnded_unlock : connection.unlock.hasEnded = connection.hasEnded := by
  unfold unlock
  split <;> rfl

theorem unjoined_abortCall (index : SenderId) (state : CallState) :
    (connection.abortCall index state).unjoined = connection.unjoined := by
  cases state with
  | locking =>
      unfold abortCall
      dsimp only
      split
      · exact connection.unjoined_unlock
      · rfl
  | joining parts => exact connection.unjoined_unlock
  | _ => rfl

theorem hasEnded_abortCall (index : SenderId) (state : CallState) :
    (connection.abortCall index state).hasEnded = connection.hasEnded :=
  hasEnded_of_parts (connection.writer_abortCall index state)
    (connection.keepsReader_abortCall index state).reader

theorem hasEnded_pollCall (now : Nat) (index : SenderId) (state : CallState) :
    (connection.pollCall now index state).2.hasEnded = connection.hasEnded :=
  hasEnded_of_parts (connection.writer_pollCall now index state)
    (connection.keepsReader_pollCall now index state).reader

theorem joining_abortCall {index : SenderId} {state : CallState}
    (hholds : ∀ parts, state = .joining parts → connection.joining = some index) :
    (connection.abortCall index state).joining = connection.joining ∨
      connection.joining = some index := by
  cases state with
  | locking =>
      unfold abortCall
      dsimp only
      split
      · rename_i hmine
        exact .inr hmine
      · exact .inl rfl
  | joining parts => exact .inr (hholds parts rfl)
  | _ => exact .inl rfl

theorem hasEnded_pollWriter {link : Link} (hready : connection.writerReady link = true)
    {part : SessionPart} (hended : connection.hasEnded part = true) :
    (connection.pollWriter link).1.hasEnded part = true := by
  cases part with
  | reader => exact hended
  | writer =>
      change connection.writer.hasEnded = true at hended
      unfold writerReady at hready
      cases hwriter : connection.writer <;> rw [hwriter] at hended hready <;> contradiction

theorem hasEnded_pollReader {link : Link} (hready : connection.readerReady link = true)
    {part : SessionPart} (hended : connection.hasEnded part = true) :
    (connection.pollReader link).1.hasEnded part = true := by
  cases part with
  | writer => exact hended
  | reader =>
      unfold hasEnded at hended
      dsimp only at hended
      split at hended
      · rename_i hover
        exact absurd hover (reader_ne_ended hready)
      · contradiction

end

end Connection

namespace Conversation

def state? (conversation : Conversation) (index : SenderId) : Option CallState :=
  conversation.calls[index]?.map (·.state)

def awaited (conversation : Conversation) : List SessionPart :=
  conversation.calls.flatMap (·.state.awaited)

/-- The parts whose ends nobody awaits any more, because a call is given up that did. -/
def abandonedBy (conversation : Conversation) : Move → List SessionPart
  | .command (.abort slot) =>
      conversation.awaited.filter fun part =>
        !(conversation.move (.command (.abort slot))).awaited.contains part
  | _ => []

def abandoned (conversation : Conversation) (moves : List Move) : List SessionPart :=
  conversation.collect abandonedBy moves

theorem mem_awaited_iff {conversation : Conversation} {part : SessionPart} :
    part ∈ conversation.awaited ↔
      ∃ (index : SenderId) (parts : List SessionPart),
        conversation.state? index = some (.joining parts) ∧ part ∈ parts := by
  rw [awaited, List.mem_flatMap]
  constructor
  · rintro ⟨call, hcall, hmem⟩
    obtain ⟨index, hindex⟩ := List.mem_iff_getElem?.mp hcall
    cases hstate : call.state with
    | joining parts =>
        rw [hstate] at hmem
        exact ⟨index, parts, by rw [state?, hindex, Option.map_some, hstate], hmem⟩
    | _ =>
        rw [hstate] at hmem
        contradiction
  · rintro ⟨index, parts, hstate, hmem⟩
    obtain ⟨call, hcall, hparts⟩ := Option.map_eq_some_iff.mp hstate
    exact ⟨call, List.mem_of_getElem? hcall, by rwa [hparts]⟩

/-- Whoever awaits the ends of parts has the lock, and has taken all parts that were left. No part
is forgotten but those that were abandoned. -/
structure Guarded (conversation : Conversation) (lost : List SessionPart)
    (connection : Connection) : Prop where
  holder : ∀ (index : SenderId) parts, conversation.state? index = some (.joining parts) →
    connection.joining = some index ∧ connection.unjoined = []
  accounted : ∀ part, connection.hasEnded part = true ∨ part ∈ connection.unjoined ∨
    part ∈ conversation.awaited ∨ part ∈ lost

section

variable {before after : Conversation} {connection next : Connection} {lost : List SessionPart}

theorem Guarded.of_same (hguarded : before.Guarded lost connection)
    (hstates : ∀ (index : SenderId) parts, after.state? index = some (.joining parts) ↔
      before.state? index = some (.joining parts))
    (hjoining : next.joining = connection.joining) (hunjoined : next.unjoined = connection.unjoined)
    (hended : ∀ part, connection.hasEnded part = true → next.hasEnded part = true)
    (more : List SessionPart) : after.Guarded (lost ++ more) next where
  holder index parts hstate := by
    rw [hjoining, hunjoined]
    exact hguarded.holder index parts ((hstates index parts).mp hstate)
  accounted part := by
    have hawaited : part ∈ after.awaited ↔ part ∈ before.awaited := by
      simp only [mem_awaited_iff, hstates]
    rw [hawaited, hunjoined]
    rcases hguarded.accounted part with hover | hleft | hmem | hlost
    · exact .inl (hended part hover)
    · exact .inr (.inl hleft)
    · exact .inr (.inr (.inl hmem))
    · exact .inr (.inr (.inr (List.mem_append_left more hlost)))

theorem state?_of_calls (hcalls : after.calls = before.calls) (index : SenderId) :
    after.state? index = before.state? index := by
  rw [state?, hcalls, state?]

theorem state?_setCall {conversation : Conversation} {index : SenderId} {call : Call}
    (hcall : conversation.calls[index]? = some call) (state : CallState) (other : SenderId) :
    (conversation.setCall index state).state? other =
      if index = other then some state else conversation.state? other := by
  rw [state?, getElem?_setCall, state?]
  split
  · rename_i hsame
    rw [← hsame, hcall]
    rfl
  · rfl

theorem Guarded.ended_or_taken (hguarded : before.Guarded lost connection) {index : SenderId}
    {state : CallState} {taken : List SessionPart} (hstate : before.state? index = some state)
    (hfree : connection.joining = none ∨ connection.joining = some index)
    (htaken : ∀ part, part ∈ state.awaited ∨ part ∈ connection.unjoined → part ∈ taken)
    (part : SessionPart) : connection.hasEnded part = true ∨ part ∈ taken ∨ part ∈ lost := by
  rcases hguarded.accounted part with hover | hleft | hmem | hlost
  · exact .inl hover
  · exact .inr (.inl (htaken part (.inr hleft)))
  · -- Whoever awaits the end of the part has the lock, and so is this call.
    obtain ⟨other, parts, hother, hmem⟩ := mem_awaited_iff.mp hmem
    have hlock := (hguarded.holder other parts hother).1
    rcases hfree with hnone | hmine
    · cases hnone.symm.trans hlock
    · obtain rfl := Option.some.inj (hmine.symm.trans hlock)
      obtain rfl := Option.some.inj (hstate.symm.trans hother)
      exact .inr (.inl (htaken part (.inl hmem)))
  · exact .inr (.inr hlost)

theorem Guarded.abort (hguarded : before.Guarded lost connection) {index : SenderId} {slot : String}
    {state : CallState} (hstate : before.state? index = some state)
    (hafter : ∀ other, (before.move (.command (.abort slot))).state? other =
      if index = other then some (.ended .aborted) else before.state? other) :
    (before.move (.command (.abort slot))).Guarded
      (lost ++ before.abandonedBy (.command (.abort slot))) (connection.abortCall index state) where
  holder other parts hother := by
    rw [hafter] at hother
    split at hother
    · cases hother
    · rename_i hdistinct
      obtain ⟨hlock, hnone⟩ := hguarded.holder other parts hother
      refine ⟨?_, (connection.unjoined_abortCall index state).trans hnone⟩
      rcases connection.joining_abortCall fun own hown =>
        (hguarded.holder index own (hown ▸ hstate)).1 with hsame | hmine
      · exact hsame.trans hlock
      · exact absurd (Option.some.inj (hmine.symm.trans hlock)) hdistinct
  accounted part := by
    rw [connection.hasEnded_abortCall, connection.unjoined_abortCall]
    rcases hguarded.accounted part with hover | hleft | hmem | hlost
    · exact .inl hover
    · exact .inr (.inl hleft)
    · by_cases hstill : part ∈ (before.move (.command (.abort slot))).awaited
      · exact .inr (.inr (.inl hstill))
      · refine .inr (.inr (.inr (List.mem_append_right lost (List.mem_filter.mpr ⟨hmem, ?_⟩))))
        simpa using hstill
    · exact .inr (.inr (.inr (List.mem_append_left _ hlost)))

theorem Guarded.turn (hguarded : before.Guarded lost connection) {index : SenderId}
    {state : CallState} {turned : CallState × Connection}
    (hstate : before.state? index = some state)
    (hturn : connection.LockTurn index state turned)
    (hafter : ∀ other, after.state? other =
      if index = other then some turned.1 else before.state? other) (more : List SessionPart) :
    after.Guarded (lost ++ more) turned.2 := by
  cases hturn with
  | without hother hbefore hcloses hjoining hunjoined hended =>
      refine hguarded.of_same (fun other parts => ?_) hjoining hunjoined (fun part hover => ?_) more
      · rw [hafter]
        split
        · rename_i hsame
          subst hsame
          rw [hstate, Option.some_inj, Option.some_inj]
          exact iff_of_false (hother parts) (hbefore parts)
        · rfl
      · rw [hended]
        exact hover
  | @holds held taken _ hfree htaken hjoining hunjoined hended hjoins =>
      -- Nobody else awaits the end of a part.
      have halone (other : SenderId) (parts : List SessionPart)
          (hother : after.state? other = some (.joining parts)) :
          index = other ∧ turned.1 = .joining parts := by
        rw [hafter] at hother
        split at hother
        · rename_i hsame
          exact ⟨hsame, Option.some.inj hother⟩
        · rename_i hdistinct
          have hlock := (hguarded.holder other parts hother).1
          rcases hfree with hnone | hmine
          · cases hnone.symm.trans hlock
          · exact absurd (Option.some.inj (hmine.symm.trans hlock)) hdistinct
      have haccounted := hguarded.ended_or_taken hstate hfree htaken
      rw [← hended] at haccounted
      cases hjoins with
      | @waits left hleft =>
          refine ⟨fun other parts hother => ?_, fun part => ?_⟩
          · obtain ⟨rfl, -⟩ := halone other parts hother
            exact ⟨hjoining, hunjoined⟩
          · have hmine : after.state? index = some (.joining left) := by rw [hafter, if_pos rfl]
            rcases haccounted part with hover | hmem | hlost
            · exact .inl hover
            · rcases hleft part hmem with hover | hmem
              · exact .inl hover
              · exact .inr (.inr (.inl (mem_awaited_iff.mpr ⟨index, left, hmine, hmem⟩)))
            · exact .inr (.inr (.inr (List.mem_append_left more hlost)))
      | returns hover =>
          refine ⟨fun other parts hother => ?_, fun part => ?_⟩
          · obtain ⟨-, hjoins⟩ := halone other parts hother
            cases hjoins
          · rw [held.hasEnded_unlock]
            rcases haccounted part with hover | hmem | hlost
            · exact .inl hover
            · exact .inl (hover part hmem)
            · exact .inr (.inr (.inr (List.mem_append_left more hlost)))

theorem hasEnded_move (hstage : before.stage = .connected connection) {move : Move}
    (hnext : (before.move move).stage = .connected next) {part : SessionPart}
    (hended : connection.hasEnded part = true) : next.hasEnded part = true := by
  have hmoved := moved hstage move
  generalize before.move move = after at hmoved hnext
  cases hmoved with
  | aside hquiet hafter =>
      obtain rfl := Stage.connected.inj (hafter.symm.trans hnext)
      exact hended
  | started slot action =>
      obtain rfl := Stage.connected.inj (hstage.symm.trans hnext)
      exact hended
  | tried route payload =>
      obtain rfl := Stage.connected.inj hnext
      rwa [Connection.hasEnded_of_parts (connection.writer_tryNotify route payload)
        (connection.keepsReader_tryNotify route payload).reader]
  | aborted hcall hrunning =>
      obtain rfl := Stage.connected.inj hnext
      rwa [connection.hasEnded_abortCall]
  | @polled index call hcall hready =>
      rw [stage_settleCall] at hnext
      obtain rfl := Stage.connected.inj hnext
      exact (congrFun (connection.hasEnded_pollCall _ _ _) part).trans hended
  | wrote hready =>
      obtain rfl := Stage.connected.inj hnext
      exact connection.hasEnded_pollWriter hready hended
  | read hready =>
      obtain rfl := Stage.connected.inj hnext
      exact connection.hasEnded_pollReader hready hended
  | _ =>
      obtain rfl := Stage.connected.inj hnext
      cases part <;> exact hended

theorem Guarded.move (hguarded : before.Guarded lost connection)
    (hstage : before.stage = .connected connection) (move : Move)
    (hnext : (before.move move).stage = .connected next) :
    (before.move move).Guarded (lost ++ before.abandonedBy move) next := by
  have hended (part : SessionPart) (hover : connection.hasEnded part = true) :
      next.hasEnded part = true := hasEnded_move hstage hnext hover
  have hmoved := moved hstage move
  generalize hafter : before.move move = after at hmoved hnext
  have hsame {found : Connection} (hfound : after.stage = .connected found)
      (hcalls : after.calls = before.calls) (hjoining : found.joining = connection.joining)
      (hunjoined : found.unjoined = connection.unjoined) :
      after.Guarded (lost ++ before.abandonedBy move) next := by
    obtain rfl := Stage.connected.inj (hfound.symm.trans hnext)
    refine hguarded.of_same (fun index parts => ?_) hjoining hunjoined hended _
    rw [state?_of_calls hcalls]
  cases hmoved with
  | aside hquiet hstays hcalls => exact hsame hstays hcalls rfl rfl
  | started slot action =>
      obtain rfl := Stage.connected.inj (hstage.symm.trans hnext)
      refine hguarded.of_same (fun index parts => ?_) rfl rfl hended _
      rw [state?, state?, List.getElem?_append]
      split
      · rfl
      · rename_i hlength
        rw [List.getElem?_eq_none_iff.mpr (Nat.le_of_not_lt hlength)]
        refine iff_of_false (fun hstate => ?_) nofun
        obtain ⟨call, hcall, hjoining⟩ := Option.map_eq_some_iff.mp hstate
        obtain rfl := List.mem_singleton.mp (List.mem_of_getElem? hcall)
        cases hjoining
  | tried route payload =>
      refine hsame rfl rfl ?_ ?_ <;>
        (unfold Connection.tryNotify; split <;> rfl)
  | told hquiet events pushed => exact hsame rfl rfl rfl rfl
  | changedRoutes hcall => exact hsame rfl rfl rfl rfl
  | dropped hheld hidle => exact hsame rfl rfl rfl rfl
  | looked hkept hcame => exact hsame rfl rfl rfl rfl
  | gaveUp hkept => exact hsame rfl rfl rfl rfl
  | wrote hready => exact hsame rfl rfl rfl rfl
  | read hready => exact hsame rfl rfl rfl rfl
  | @aborted slot index call hcall hrunning =>
      obtain rfl := Stage.connected.inj hnext
      rw [← hafter]
      refine hguarded.abort (congrArg (Option.map _) hcall) fun other => ?_
      rw [hafter]
      exact state?_setCall hcall _ other
  | @polled index call hcall hready =>
      rw [stage_settleCall] at hnext
      obtain rfl := Stage.connected.inj hnext
      have hstate : before.state? index = some call.state := congrArg (Option.map _) hcall
      have hturn := @Connection.lockTurn_pollCall connection index before.now call.state
        fun parts hparts => hguarded.holder index parts (hparts ▸ hstate)
      refine hguarded.turn hstate hturn (fun other => ?_) _
      exact (state?_of_calls (calls_settleCall ..) other).trans (state?_setCall hcall _ other)

theorem state?_ne_joining_of_opening {move : Move} (hopening : Opening before move after)
    (hbefore : ∀ (index : SenderId) parts, before.state? index ≠ some (.joining parts))
    (index : SenderId) (parts : List SessionPart) : after.state? index ≠ some (.joining parts) := by
  rw [state?]
  rcases calls_opening hopening index with hsame | ⟨call, result, -, hcall, -⟩
  · rw [hsame]
    exact hbefore index parts
  · rw [hcall]
    nofun

/-- With a session the lock is guarded, and without one nobody has it. -/
structure Locks (conversation : Conversation) (lost : List SessionPart) : Prop where
  connected : ∀ connection, conversation.stage = .connected connection →
    conversation.Guarded lost connection
  unconnected : (∀ connection, conversation.stage ≠ .connected connection) →
    ∀ (index : SenderId) parts, conversation.state? index ≠ some (.joining parts)

theorem Locks.move (hlocks : before.Locks lost) (move : Move) :
    (before.move move).Locks (lost ++ before.abandonedBy move) := by
  by_cases hconnected : ∃ connection, before.stage = .connected connection
  · obtain ⟨connection, hstage⟩ := hconnected
    obtain ⟨next, -, hnext, -⟩ := exists_goes_move hstage move
    constructor
    case connected =>
      intro found hfound
      exact (hlocks.connected connection hstage).move hstage move hfound
    case unconnected => exact fun hnone => absurd hnext (hnone next)
  · rw [not_exists] at hconnected
    have hopening := opening hconnected move
    have hnobody := state?_ne_joining_of_opening hopening (hlocks.unconnected hconnected)
    constructor
    case connected =>
      intro connection hstage
      obtain ⟨settings, accepted, rfl⟩ := establish_of_opening hopening hconnected hstage
      refine ⟨fun index parts hstate => absurd hstate (hnobody index parts), fun part => ?_⟩
      -- No call has begun to await the end of a part.
      cases part <;> exact .inr (.inl (by simp [Connection.establish]))
    case unconnected => exact fun _ => hnobody

theorem locks_start (settings : Settings) (capacity : Nat) (fault : Fault) :
    (start settings capacity fault).Locks [] where
  connected connection hstage := by simp [start] at hstage
  unconnected _ index parts hstate := by
    obtain ⟨call, hcall, hjoining⟩ := Option.map_eq_some_iff.mp hstate
    obtain rfl := List.mem_singleton.mp (List.mem_of_getElem? hcall)
    cases hjoining

theorem locks_follow (settings : Settings) (capacity : Nat) (fault : Fault) (moves : List Move) :
    ((start settings capacity fault).follow moves).Locks
      ((start settings capacity fault).abandoned moves) := by
  induction moves using List.reverseRecOn with
  | nil => exact locks_start settings capacity fault
  | append_singleton moves move ih =>
      rw [follow_append_singleton, abandoned, collect_append_singleton]
      exact ih.move move

end

/-- How far a call has come that closes a session. -/
inductive Closing (connection : Connection) (lost : List SessionPart) : CallState → Prop where
  | running {state : CallState} (hcloses : state.Closes) : Closing connection lost state
  | aborted : Closing connection lost (.ended .aborted)
  | returned (hstopped : ∀ part, connection.hasEnded part = true ∨ part ∈ lost) :
      Closing connection lost (.ended .closed)

section

variable {connection : Connection} {lost : List SessionPart} {state : CallState}

theorem Closing.later {next : Connection} (hclosing : Closing connection lost state)
    (hended : ∀ part, connection.hasEnded part = true → next.hasEnded part = true)
    (more : List SessionPart) : Closing next (lost ++ more) state := by
  cases hclosing with
  | running hcloses => exact .running hcloses
  | aborted => exact .aborted
  | returned hstopped =>
      refine .returned fun part => ?_
      rcases hstopped part with hover | hlost
      · exact .inl (hended part hover)
      · exact .inr (List.mem_append_left more hlost)

theorem Guarded.closing {conversation : Conversation} {index : SenderId}
    (hguarded : conversation.Guarded lost connection)
    (hstate : conversation.state? index = some state) (hcloses : state.Closes)
    {turned : CallState × Connection} (hturn : connection.LockTurn index state turned) :
    Closing turned.2 lost turned.1 := by
  cases hturn with
  | without _ _ hstill => exact .running (hstill hcloses)
  | @holds held taken _ hfree htaken _ _ hended hjoins =>
      have haccounted := hguarded.ended_or_taken hstate hfree htaken
      rw [← hended] at haccounted
      cases hjoins with
      | waits hleft => exact .running (.joining _)
      | returns hover =>
          refine .returned fun part => ?_
          rw [held.hasEnded_unlock]
          rcases haccounted part with hover' | hmem | hlost
          · exact .inl hover'
          · exact .inl (hover part hmem)
          · exact .inr hlost

end

/-- What the return of a call that closes a session says, if the call begins after `front`. Then
follows `back`. -/
structure StopsParts (origin : Conversation) (front back : List Move) (last : Connection)
    (state : CallState) : Prop where
  /-- Each part has ended, or its end was awaited by a call that was given up. -/
  returned : state = .ended .closed →
    ∀ part, last.hasEnded part = true ∨ part ∈ origin.abandoned (front ++ back)
  /-- If there was no such call, both have. -/
  both : origin.abandoned (front ++ back) = [] → state = .ended .closed →
    last.hasEnded .writer = true ∧ last.hasEnded .reader = true
  results : ∀ result, state = .ended result → result = .closed ∨ result = .aborted

section

variable {settings : Settings} {capacity : Nat} {fault : Fault} {front back : List Move}
  {connection : Connection} {index : SenderId} {slot : String} {isTold : Bool}

/-- Each move leaves a call that closes the session as it is, gives it up, or is a turn of it, in
which the lock is guarded. -/
theorem exists_closing
    (hstage : ((start settings capacity fault).follow front).stage = .connected connection)
    (hcall : ((start settings capacity fault).follow front).calls[index]? =
      some ⟨slot, .starting .close, isTold⟩) (back : List Move) :
    ∃ last state, ((start settings capacity fault).follow (front ++ back)).stage =
        .connected last ∧
      ((start settings capacity fault).follow (front ++ back)).calls[index]? =
        some ⟨slot, state, isTold⟩ ∧
      Closing last ((start settings capacity fault).abandoned (front ++ back)) state := by
  induction back using List.reverseRecOn with
  | nil =>
      rw [List.append_nil]
      exact ⟨connection, _, hstage, hcall, .running .starting⟩
  | append_singleton back move ih =>
      obtain ⟨earlier, state, hearlier, hfound, hclosing⟩ := ih
      obtain ⟨next, -, hnext, -⟩ := exists_goes_move hearlier move
      obtain ⟨after, hafter, hmoved⟩ := exists_callMoved hearlier hfound move
      have hguarded := (locks_follow settings capacity fault (front ++ back)).connected earlier
        hearlier
      have hended (part : SessionPart) (hover : earlier.hasEnded part = true) :
          next.hasEnded part = true := hasEnded_move hearlier hnext hover
      rw [← List.append_assoc, follow_append_singleton, abandoned, collect_append_singleton]
      cases hmoved with
      | aside => exact ⟨next, state, hnext, hafter, hclosing.later hended _⟩
      | aborted => exact ⟨next, _, hnext, hafter, .aborted⟩
      | polled hready =>
          refine ⟨next, _, hnext, hafter, ?_⟩
          cases hclosing with
          | running hcloses =>
              have hstate := congrArg (Option.map (·.state)) hfound
              have hturn := @Connection.lockTurn_pollCall earlier index
                ((start settings capacity fault).follow (front ++ back)).now state
                fun parts hparts => hguarded.holder index parts (hparts ▸ hstate)
              obtain rfl := Stage.connected.inj
                ((stage_move_call hearlier hfound hready).symm.trans hnext)
              exact (hguarded.closing hstate hcloses hturn).later (fun _ hover => hover) _
          | _ => cases hready

/-- However many calls close a session and whatever else happens, none of them returns before the
parts have ended, unless a call is given up that awaits their ends. -/
theorem follow_stopsParts
    (hstage : ((start settings capacity fault).follow front).stage = .connected connection)
    (hcall : ((start settings capacity fault).follow front).calls[index]? =
      some ⟨slot, .starting .close, isTold⟩) :
    ∃ last state,
      ((start settings capacity fault).follow (front ++ back)).stage = .connected last ∧
        ((start settings capacity fault).follow (front ++ back)).calls[index]? =
          some ⟨slot, state, isTold⟩ ∧
        StopsParts (start settings capacity fault) front back last state := by
  obtain ⟨last, state, hlast, hfound, hclosing⟩ := exists_closing hstage hcall back
  refine ⟨last, state, hlast, hfound, ?_⟩
  constructor
  case returned =>
    rintro rfl
    cases hclosing with
    | running hcloses => cases hcloses
    | returned hstopped => exact hstopped
  case both =>
    rintro hnone rfl
    rw [hnone] at hclosing
    cases hclosing with
    | running hcloses => cases hcloses
    | returned hstopped =>
        exact ⟨(hstopped .writer).resolve_right List.not_mem_nil,
          (hstopped .reader).resolve_right List.not_mem_nil⟩
  case results =>
    rintro result rfl
    cases hclosing with
    | running hcloses => cases hcloses
    | aborted => exact .inr rfl
    | returned => exact .inl rfl

end

def firstClose : List Move :=
  acceptance ++ [.command (.onSession (.call "first" .close))]

/-- Another one is made while the first one awaits the ends of the parts. -/
def closedTwice : List Move :=
  [.task (.call 1), .command (.onSession (.call "second" .close)), .task (.call 2), .task .writer,
    .task .reader, .task (.call 1), .task (.call 2)]

theorem follow_stopsParts_closedTwice :
    ∃ connection last state,
      ((start {} 4096 {}).follow firstClose).stage = .connected connection ∧
        ((start {} 4096 {}).follow firstClose).calls[1]? =
          some ⟨"first", .starting .close, false⟩ ∧
        (start {} 4096 {}).abandoned (firstClose ++ closedTwice) = [] ∧
        StopsParts (start {} 4096 {}) firstClose closedTwice last state := by
  have hlength : ((start {} 4096 {}).follow acceptance).calls.length = 1 := by decide +kernel
  have hheld : ((start {} 4096 {}).follow acceptance).session?.isSome = true := by decide +kernel
  have hconnected : ((start {} 4096 {}).follow firstClose).connection?.isSome = true := by
    decide +kernel
  obtain ⟨session, hsession⟩ := Option.isSome_iff_exists.mp hheld
  obtain ⟨connection, hconnection⟩ := Option.isSome_iff_exists.mp hconnected
  have hcall := getElem?_calls_started hsession "first" .close
  rw [hlength, ← follow_append_singleton] at hcall
  have hstage := connection?_eq_some_iff.mp hconnection
  obtain ⟨last, state, -, -, hstops⟩ :=
    @follow_stopsParts _ _ _ firstClose closedTwice _ _ _ _ hstage hcall
  exact ⟨connection, last, state, hstage, hcall, by decide +kernel, hstops⟩

/-- The first call is given up while it awaits the ends of the parts, and another one is made. -/
def closedAgain : List Move :=
  firstClose ++
    [.task (.call 1), .command (.abort "first"), .command (.onSession (.call "second" .close)),
      .task (.call 2)]

/-- The second call finds no part whose end it could await. It has returned, and neither part has
ended. -/
theorem returned_closedAgain :
    ((start {} 4096 {}).follow closedAgain).state? 2 = some (.ended .closed) ∧
      ((start {} 4096 {}).follow closedAgain).connection?.map
          (fun connection => (connection.hasEnded .writer, connection.hasEnded .reader)) =
        some (false, false) ∧
      (start {} 4096 {}).abandoned closedAgain = [.writer, .reader] := by
  have hreturned : (((start {} 4096 {}).follow closedAgain).state? 2).any
      CallState.hasClosed = true := by
    decide +kernel
  obtain ⟨state, hstate, hclosed⟩ := Option.any_eq_true _ _ |>.mp hreturned
  refine ⟨?_, by decide +kernel, by decide +kernel⟩
  rw [hstate, CallState.eq_of_hasClosed hclosed]

end Conversation

end RoutedSession
