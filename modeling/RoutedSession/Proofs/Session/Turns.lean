import RoutedSession.Proofs.Outbox.Acts
import RoutedSession.Proofs.Session.Change
import RoutedSession.Session.Call

namespace RoutedSession

open Relation (ReflTransGen)

open Session (ReaderChange WriterChange CallChange)

namespace Reader

/-- Why reading ends within so many reads, if it does. -/
inductive EndsWithin : (share : Nat) → Session → Link → PacketBuffer → CloseReason → Prop where
  /-- The session has ended already. -/
  | stopped {share : Nat} {session : Session} {link : Link} {buffer : PacketBuffer}
      (hstopped : session.outbox.stopped = true) :
      EndsWithin (share + 1) session link buffer .byClient
  | peerEnded {share : Nat} {session : Session} {link rest : Link} {buffer : PacketBuffer}
      (hgoing : session.outbox.stopped = false) (hread : link.read chunk = (.ended, rest)) :
      EndsWithin (share + 1) session link buffer .byPeer
  | readFailed {share : Nat} {session : Session} {link rest : Link} {buffer : PacketBuffer}
      {reason : StreamError} (hgoing : session.outbox.stopped = false)
      (hread : link.read chunk = (.failed reason, rest)) :
      EndsWithin (share + 1) session link buffer (.failed (.stream reason))
  | malformed {share : Nat} {session : Session} {link rest : Link} {buffer left : PacketBuffer}
      {bytes : Bytes} {reason : FramingError} (hgoing : session.outbox.stopped = false)
      (hread : link.read chunk = (.got bytes, rest))
      (hpush : buffer.push bytes = (.error reason, left)) :
      EndsWithin (share + 1) session link buffer (.failed (.framing reason))
  | packet {share : Nat} {session : Session} {link rest : Link} {buffer left : PacketBuffer}
      {bytes : Bytes} {packets : List Packet} {reason : CloseReason}
      (hgoing : session.outbox.stopped = false) (hread : link.read chunk = (.got bytes, rest))
      (hpush : buffer.push bytes = (.ok packets, left))
      (hends : session.EndsWithin packets reason) :
      EndsWithin (share + 1) session link buffer reason
  | later {share : Nat} {session next : Session} {link rest : Link} {buffer left : PacketBuffer}
      {bytes : Bytes} {packets : List Packet} {reason : CloseReason}
      (hgoing : session.outbox.stopped = false) (hread : link.read chunk = (.got bytes, rest))
      (hpush : buffer.push bytes = (.ok packets, left))
      (hpackets : session.dispatchAll packets = (next, none))
      (hends : EndsWithin share next rest left reason) :
      EndsWithin (share + 1) session link buffer reason

/-- Why the reader ends in one turn, if it does. -/
inductive EndsInTurn (session : Session) (link : Link) : Reader → CloseReason → Prop where
  | packet {packets : List Packet} {buffer : PacketBuffer} {reason : CloseReason}
      (hends : session.EndsWithin packets reason) :
      EndsInTurn session link (.starting packets buffer) reason
  | afterPackets {packets : List Packet} {buffer : PacketBuffer} {next : Session}
      {reason : CloseReason} (hpackets : session.dispatchAll packets = (next, none))
      (hends : EndsWithin transfersPerTurn next link buffer reason) :
      EndsInTurn session link (.starting packets buffer) reason
  | reading {buffer : PacketBuffer} {reason : CloseReason}
      (hends : EndsWithin transfersPerTurn session link buffer reason) :
      EndsInTurn session link (.reading buffer) reason

theorem goes_finish (session : Session) (link : Link) (reason : CloseReason) :
    session.Goes ReaderChange (some reason) (finish session link reason).session :=
  .ends .refl reason _

theorem goes_readOn (share : Nat) (session : Session) (link : Link) (buffer : PacketBuffer) :
    ∃ cause?, session.Goes ReaderChange cause? (readOn share session link buffer).session ∧
      ∀ reason, cause? = some reason ↔ EndsWithin share session link buffer reason := by
  induction share generalizing session link buffer with
  | zero =>
      unfold readOn
      exact ⟨none, .on .refl, fun reason => ⟨nofun, nofun⟩⟩
  | succ share ih =>
      unfold readOn
      split
      · rename_i hstopped
        refine ⟨some .byClient, goes_finish _ _ _, fun reason => ⟨?_, fun hends => ?_⟩⟩
        · rintro ⟨⟩
          exact .stopped hstopped
        · cases hends <;> simp_all
      · rename_i hgoing
        rw [Bool.not_eq_true] at hgoing
        split
        · rename_i rest hread
          refine ⟨none, .on .refl, fun reason => ⟨nofun, fun hends => ?_⟩⟩
          cases hends <;> simp_all
        · rename_i rest hread
          refine ⟨some .byPeer, goes_finish _ _ _, fun reason => ⟨?_, fun hends => ?_⟩⟩
          · rintro ⟨⟩
            exact .peerEnded hgoing hread
          · cases hends <;> simp_all
        · rename_i error rest hread
          refine ⟨some (.failed (.stream error)), goes_finish _ _ _,
            fun reason => ⟨?_, fun hends => ?_⟩⟩
          · rintro ⟨⟩
            exact .readFailed hgoing hread
          · cases hends <;> simp_all
        · rename_i bytes rest hread
          split
          · rename_i error left hpush
            refine ⟨some (.failed (.framing error)), goes_finish _ _ _,
              fun reason => ⟨?_, fun hends => ?_⟩⟩
            · rintro ⟨⟩
              exact .malformed hgoing hread hpush
            · cases hends <;> simp_all
          · rename_i packets left hpush
            have hdispatch := session.dispatchAll_spec packets
            split
            · rename_i middle cause hpackets
              rw [hpackets] at hdispatch
              refine ⟨some cause, (goes_finish middle rest cause).after_changes hdispatch.1,
                fun reason => ⟨fun hsome => ?_, fun hends => ?_⟩⟩
              · exact .packet hgoing hread hpush ((hdispatch.2 reason).mp hsome)
              · rw [hdispatch.2 reason]
                cases hends <;> simp_all
            · rename_i middle hpackets
              rw [hpackets] at hdispatch
              obtain ⟨cause?, hgoes, hcause⟩ := ih middle rest left
              refine ⟨cause?, hgoes.after_changes hdispatch.1,
                fun reason => ⟨fun hsome => ?_, fun hends => ?_⟩⟩
              · exact .later hgoing hread hpush hpackets ((hcause reason).mp hsome)
              · rw [hcause reason]
                have hnone := hdispatch.2 reason
                cases hends <;> simp_all

theorem goes_poll (reader : Reader) (session : Session) (link : Link) :
    ∃ cause?, session.Goes ReaderChange cause? (poll ⟨reader, session, link⟩).session ∧
      ∀ reason, cause? = some reason ↔ EndsInTurn session link reader reason := by
  cases reader with
  | ended => exact ⟨none, .on .refl, fun reason => ⟨nofun, nofun⟩⟩
  | reading buffer =>
      obtain ⟨cause?, hgoes, hcause⟩ := goes_readOn transfersPerTurn session link buffer
      refine ⟨cause?, hgoes, fun reason => (hcause reason).trans ⟨.reading, ?_⟩⟩
      rintro ⟨⟩
      assumption
  | starting packets buffer =>
      have hdispatch := session.dispatchAll_spec packets
      unfold poll
      dsimp only
      split
      · rename_i middle cause hpackets
        rw [hpackets] at hdispatch
        refine ⟨some cause, (goes_finish middle link cause).after_changes hdispatch.1,
          fun reason => ⟨fun hsome => .packet ((hdispatch.2 reason).mp hsome), fun hends => ?_⟩⟩
        rw [hdispatch.2 reason]
        cases hends <;> simp_all
      · rename_i middle hpackets
        rw [hpackets] at hdispatch
        obtain ⟨cause?, hgoes, hcause⟩ := goes_readOn transfersPerTurn middle link buffer
        refine ⟨cause?, hgoes.after_changes hdispatch.1,
          fun reason => ⟨fun hsome => .afterPackets hpackets ((hcause reason).mp hsome),
            fun hends => ?_⟩⟩
        rw [hcause reason]
        have hnone := hdispatch.2 reason
        cases hends <;> simp_all

end Reader

namespace Connection

/-- Why the writer ends the session in one turn, if it does. -/
inductive WriterFails (connection : Connection) (link : Link) : CloseReason → Prop where
  | failed {reason : SessionError}
      (hfails : (Writer.poll Link.sink connection.maxBatch true
        ⟨connection.writer, connection.session.outbox, link⟩).writer = .ended (.error reason)) :
      WriterFails connection link (.failed reason)

theorem goes_pollWriter (connection : Connection) (link : Link) :
    ∃ cause?, connection.session.Goes WriterChange cause? (connection.pollWriter link).1.session ∧
      ∀ reason, cause? = some reason ↔ connection.WriterFails link reason := by
  have hchanges : ReflTransGen WriterChange connection.session
      { connection.session with
        outbox := (Writer.poll Link.sink connection.maxBatch true
          ⟨connection.writer, connection.session.outbox, link⟩).outbox } := by
    refine Writer.outbox_poll (P := fun outbox => ReflTransGen WriterChange connection.session
      { connection.session with outbox }) Link.sink ?_ ?_ _ _ _ .refl
    · intro outbox limit hbefore
      exact hbefore.tail (.taken limit)
    · intro outbox hbefore
      exact hbefore.tail .unreceived
  unfold pollWriter release
  dsimp only
  split
  · rename_i reason hfailed
    refine ⟨some (.failed reason), .ends hchanges _ _, fun cause => ⟨?_, ?_⟩⟩
    · rintro ⟨⟩
      exact .failed hfailed
    · rintro ⟨hfails⟩
      rw [hfailed] at hfails
      simp_all
  · rename_i hgoing
    refine ⟨none, .on hchanges, fun cause => ⟨nofun, ?_⟩⟩
    rintro ⟨hfails⟩
    exact absurd hfails (hgoing _)

theorem changes_pollAnswer (connection : Connection) (now : Nat) (answer : PendingAnswer)
    (deadline : Option Nat) (asJson : Bool) :
    ReflTransGen CallChange connection.session
      (connection.pollAnswer now answer deadline asJson).2.session := by
  unfold pollAnswer
  split
  · rename_i outcome pending hpoll
    have hpending : pending = (answer.poll connection.session.pending).2 := by rw [hpoll]
    rw [hpending]
    exact .single (.looked answer)
  · split
    · exact .single (.gaveUp answer)
    · exact .refl

theorem changes_afterRequest (connection : Connection) (now : Nat) (frame : Frame)
    (answer : PendingAnswer) (use : AnswerUse) (sent : Outbox.Sent × Outbox)
    (hsent : CallChange connection.session { connection.session with outbox := sent.2 }) :
    ReflTransGen CallChange connection.session
      (connection.afterRequest now frame answer use sent).2.session := by
  obtain ⟨result, outbox⟩ := sent
  cases result with
  | waiting => exact .single hsent
  | failed reason => exact .tail (.single hsent) (.gaveUp answer)
  | done =>
      cases use with
      | keep => exact .single hsent
      | await timeout asJson =>
          exact .head hsent (changes_pollAnswer (connection.setOutbox outbox) now answer
            (timeout.map (now + ·)) asJson)

theorem changes_afterNotify (connection : Connection) (frame : Frame) (sent : Outbox.Sent × Outbox)
    (hsent : CallChange connection.session { connection.session with outbox := sent.2 }) :
    ReflTransGen CallChange connection.session
      (connection.afterNotify frame sent).2.session := by
  obtain ⟨result, outbox⟩ := sent
  cases result <;> exact .single hsent

theorem changes_beginRequest (connection : Connection) (now : Nat) (index : SenderId)
    (route : String) (payload : Bytes) (use : AnswerUse) :
    ReflTransGen CallChange connection.session
      (connection.beginRequest now index route payload use).2.session := by
  unfold beginRequest
  split
  · exact .refl
  · rename_i id ticket pending hregister
    have hregistered : CallChange connection.session (connection.setPending pending).session :=
      .registered hregister
    dsimp only
    split
    · exact .tail (.single hregistered) (.gaveUp ⟨id, ticket⟩)
    · rename_i frame hframe
      exact .head hregistered (changes_afterRequest _ now frame _ use _ (.sent index frame))

theorem changes_beginNotify (connection : Connection) (index : SenderId) (route : String)
    (payload : Bytes) :
    ReflTransGen CallChange connection.session
      (connection.beginNotify index route payload).2.session := by
  unfold beginNotify
  split
  · exact .refl
  · rename_i frame hframe
    exact changes_afterNotify _ frame _ (.sent index frame)

theorem changes_tryNotify (connection : Connection) (route : String) (payload : Bytes) :
    ReflTransGen CallChange connection.session
      (connection.tryNotify route payload).2.session := by
  unfold tryNotify
  split
  · exact .refl
  · rename_i frame hframe
    exact .single (.tried frame)

@[simp] theorem session_unlock (connection : Connection) :
    connection.unlock.session = connection.session := by
  unfold unlock
  split <;> rfl

@[simp] theorem session_pollJoin (connection : Connection) (parts : List SessionPart) :
    (connection.pollJoin parts).2.session = connection.session := by
  induction parts with
  | nil => exact connection.session_unlock
  | cons part rest ih =>
      unfold pollJoin
      split
      · exact ih
      · rfl

@[simp] theorem session_beginJoin (connection : Connection) :
    connection.beginJoin.2.session = connection.session :=
  session_pollJoin _ _

theorem session_beginClose (connection : Connection) (index : SenderId) :
    (connection.beginClose index).2.session = connection.session.terminate .byClient := by
  unfold beginClose
  dsimp only
  split
  · exact session_beginJoin _
  · rfl

theorem goes_pollCall (connection : Connection) (now : Nat) (index : SenderId) (state : CallState) :
    ∃ cause?,
      connection.session.Goes CallChange cause? (connection.pollCall now index state).2.session ∧
        ∀ reason, cause? = some reason ↔ state = .starting .close ∧ reason = .byClient := by
  have hgoesOn {after : Session} (hstate : state ≠ .starting .close)
      (hchanges : ReflTransGen CallChange connection.session after) :
      ∃ cause?, connection.session.Goes CallChange cause? after ∧
        ∀ reason, cause? = some reason ↔ state = .starting .close ∧ reason = .byClient :=
    ⟨none, .on hchanges, fun reason => ⟨nofun, fun hends => absurd hends.1 hstate⟩⟩
  cases state with
  | starting action =>
      cases action with
      | sendRequest route payload =>
          exact hgoesOn nofun (connection.changes_beginRequest now index route payload .keep)
      | request route payload timeout =>
          exact hgoesOn nofun (connection.changes_beginRequest now index route payload _)
      | requestJson route value =>
          exact hgoesOn nofun (connection.changes_beginRequest now index route value.print _)
      | notify route payload =>
          exact hgoesOn nofun (connection.changes_beginNotify index route payload)
      | close =>
          refine ⟨some .byClient, ?_, fun reason => ⟨?_, ?_⟩⟩
          · change connection.session.Goes CallChange _ (connection.beginClose index).2.session
            rw [session_beginClose]
            exact .ends .refl .byClient _
          · rintro ⟨⟩
            exact ⟨rfl, rfl⟩
          · rintro ⟨-, rfl⟩
            rfl
      | awaitEnd => exact hgoesOn nofun .refl
  | sendingRequest frame answer use =>
      exact hgoesOn nofun
        (connection.changes_afterRequest now frame answer use _ (.resumed index frame))
  | sendingNotify frame =>
      exact hgoesOn nofun (connection.changes_afterNotify frame _ (.resumed index frame))
  | awaitingAnswer answer deadline asJson =>
      exact hgoesOn nofun (connection.changes_pollAnswer now answer deadline asJson)
  | locking =>
      refine hgoesOn nofun ?_
      unfold pollCall
      dsimp only
      split
      · rw [session_beginJoin]
      · exact .refl
  | joining parts =>
      refine hgoesOn nofun ?_
      change ReflTransGen _ _ (connection.pollJoin parts).2.session
      rw [session_pollJoin]
  | awaitingEnd => exact hgoesOn nofun .refl
  | connecting => exact hgoesOn nofun .refl
  | searching => exact hgoesOn nofun .refl
  | ended result => exact hgoesOn nofun .refl

theorem changes_abortCall (connection : Connection) (index : SenderId) (state : CallState) :
    ReflTransGen CallChange connection.session
      (connection.abortCall index state).session := by
  cases state with
  | sendingRequest frame answer use =>
      exact .tail (.single (.left index)) (.gaveUp answer)
  | sendingNotify frame => exact .single (.left index)
  | awaitingAnswer answer deadline asJson => exact .single (.gaveUp answer)
  | locking =>
      unfold abortCall
      dsimp only
      split
      · rw [session_unlock]
      · exact .refl
  | joining parts =>
      change ReflTransGen _ _ connection.unlock.session
      rw [session_unlock]
  | connecting => exact .refl
  | starting action => exact .refl
  | searching => exact .refl
  | awaitingEnd => exact .refl
  | ended result => exact .refl

end Connection

end RoutedSession
