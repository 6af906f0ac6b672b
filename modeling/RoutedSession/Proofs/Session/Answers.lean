import RoutedSession.Proofs.Pending.Answers
import RoutedSession.Proofs.Session.Effects
import RoutedSession.Proofs.Session.Handover
import RoutedSession.Proofs.Session.Requests

namespace RoutedSession

open Relation (ReflTransGen)

open PacketBuffer (Yields Divides)

open Session (CallChange TakeEffect)

namespace Session

section

variable {session after : Session} {registered : PendingAnswer} {found : Option Message}

theorem TakeEffect.pending {dispatches : List Dispatch} {result : Session × Option CloseReason}
    (heffect : session.TakeEffect dispatches result) :
    result.1.pending = session.pending.afterAnswers (dispatches.filterMap (·.packet.answer?)) := by
  have hfirst (dispatch : Dispatch) (rest : List Dispatch) :
      dispatch.session.pending.afterAnswers ((dispatch :: rest).filterMap (·.packet.answer?)) =
        (dispatch.session.dispatch dispatch.packet).1.pending.afterAnswers
          (rest.filterMap (·.packet.answer?)) := by
    rw [List.filterMap_cons, dispatch.effect_dispatch.1]
    cases dispatch.packet.answer? <;> rfl
  induction heffect with
  | nil session => rfl
  | @last session after packet reason hdispatch =>
      rw [hfirst ⟨session, packet⟩, hdispatch]
      rfl
  | @cons session next packet rest result hdispatch _ ih =>
      rw [hfirst ⟨session, packet⟩, hdispatch, ih]

theorem TakeEffect.sound {dispatches : List Dispatch} {result : Session × Option CloseReason}
    (heffect : session.TakeEffect dispatches result) (hsound : session.pending.Sound) :
    ∀ dispatch ∈ dispatches, dispatch.session.pending.Sound := by
  induction heffect with
  | nil => exact List.forall_mem_nil _
  | last => exact List.forall_mem_singleton.mpr hsound
  | @cons session next packet rest result hdispatch _ ih =>
      have heffect := (Dispatch.effect_dispatch ⟨session, packet⟩).1
      rw [hdispatch] at heffect
      refine List.forall_mem_cons.mpr ⟨hsound, ih ?_⟩
      rw [heffect]
      split
      · exact hsound.resolve _
      · exact hsound

theorem CallChange.follows (hchange : CallChange session after)
    (hfollows : session.pending.Follows registered found) (hsound : session.pending.Sound) :
    after.pending.Follows registered found := by
  cases hchange with
  | registered hregister => exact hfollows.register hregister
  | looked answer =>
      dsimp only
      rw [answer.snd_poll]
      exact hfollows.take hsound _
  | gaveUp answer =>
      dsimp only
      rcases answer.drop_cases session.pending with hdrop | hdrop <;> rw [hdrop]
      · exact hfollows.take hsound _
      · exact hfollows.without hsound _
  | _ => exact hfollows

theorem follows_of_callChanges (hchanges : ReflTransGen CallChange session after)
    (hcoherent : session.Coherent) (hfollows : session.pending.Follows registered found) :
    after.pending.Follows registered found ∧ after.pending.Sound := by
  induction hchanges with
  | refl => exact ⟨hfollows, hcoherent.pending_sound⟩
  | tail hfront hchange ih =>
      have hbefore := (coherent_of_changes (changes_of_callChanges hfront) hcoherent).1
      exact ⟨hchange.follows ih.1 ih.2, (hchange.coherent hbefore).pending_sound⟩

end

end Session

theorem Reader.ComesTo.pending {session : Session} {dispatches : List Dispatch} {work : Work}
    (hcomes : ComesTo session dispatches work) (hgoing : work.session.reason = none) :
    work.session.pending =
      session.pending.afterAnswers (dispatches.filterMap (·.packet.answer?)) := by
  cases hcomes with
  | goesOn heffect => exact heffect.pending
  | @ends last cause? reason link heffect =>
      exact absurd hgoing (last.reason_terminate_ne_none reason)

theorem Reader.ComesTo.sound {session : Session} {dispatches : List Dispatch} {work : Work}
    (hcomes : ComesTo session dispatches work) (hsound : session.pending.Sound) :
    ∀ dispatch ∈ dispatches, dispatch.session.pending.Sound := by
  cases hcomes with
  | goesOn heffect => exact heffect.sound hsound
  | ends heffect => exact heffect.sound hsound

theorem Dispatch.dispatch_of_stray {dispatch : Dispatch} {answer : Message}
    (hanswer : dispatch.packet.answer? = some answer)
    (hstray : dispatch.session.pending.ticket? answer.id = none) :
    dispatch.session.dispatch dispatch.packet = (dispatch.session, none) := by
  rw [dispatch.packet.answer?_eq dispatch.session.routes, Option.filter_eq_some_iff,
    decide_eq_true_eq] at hanswer
  obtain ⟨hread, hkind⟩ := hanswer
  obtain ⟨hdata, hdecode⟩ := Packet.message?_eq_some_iff.mp hread
  have hsame : (dispatch.session.pending.resolve answer).2 = dispatch.session.pending := by
    rw [PendingTable.resolve_of_ticket?_eq_none hstray]
  unfold Session.dispatch
  simp only [hdata, hdecode, Session.deliver, hkind, if_true, hsame]

/-- A packet that is no kick and whose message can be read, if it carries one. -/
def Dispatch.Harmless (dispatch : Dispatch) : Prop :=
  dispatch.packet.kind ≠ .kick ∧
    (dispatch.packet.kind = .data → dispatch.message?.isSome = true)

instance (dispatch : Dispatch) : Decidable dispatch.Harmless :=
  inferInstanceAs (Decidable (_ ∧ _))

theorem Dispatch.Harmless.goesOn {dispatch : Dispatch} (hharmless : dispatch.Harmless) :
    dispatch.GoesOn := by
  rw [GoesOn, Option.eq_none_iff_forall_ne_some]
  intro reason hends
  cases ((dispatch.session.dispatch_spec dispatch.packet).2 reason).mp hends with
  | kicked hkick => exact hharmless.1 hkick
  | undecodable hdata hdecode =>
      obtain ⟨message, hmessage⟩ := Option.isSome_iff_exists.mp (hharmless.2 hdata)
      cases hdecode.symm.trans (Packet.message?_eq_some_iff.mp hmessage).2

/-- The reasons for an end that do not lie in what the server says: the application or the server
closes the session, or the stream fails. -/
inductive CloseReason.FromOutside : CloseReason → Prop where
  | byClient : FromOutside .byClient
  | byPeer : FromOutside .byPeer
  | stream (reason : StreamError) : FromOutside (.failed (.stream reason))

theorem Session.EndsWithin.exists_not_goesOn {session : Session} {packets : List Packet}
    {reason : CloseReason} (hends : session.EndsWithin packets reason) :
    ∃ dispatch ∈ session.dispatches packets, ¬ dispatch.GoesOn := by
  have hreason := ((session.dispatchAll_spec packets).2 reason).mpr hends
  have heffect := session.takeEffect_dispatches packets
  rcases hpackets : session.dispatchAll packets with ⟨after, cause?⟩
  rw [hpackets] at hreason heffect
  subst hreason
  obtain ⟨front, last, hsplit, -, hlast⟩ := heffect.exists_last
  rw [hsplit]
  exact ⟨last, List.mem_concat_self, hlast⟩

namespace Reader

section

variable {limit : Nat} {read served : Bytes} {whole : PacketBuffer.Cut} {session : Session}
  {link : Link} {reason : CloseReason}

theorem EndsWithin.fromOutside {share : Nat} {buffer : PacketBuffer}
    (hends : EndsWithin share session link buffer reason) {packets : List Packet}
    (hyields : Yields limit read packets buffer) (hread : read ++ link.incoming <+: served)
    (hserved : Divides limit served whole) (hgood : whole.failure = none)
    (hgoing : ∀ dispatch ∈ dispatchesOn share session link buffer, dispatch.GoesOn) :
    reason.FromOutside := by
  induction hends generalizing read packets with
  | stopped => exact .byClient
  | peerEnded => exact .byPeer
  | readFailed => exact .stream _
  | malformed hopen hfound hpush =>
      rw [(Link.took_read hfound).incoming, ← List.append_assoc] at hread
      obtain ⟨more, awaiting, rest, hdivides⟩ := hyields.push_error hpush
      have hfront := (List.prefix_append _ _).trans hread
      cases (hdivides.packets_front hserved hgood hfront).1
  | packet hopen hfound hpush hends =>
      obtain ⟨dispatch, hmem, hlast⟩ := hends.exists_not_goesOn
      refine absurd (hgoing dispatch ?_) hlast
      simp only [dispatchesOn, hopen, Bool.false_eq_true, if_false, hfound, hpush]
      exact List.mem_append_left _ hmem
  | later hopen hfound hpush hpackets _ ih =>
      rw [(Link.took_read hfound).incoming, ← List.append_assoc] at hread
      simp only [dispatchesOn, hopen, Bool.false_eq_true, if_false, hfound, hpush,
        hpackets] at hgoing
      exact ih (hyields.push_ok hpush) hread fun dispatch hmem =>
        hgoing dispatch (List.mem_append_right _ hmem)

theorem EndsInTurn.fromOutside {reader : Reader} (hends : EndsInTurn session link reader reason)
    {first : Packet} {dispatched : List Dispatch}
    (hposition : Position limit read first dispatched reader)
    (hread : read ++ link.incoming <+: served) (hserved : Divides limit served whole)
    (hgood : whole.failure = none)
    (hgoing : ∀ dispatch ∈ reader.dispatches session link, dispatch.GoesOn) :
    reason.FromOutside := by
  cases hends with
  | packet hends =>
      obtain ⟨dispatch, hmem, hlast⟩ := hends.exists_not_goesOn
      exact absurd (hgoing dispatch (List.mem_append_left _ hmem)) hlast
  | afterPackets hpackets hends =>
      have hyields := hposition.yields rfl
      simp only [dispatches, hpackets] at hgoing
      exact hends.fromOutside hyields hread hserved hgood fun dispatch hmem =>
        hgoing dispatch (List.mem_append_right _ hmem)
  | reading hends => exact hends.fromOutside (hposition.yields rfl) hread hserved hgood hgoing

end

end Reader

theorem Connection.WriterFails.fromOutside {connection : Connection} {link : Link}
    {reason : CloseReason} (hfails : connection.WriterFails link reason)
    (hready : connection.writerReady link = true) : reason.FromOutside := by
  have hkept : ∀ reason, (Writer.poll Link.sink connection.maxBatch true
      ⟨connection.writer, connection.session.outbox, link⟩).writer = .ended (.error reason) →
        ∃ error, reason = .stream error := by
    refine Writer.poll_of_acts (P := fun work => ∀ reason, work.writer = .ended (.error reason) →
      ∃ error, reason = .stream error) (fun before after hact _ => ?_) ?_
    · cases hact with
      | stops => exact fun reason hended => absurd hended (Writer.stop_ne_failed _ _ reason)
      | _ => simp
    · intro reason hended
      unfold Connection.writerReady at hready
      dsimp only at hended
      rw [hended] at hready
      cases hready
  obtain ⟨hfailed⟩ := hfails
  obtain ⟨error, rfl⟩ := hkept _ hfailed
  exact .stream error

def CallResult.message? : CallResult → Option Message
  | answered message | answeredJson message _ => some message
  | _ => none

namespace Conversation

/-- The answers that take effect in moves, in their order. -/
def answered (conversation : Conversation) (moves : List Move) : List Message :=
  (conversation.dispatched moves).filterMap (·.packet.answer?)

theorem answered_append_singleton (conversation : Conversation) (moves : List Move) (move : Move) :
    conversation.answered (moves ++ [move]) =
      conversation.answered moves ++
        ((conversation.follow moves).dispatchedBy move).filterMap (·.packet.answer?) := by
  rw [answered, dispatched_append_singleton, List.filterMap_append]
  rfl

section

variable {settings : Settings} {capacity : Nat} {fault : Fault} {moves front : List Move}
  {connection : Connection}

theorem fromOutside_of_reason {bytes : Bytes} {whole : PacketBuffer.Cut}
    (hbytes : Divides settings.maxPacketSize bytes whole) (hgood : whole.failure = none)
    (hserved : (start settings capacity fault).served moves <+: bytes)
    (hgoing : ∀ dispatch ∈ (start settings capacity fault).dispatched moves, dispatch.GoesOn)
    {reason : CloseReason}
    (hreason : ((start settings capacity fault).follow moves).reason? = some reason) :
    reason.FromOutside := by
  -- On the moves; the first one that ends the session has a cause of its own.
  induction moves using List.reverseRecOn with
  | nil => cases hreason
  | append_singleton moves move ih =>
      have hcoherent := (coherent_start settings capacity fault).follow moves
      rw [served, collect_append_singleton] at hserved
      have hearlier := (List.prefix_append _ _).trans hserved
      rw [dispatched_append_singleton, List.forall_mem_append] at hgoing
      rw [follow_append_singleton] at hreason
      cases hbefore : ((start settings capacity fault).follow moves).reason? with
      | some earlier =>
          have hsame := hcoherent.reason?_follow hbefore [move]
          obtain rfl := Option.some.inj (hsame.symm.trans hreason)
          exact ih hearlier hgoing.1 hbefore
      | none =>
          cases (hcoherent.reason?_move hbefore move reason).mp hreason with
          | closeCalled => exact .byClient
          | dropped => exact .byClient
          | writerFailed _ hready hfails => exact hfails.fromOutside hready
          | readerEnded hstage hready hends =>
              obtain ⟨read, hdelivers⟩ := exists_delivers settings capacity fault moves
              obtain ⟨first, -, hposition, -⟩ := hdelivers.connected hstage
              have hall := hdelivers.unread
                (hdelivers.isDropped_eq_false hstage (Connection.reader_ne_ended hready))
              rw [Conversation.unread, ← List.append_assoc] at hall
              have hfront : read ++ ((start settings capacity fault).follow moves).link.incoming <+:
                  (start settings capacity fault).served moves := ⟨_, hall⟩
              rw [dispatchedBy_reader hstage hready] at hgoing
              exact hends.fromOutside hposition (hfront.trans hearlier) hbytes hgood hgoing.2

theorem exists_next_answered
    (hstage : ((start settings capacity fault).follow moves).stage = .connected connection)
    (move : Move) :
    ∃ next, (((start settings capacity fault).follow moves).move move).stage = .connected next ∧
      (next.session.reason = none → connection.session.reason = none ∧
        ∃ between, ReflTransGen CallChange connection.session between ∧
          next.session.pending = between.pending.afterAnswers
            ((((start settings capacity fault).follow moves).dispatchedBy move).filterMap
              (·.packet.answer?))) := by
  have hcoherent := (coherent_start settings capacity fault).follow moves
  have hgoing {next : Connection}
      (hnext : (((start settings capacity fault).follow moves).move move).stage = .connected next)
      (hnone : next.session.reason = none) : connection.session.reason = none := by
    cases hreason : connection.session.reason with
    | none => rfl
    | some reason =>
        have hsome : connection.session.reason.isSome = true := by rw [hreason]; rfl
        obtain ⟨last, hlast, hsame⟩ := hcoherent.addsNothing_follow hstage hsome [move]
        obtain rfl := Stage.connected.inj (hnext.symm.trans hlast)
        rw [← hsame.reason, hnone] at hsome
        cases hsome
  rcases reader_or_aside _ connection move with ⟨rfl, hready⟩ | haside
  · obtain ⟨next, link, hnext, hcomes⟩ := exists_comesTo hstage hready
    exact ⟨next, hnext, fun hnone =>
      ⟨hgoing hnext hnone, connection.session, .refl, hcomes.pending hnone⟩⟩
  · obtain ⟨next, hnext, -, hleft⟩ := exists_leftAlone hstage haside
    refine ⟨next, hnext, fun hnone => ⟨hgoing hnext hnone, ?_⟩⟩
    obtain ⟨between, hchanges, hpending⟩ := hleft.pending hnone
    rw [dispatchedBy_eq_nil hstage haside]
    exact ⟨between, hchanges, hpending.symm⟩

/-- A request that was pending comes to the first answer with its id that has taken effect since. -/
theorem exists_follows {registered : PendingAnswer}
    (hstage : ((start settings capacity fault).follow front).stage = .connected connection)
    (hpending : registered.entry ∈ connection.session.pending.entries) (back : List Move) :
    ∃ last, ((start settings capacity fault).follow (front ++ back)).stage = .connected last ∧
      (last.session.reason = none → last.session.pending.Follows registered
        (registered.first? (((start settings capacity fault).follow front).answered back))) := by
  -- On the moves behind `front`; each of them keeps up with the answers that take effect in it.
  induction back using List.reverseRecOn with
  | nil =>
      have hcoherent := (coherent_start settings capacity fault).follow front connection hstage
      rw [List.append_nil]
      exact ⟨connection, hstage, fun _ => hcoherent.pending_sound.follows hpending⟩
  | append_singleton back move ih =>
      obtain ⟨earlier, hearlier, hfollows⟩ := ih
      obtain ⟨next, hnext, hmoved⟩ := exists_next_answered hearlier move
      have hcoherent :=
        (coherent_start settings capacity fault).follow (front ++ back) earlier hearlier
      rw [← List.append_assoc, follow_append _ _ [move], follow_cons, follow_nil]
      refine ⟨next, hnext, fun hnone => ?_⟩
      obtain ⟨hgoing, between, hchanges, hafter⟩ := hmoved hnone
      obtain ⟨hbetween, hsound⟩ :=
        Session.follows_of_callChanges hchanges hcoherent (hfollows hgoing)
      rw [answered_append_singleton, PendingAnswer.first?_append, hafter, ← follow_append]
      exact hbetween.afterAnswers hsound _

theorem poll_of_pending {answer : PendingAnswer} {back : List Move} {last : Connection}
    (hstage : ((start settings capacity fault).follow front).stage = .connected connection)
    (hpending : answer.entry ∈ connection.session.pending.entries)
    (hlast : ((start settings capacity fault).follow (front ++ back)).stage = .connected last)
    (hgoing : last.session.reason = none)
    (hlive : answer ∈ ((start settings capacity fault).follow (front ++ back)).live) :
    (answer.poll last.session.pending).1 =
        (answer.first? (((start settings capacity fault).follow front).answered back)).map .ok ∧
      (answer.entry ∈ last.session.pending.entries ↔
        answer.first? (((start settings capacity fault).follow front).answered back) = none) := by
  obtain ⟨same, hsame, hfollows⟩ := exists_follows hstage hpending back
  obtain rfl := Stage.connected.inj (hsame.symm.trans hlast)
  have hserves := ((accounts_start settings capacity fault).follow (front ++ back)).connected same
    hsame
  have hmem := hserves.tickets_perm.mem_iff.mpr (List.mem_map_of_mem hlive)
  exact (hfollows hgoing).poll hserves.sound hmem

theorem sound_of_dispatched (settings : Settings) (capacity : Nat) (fault : Fault)
    (moves : List Move) : ∀ dispatch ∈ (start settings capacity fault).dispatched moves,
      dispatch.session.pending.Sound := by
  induction moves using List.reverseRecOn with
  | nil => exact List.forall_mem_nil _
  | append_singleton moves move ih =>
      rw [dispatched_append_singleton]
      refine List.forall_mem_append.mpr ⟨ih, ?_⟩
      by_cases hconnected : ∃ connection,
          ((start settings capacity fault).follow moves).stage = .connected connection
      · obtain ⟨connection, hstage⟩ := hconnected
        rcases reader_or_aside _ connection move with ⟨rfl, hready⟩ | haside
        · obtain ⟨next, link, -, hcomes⟩ := exists_comesTo hstage hready
          have hcoherent := (coherent_start settings capacity fault).follow moves connection hstage
          exact hcomes.sound hcoherent.pending_sound
        · rw [dispatchedBy_eq_nil hstage haside]
          exact List.forall_mem_nil _
      · rw [dispatchedBy_of_unconnected (not_exists.mp hconnected)]
        exact List.forall_mem_nil _

end

/-- How far a call has come that awaited an answer, if this is the first one with its id. -/
inductive ComesOut (answer : PendingAnswer) (deadline : Option Nat) (asJson : Bool)
    (found : Option Message) : CallState → Prop where
  | waiting : ComesOut answer deadline asJson found (.awaitingAnswer answer deadline asJson)
  | answered {message : Message} (hfound : found = some message) :
      ComesOut answer deadline asJson found
        (.ended (Connection.answerResult asJson (.ok message)))
  | timedOut (hlimited : deadline.isSome = true) :
      ComesOut answer deadline asJson found (.ended (.failed (.requestTimeout answer.id)))
  | aborted : ComesOut answer deadline asJson found (.ended .aborted)

section

variable {answer : PendingAnswer} {deadline : Option Nat} {asJson : Bool} {found : Option Message}

theorem ComesOut.later {state : CallState} (hcomes : ComesOut answer deadline asJson found state)
    (more : Option Message) : ComesOut answer deadline asJson (found.or more) state := by
  cases hcomes with
  | waiting => exact .waiting
  | answered hfound => exact .answered (by rw [hfound, Option.some_or])
  | timedOut hlimited => exact .timedOut hlimited
  | aborted => exact .aborted

theorem ComesOut.eq_of_message? {result : CallResult}
    (hcomes : ComesOut answer deadline asJson found (.ended result))
    (hsome : result.message?.isSome = true) :
    ∃ message, found = some message ∧ result = Connection.answerResult asJson (.ok message) := by
  cases hcomes with
  | answered hfound => exact ⟨_, hfound, rfl⟩
  | timedOut => cases hsome
  | aborted => cases hsome

theorem comesOut_pollAnswer {connection : Connection}
    (hpoll : (answer.poll connection.session.pending).1 = found.map .ok) (now : Nat) :
    ComesOut answer deadline asJson found
      (connection.pollAnswer now answer deadline asJson).1 := by
  unfold Connection.pollAnswer
  rcases hresult : answer.poll connection.session.pending with ⟨outcome?, pending⟩
  rw [hresult] at hpoll
  obtain rfl : outcome? = found.map .ok := hpoll
  cases found with
  | some message => exact .answered rfl
  | none =>
      dsimp only [Option.map_none]
      split
      · rename_i hover
        exact .timedOut (Option.isSome_of_any hover)
      · exact .waiting

end

section

variable {settings : Settings} {capacity : Nat} {fault : Fault} {front back : List Move}
  {connection last : Connection} {answer : PendingAnswer}

theorem mem_live_of_call {conversation : Conversation} {index : SenderId} {call : Call}
    (hcall : conversation.calls[index]? = some call) (hanswer : call.state.answer? = some answer) :
    answer ∈ conversation.live :=
  List.mem_append_left _ (List.mem_filterMap.mpr ⟨call, List.mem_of_getElem? hcall, hanswer⟩)

theorem mem_live_of_kept {conversation : Conversation} {slot : String}
    (hkept : conversation.kept.lookup slot = some answer) : answer ∈ conversation.live := by
  obtain ⟨before, after, hsplit, -⟩ := List.lookup_eq_some_iff.mp hkept
  refine List.mem_append_right _ (List.mem_map.mpr ⟨(slot, answer), ?_, rfl⟩)
  rw [hsplit]
  exact List.mem_append_right _ List.mem_cons_self

/-- A call that awaits an answer still awaits it, or has ended with the first one with its id, or
has been given up. -/
theorem exists_comesOut
    (hstage : ((start settings capacity fault).follow front).stage = .connected connection)
    (hpending : answer.entry ∈ connection.session.pending.entries) {index : SenderId}
    {slot : String} {deadline : Option Nat} {asJson isTold : Bool}
    (hcall : ((start settings capacity fault).follow front).calls[index]? =
      some ⟨slot, .awaitingAnswer answer deadline asJson, isTold⟩)
    (hlast : ((start settings capacity fault).follow (front ++ back)).stage = .connected last)
    (hgoing : last.session.reason = none) :
    ∃ state, ((start settings capacity fault).follow (front ++ back)).calls[index]? =
        some ⟨slot, state, isTold⟩ ∧
      ComesOut answer deadline asJson
        (answer.first? (((start settings capacity fault).follow front).answered back)) state := by
  induction back using List.reverseRecOn generalizing last with
  | nil =>
      rw [List.append_nil]
      exact ⟨_, hcall, .waiting⟩
  | append_singleton back move ih =>
      obtain ⟨earlier, hearlier, -⟩ := exists_follows hstage hpending back
      obtain ⟨next, hnext, hmoved⟩ := exists_next_answered hearlier move
      rw [← List.append_assoc, follow_append _ _ [move], follow_cons, follow_nil] at hlast ⊢
      obtain rfl := Stage.connected.inj (hnext.symm.trans hlast)
      have hbefore := (hmoved hgoing).1
      obtain ⟨state, hstate, hcomes⟩ := ih hearlier hbefore
      obtain ⟨after, hafter, hmove⟩ := exists_callMoved hearlier hstate move
      have hlater := hcomes.later
        (answer.first? ((((start settings capacity fault).follow (front ++ back)).dispatchedBy
          move).filterMap (·.packet.answer?)))
      rw [follow_append, ← PendingAnswer.first?_append, ← answered_append_singleton] at hlater
      cases hmove with
      | aside => exact ⟨state, hafter, hlater⟩
      | aborted => exact ⟨_, hafter, .aborted⟩
      | polled hready =>
          refine ⟨_, hafter, ?_⟩
          cases hcomes with
          | waiting =>
              -- In a turn of a call no answer takes effect.
              have hnone : ((start settings capacity fault).follow front).answered
                  (back ++ [.task (.call index)]) =
                    ((start settings capacity fault).follow front).answered back := by
                rw [answered_append_singleton]
                exact List.append_nil _
              have hlive := mem_live_of_call hstate rfl
              rw [hnone]
              exact comesOut_pollAnswer
                (poll_of_pending hstage hpending hearlier hbefore hlive).1 _
          | _ => cases hready

theorem call_of_answered {conversation : Conversation}
    (hstage : conversation.stage = .connected connection) {index : SenderId} {slot : String}
    {deadline : Option Nat} {asJson isTold : Bool} {message : Message}
    (hcall : conversation.calls[index]? =
      some ⟨slot, .awaitingAnswer answer deadline asJson, isTold⟩)
    (hpoll : (answer.poll connection.session.pending).1 = some (.ok message)) :
    (conversation.move (.task (.call index))).calls[index]? =
      some ⟨slot, .ended (Connection.answerResult asJson (.ok message)), isTold⟩ := by
  have hready : connection.callReady conversation.now index
      (.awaitingAnswer answer deadline asJson) = true := by
    unfold Connection.callReady
    rw [Bool.or_eq_true]
    right
    unfold PendingAnswer.poll at hpoll
    split at hpoll <;> rename_i hstanding <;> rw [hstanding]
    cases hpoll
  obtain ⟨after, hafter, hmove⟩ := exists_callMoved hstage hcall (.task (.call index))
  rw [hafter]
  cases hmove with
  | aside hidle => cases hready.symm.trans (hidle rfl)
  | polled =>
      have hcomes : (connection.pollAnswer conversation.now answer deadline asJson).1 =
          .ended (Connection.answerResult asJson (.ok message)) := by
        unfold Connection.pollAnswer
        split <;> rename_i hresult <;> rw [hresult] at hpoll <;> cases hpoll
        rfl
      rw [← hcomes]
      rfl

theorem reply_pollKept {conversation : Conversation}
    (hstage : conversation.stage = .connected connection) {slot : String}
    (hkept : conversation.kept.lookup slot = some answer) :
    (conversation.perform (.pollKept slot)).1 =
      .polled answer.id (answer.poll connection.session.pending).1 := by
  change (conversation.pollKept slot).1 = _
  unfold pollKept
  rw [hkept, connection?_eq_some_iff.mpr hstage]
  dsimp only
  split <;> rename_i hpoll <;> rw [hpoll]

end

/-- Another course that begins with `front`. The session goes on in it too, and the answers to each
id come in the same order as in `back`. -/
structure Alike (origin : Conversation) (front back other : List Move) (last : Connection) :
    Prop where
  stage : (origin.follow (front ++ other)).stage = .connected last
  going : last.session.reason = none
  answers : Message.SameOrder ((origin.follow front).answered back)
    ((origin.follow front).answered other)

/-- What becomes of the requests that are pending after `front`. Then follows `back`, in which the
server's packets are the first ones of `stream`, and nothing that they say ends the session. -/
structure AnswersOwn (origin : Conversation) (front back : List Move) (connection last : Connection)
    (stream : List Packet) : Prop where
  /-- The packets take effect in their order. -/
  in_order : ((origin.follow front).dispatched back).map (·.packet) <+: stream
  /-- When nothing moves any more all of them have, unless the session has ended. -/
  at_rest : last.session.reason = none → (origin.follow (front ++ back)).isBusy = false →
    (origin.follow (front ++ back)).peerCanWrite = false →
      (origin.follow front).answered back = stream.filterMap Packet.answer?
  /-- The session ends only if somebody closes it or the stream fails. -/
  stays_open : ∀ reason, last.session.reason = some reason → reason.FromOutside
  /-- The waiting side of a request has the first answer with its id, and if there is none the
  request is still pending. -/
  own_answer : last.session.reason = none →
    ∀ answer ∈ (origin.follow (front ++ back)).live,
      answer.entry ∈ connection.session.pending.entries →
        (answer.poll last.session.pending).1 =
            (answer.first? ((origin.follow front).answered back)).map .ok ∧
          (answer.entry ∈ last.session.pending.entries ↔
            answer.first? ((origin.follow front).answered back) = none)
  /-- A call gets no other answer. -/
  calls : last.session.reason = none →
    ∀ (index : SenderId) slot answer deadline asJson isTold,
      (origin.follow front).calls[index]? =
          some ⟨slot, .awaitingAnswer answer deadline asJson, isTold⟩ →
        answer.entry ∈ connection.session.pending.entries →
          ∃ state, (origin.follow (front ++ back)).calls[index]? = some ⟨slot, state, isTold⟩ ∧
            ComesOut answer deadline asJson
              (answer.first? ((origin.follow front).answered back)) state
  /-- When its answer has come, a call gets it in its next turn, even if its time is over. -/
  told : last.session.reason = none →
    ∀ (index : SenderId) slot answer deadline asJson isTold message,
      (origin.follow (front ++ back)).calls[index]? =
          some ⟨slot, .awaitingAnswer answer deadline asJson, isTold⟩ →
        answer.entry ∈ connection.session.pending.entries →
          answer.first? ((origin.follow front).answered back) = some message →
            (origin.follow (front ++ back ++ [.task (.call index)])).calls[index]? =
              some ⟨slot, .ended (Connection.answerResult asJson (.ok message)), isTold⟩
  /-- So does the application if it asks for an answer that it keeps. -/
  looked : last.session.reason = none → ∀ slot answer,
    (origin.follow (front ++ back)).kept.lookup slot = some answer →
      answer.entry ∈ connection.session.pending.entries →
        ((origin.follow (front ++ back)).perform (.pollKept slot)).1 =
          .polled answer.id
            ((answer.first? ((origin.follow front).answered back)).map .ok)
  /-- An answer whose id is not pending changes nothing, and the session goes on. -/
  stray : ∀ dispatch ∈ (origin.follow front).dispatched back, ∀ answer,
    dispatch.packet.answer? = some answer →
      dispatch.session.pending.ticket? answer.id = none →
        dispatch.session.dispatch dispatch.packet = (dispatch.session, none)
  /-- The id zero is never pending, and behind an answer its id is not. -/
  not_pending : ∀ dispatch ∈ (origin.follow front).dispatched back,
    dispatch.session.pending.ticket? 0 = none ∧ ∀ answer,
      dispatch.packet.answer? = some answer →
        (dispatch.session.dispatch dispatch.packet).1.pending.ticket? answer.id = none
  /-- In another course in which the answers to each id come in the same order, a request has come
  to the same. -/
  alike : last.session.reason = none → ∀ other lastOther,
    Alike origin front back other lastOther →
      ∀ answer ∈ (origin.follow (front ++ back)).live,
        answer ∈ (origin.follow (front ++ other)).live →
          answer.entry ∈ connection.session.pending.entries →
            (answer.poll last.session.pending).1 = (answer.poll lastOther.session.pending).1
  /-- A call that has ended with an answer in both has ended with the same one. -/
  calls_alike : last.session.reason = none → ∀ other lastOther,
    Alike origin front back other lastOther →
      ∀ (index : SenderId) slot answer deadline asJson isTold one two,
        (origin.follow front).calls[index]? =
            some ⟨slot, .awaitingAnswer answer deadline asJson, isTold⟩ →
          answer.entry ∈ connection.session.pending.entries →
            (origin.follow (front ++ back)).calls[index]? = some ⟨slot, .ended one, isTold⟩ →
              (origin.follow (front ++ other)).calls[index]? = some ⟨slot, .ended two, isTold⟩ →
                one.message?.isSome = true → two.message?.isSome = true → one = two
  /-- Answers to different ids may come in any order. -/
  permuted : ∀ other,
    ((origin.follow front).answered back).Perm ((origin.follow front).answered other) →
      (((origin.follow front).answered back).map (·.id)).Nodup →
        Message.SameOrder ((origin.follow front).answered back)
          ((origin.follow front).answered other)

/-- Whatever the application does meanwhile, and however the bytes of the server arrive, each
request that is pending gets its own answer. -/
theorem follow_answersOwn {settings : Settings} {capacity : Nat} {fault : Fault}
    {front back : List Move}
    {connection : Connection} {first : Packet} {stream : List Packet} {awaiting : Option Header}
    {left : Bytes}
    (hstage : ((start settings capacity fault).follow front).stage = .connected connection)
    (hopen : connection.session.reason = none)
    (hserved : Divides settings.maxPacketSize
      ((start settings capacity fault).served (front ++ back))
      ⟨first :: (((start settings capacity fault).dispatched front).map (·.packet) ++ stream), none,
        awaiting, left⟩)
    (hharmless : ∀ dispatch ∈ ((start settings capacity fault).follow front).dispatched back,
      dispatch.Harmless) :
    ∃ last, ((start settings capacity fault).follow (front ++ back)).stage = .connected last ∧
      AnswersOwn (start settings capacity fault) front back connection last stream := by
  have hfollow := (start settings capacity fault).follow_append front back
  obtain ⟨last, hlast⟩ := exists_connected_follow hstage back
  rw [← hfollow] at hlast
  obtain ⟨read, hdelivers⟩ := exists_delivers settings capacity fault (front ++ back)
  obtain ⟨answer, -, hposition, -⟩ := hdelivers.connected hlast
  have hsplit : (start settings capacity fault).dispatched (front ++ back) =
      (start settings capacity fault).dispatched front ++
        ((start settings capacity fault).follow front).dispatched back :=
    collect_append _ _ _ _
  have hpoll {answer : PendingAnswer} (hgoing : last.session.reason = none)
      (hpending : answer.entry ∈ connection.session.pending.entries)
      (hlive : answer ∈ ((start settings capacity fault).follow (front ++ back)).live) :=
    poll_of_pending hstage hpending hlast hgoing hlive
  refine ⟨last, hlast, ?_⟩
  constructor
  case in_order =>
    have hfirst := (hposition.in_order hserved hdelivers.first).2
    rw [hsplit, List.map_append, List.prefix_append_right_inj] at hfirst
    exact hfirst
  case at_rest =>
    intro hgoing hidle hsilent
    have hleft : last.reader ≠ .ended := fun hended => by
      have hsome := isSome_reason_of_ended hlast hended
      rw [hgoing] at hsome
      cases hsome
    obtain ⟨buffer, hreading, hnone⟩ := hdelivers.at_rest hlast hleft hidle hsilent
    have hyields := hposition.yields (by rw [hreading, Reader.buffer?])
    have hread := hdelivers.unread (hdelivers.isDropped_eq_false hlast hleft)
    rw [← hread, hnone, List.append_nil] at hserved
    rw [hreading, Reader.waiting, List.append_nil, hsplit, List.map_append] at hyields
    have hcut := hyields.divides.unique hserved
    have hpackets :=
      List.append_cancel_left (List.cons.inj (congrArg PacketBuffer.Cut.packets hcut)).2
    rw [← hpackets, List.filterMap_map]
    rfl
  case stays_open =>
    intro reason hreason
    rw [← reason?_of_connected hlast] at hreason
    refine fromOutside_of_reason hserved rfl (List.prefix_refl _) ?_ hreason
    rw [hsplit]
    refine List.forall_mem_append.mpr ⟨?_, fun dispatch hmem => (hharmless dispatch hmem).goesOn⟩
    obtain ⟨earlier, hearlier⟩ := exists_delivers settings capacity fault front
    obtain ⟨_, -, hbefore, -⟩ := hearlier.connected hstage
    refine hbefore.goesOn fun hended => ?_
    have hsome := isSome_reason_of_ended hstage hended
    rw [hopen] at hsome
    cases hsome
  case own_answer => exact fun hgoing answer hlive hpending => hpoll hgoing hpending hlive
  case calls =>
    intro hgoing index slot answer deadline asJson isTold hcall hpending
    exact exists_comesOut hstage hpending hcall hlast hgoing
  case told =>
    intro hgoing index slot answer deadline asJson isTold message hcall hpending hfound
    have hcame := (hpoll hgoing hpending (mem_live_of_call hcall rfl)).1
    rw [hfound] at hcame
    rw [follow_append _ _ [_], follow_cons, follow_nil]
    exact call_of_answered hlast hcall hcame
  case looked =>
    intro hgoing slot answer hkept hpending
    rw [reply_pollKept hlast hkept, (hpoll hgoing hpending (mem_live_of_kept hkept)).1]
  case stray =>
    exact fun dispatch _ answer hanswer hstray => dispatch.dispatch_of_stray hanswer hstray
  case not_pending =>
    intro dispatch hmem
    have hsound := sound_of_dispatched settings capacity fault (front ++ back) dispatch
      (by rw [hsplit]; exact List.mem_append_right _ hmem)
    refine ⟨PendingTable.ticket?_eq_none_iff.mpr hsound.ids_positive, fun answer hanswer => ?_⟩
    rw [dispatch.effect_dispatch.1, hanswer]
    exact (PendingTable.ticket?_resolve _ _ _).trans (if_pos rfl)
  case alike =>
    intro hgoing other lastOther halike answer hlive hother hpending
    rw [(hpoll hgoing hpending hlive).1, halike.answers.first?_eq,
      (poll_of_pending hstage hpending halike.stage halike.going hother).1]
  case calls_alike =>
    intro hgoing other lastOther halike index slot answer deadline asJson isTold one two hcall
      hpending hone htwo hsome hsomeOther
    obtain ⟨state, hstate, hcomes⟩ := exists_comesOut hstage hpending hcall hlast hgoing
    obtain ⟨⟩ := hstate.symm.trans hone
    obtain ⟨state, hstate, hcomesOther⟩ :=
      exists_comesOut hstage hpending hcall halike.stage halike.going
    obtain ⟨⟩ := hstate.symm.trans htwo
    obtain ⟨message, hfound, rfl⟩ := hcomes.eq_of_message? hsome
    obtain ⟨message, hfoundOther, rfl⟩ := hcomesOther.eq_of_message? hsomeOther
    rw [halike.answers.first?_eq, hfoundOther] at hfound
    rw [Option.some.inj hfound]
  case permuted => exact fun other hperm hdistinct => Message.sameOrder_of_perm hperm hdistinct

/-- The answers to two requests come in the other order, and the server sends a push, a heartbeat
and answers for which nobody waits between them. -/
def answeredInReverse : List Move :=
  let answer (id byte : UInt8) := Packet.bytes ⟨.data, [4, id, byte]⟩
  [.command (.peerSends (answer 9 1 ++ Packet.bytes ⟨.data, [6, 1, 112, 5]⟩ ++ answer 2 2 ++
      Packet.bytes ⟨.heartbeat, []⟩ ++ answer 0 3) false), .peerWrites, .task .reader,
    .command (.peerSends (answer 1 4 ++ answer 1 5) false), .peerWrites, .task .reader]

theorem follow_answersOwn_answeredInReverse :
    ∃ connection last,
      ((start {} 4096 {}).follow twoPending).stage = .connected connection ∧
      connection.session.pending.entries = [(2, 1), (1, 0)] ∧
      ((start {} 4096 {}).follow twoPending).answered answeredInReverse =
        [{ kind := .response, id := 9, payload := [1] },
          { kind := .response, id := 2, payload := [2] },
          { kind := .response, id := 0, payload := [3] },
          { kind := .response, id := 1, payload := [4] },
          { kind := .response, id := 1, payload := [5] }] ∧
      AnswersOwn (start {} 4096 {}) twoPending answeredInReverse connection last
        [⟨.data, [4, 9, 1]⟩, ⟨.data, [6, 1, 112, 5]⟩, ⟨.data, [4, 2, 2]⟩, ⟨.heartbeat, []⟩,
          ⟨.data, [4, 0, 3]⟩, ⟨.data, [4, 1, 4]⟩, ⟨.data, [4, 1, 5]⟩] := by
  have hentries : ((start {} 4096 {}).follow twoPending).connection?.map
      (fun connection => (connection.session.pending.entries, connection.session.reason)) =
        some ([(2, 1), (1, 0)], none) := by
    decide +kernel
  have hcut : PacketBuffer.cut Packet.defaultLimit none
        ((start {} 4096 {}).served (twoPending ++ answeredInReverse)) =
      ⟨⟨.handshake, Bytes.ofString "\x7b\"code\":200\x7d"⟩ ::
        (((start {} 4096 {}).dispatched twoPending).map (·.packet) ++
          [⟨.data, [4, 9, 1]⟩, ⟨.data, [6, 1, 112, 5]⟩, ⟨.data, [4, 2, 2]⟩, ⟨.heartbeat, []⟩,
            ⟨.data, [4, 0, 3]⟩, ⟨.data, [4, 1, 4]⟩, ⟨.data, [4, 1, 5]⟩]), none, none, []⟩ := by
    decide +kernel
  have hserved := PacketBuffer.divides_cut_none Packet.defaultLimit
    ((start {} 4096 {}).served (twoPending ++ answeredInReverse))
  rw [hcut] at hserved
  obtain ⟨connection, hconnection, hpending⟩ := Option.map_eq_some_iff.mp hentries
  obtain ⟨hentries, hopen⟩ := Prod.mk.inj hpending
  have hstage := connection?_eq_some_iff.mp hconnection
  obtain ⟨last, -, hanswers⟩ := follow_answersOwn hstage hopen hserved (by decide +kernel)
  exact ⟨connection, last, hstage, hentries, by decide +kernel, hanswers⟩

end Conversation

end RoutedSession
