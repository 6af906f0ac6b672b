import RoutedSession.Proofs.Session.Effects
import RoutedSession.Proofs.Session.Handover

namespace RoutedSession

open Session (TakeEffect)

/-- The event that is put in when a packet takes effect. -/
def Dispatch.put? (dispatch : Dispatch) : Option Event :=
  if dispatch.session.events.Accepts then dispatch.notice?.map .push else none

namespace EventChannel

/-- Events have been put in behind those that were held. -/
structure Gains (before after : EventChannel) (events : List Event) : Prop where
  held : after.held = before.held ++ events
  capacity : after.capacity = before.capacity
  isClosed : after.isClosed = before.isClosed
  fits : before.Fits → after.Fits

theorem Gains.refl (channel : EventChannel) : channel.Gains channel [] :=
  ⟨(List.append_nil _).symm, rfl, rfl, id⟩

theorem Gains.trans {first middle last : EventChannel} {front back : List Event}
    (hfront : first.Gains middle front) (hback : middle.Gains last back) :
    first.Gains last (front ++ back) where
  held := by rw [hback.held, hfront.held, List.append_assoc]
  capacity := hback.capacity.trans hfront.capacity
  isClosed := hback.isClosed.trans hfront.isClosed
  fits hfits := hback.fits (hfront.fits hfits)

theorem gains_offer (channel : EventChannel) (event : Event) :
    channel.Gains (channel.offer event) (if channel.Accepts then [event] else []) where
  held := by
    split
    · rename_i haccepts
      rw [offer_of_accepts haccepts]
    · rename_i hfull
      rw [offer_of_not_accepts hfull, List.append_nil]
  capacity := channel.capacity_offer event
  isClosed := channel.isClosed_offer event
  fits hfits := hfits.offer event

end EventChannel

theorem Dispatch.gains (dispatch : Dispatch) :
    dispatch.session.events.Gains (dispatch.session.dispatch dispatch.packet).1.events
      dispatch.put?.toList := by
  rw [dispatch.effect_dispatch.2, put?]
  cases dispatch.notice? with
  | none =>
      rw [Option.map_none, ite_self]
      exact .refl _
  | some message =>
      have hoffer := dispatch.session.events.gains_offer (.push message)
      by_cases haccepts : dispatch.session.events.Accepts
      · rw [if_pos haccepts] at hoffer ⊢
        exact hoffer
      · rw [if_neg haccepts] at hoffer ⊢
        exact hoffer

section

variable {session : Session} {dispatches : List Dispatch} {result : Session × Option CloseReason}

theorem Session.TakeEffect.gains (heffect : session.TakeEffect dispatches result) :
    session.events.Gains result.1.events (dispatches.filterMap Dispatch.put?) := by
  have hcons (dispatch : Dispatch) (rest : List Dispatch) :
      (dispatch :: rest).filterMap Dispatch.put? =
        dispatch.put?.toList ++ rest.filterMap Dispatch.put? := by
    rw [List.filterMap_cons]
    cases dispatch.put? <;> rfl
  induction heffect with
  | nil session => exact .refl _
  | @last session after packet reason hdispatch =>
      have hfirst := Dispatch.gains ⟨session, packet⟩
      rw [hdispatch] at hfirst
      rw [hcons]
      exact hfirst.trans (.refl _)
  | @cons session next packet rest result hdispatch _ ih =>
      have hfirst := Dispatch.gains ⟨session, packet⟩
      rw [hdispatch] at hfirst
      rw [hcons]
      exact hfirst.trans ih

theorem Session.TakeEffect.meets (heffect : session.TakeEffect dispatches result)
    (hfits : session.events.Fits) : ∀ dispatch ∈ dispatches,
      dispatch.session.events.Fits ∧
        dispatch.session.events.capacity = session.events.capacity := by
  induction heffect with
  | nil => exact List.forall_mem_nil _
  | last => exact List.forall_mem_singleton.mpr ⟨hfits, rfl⟩
  | @cons session next packet rest result hdispatch _ ih =>
      have hfirst := Dispatch.gains ⟨session, packet⟩
      rw [hdispatch] at hfirst
      refine List.forall_mem_cons.mpr ⟨⟨hfits, rfl⟩, fun dispatch hmem => ?_⟩
      obtain ⟨hlater, hcapacity⟩ := ih (hfirst.fits hfits) dispatch hmem
      exact ⟨hlater, hcapacity.trans hfirst.capacity⟩

end

namespace Reader

/-- What a turn of the reader puts in: what the packets do that take effect, and if the reader ends,
the reason for which the session has ended, unless that does not fit. -/
inductive PutsIn (before : EventChannel) (pushes : List Event) (work : Work) : Prop where
  | goesOn (hreader : work.reader ≠ .ended) (hgains : before.Gains work.session.events pushes)
  | ends {last : EventChannel} {reason : CloseReason} {told : List Event}
      (hreader : work.reader = .ended) (hreason : work.session.reason = some reason)
      (hgains : before.Gains last (pushes ++ told))
      (htold : told = [.disconnected reason] ∨ told = [] ∧ ¬ last.Accepts)
      (hclosed : work.session.events = last.close)

theorem ComesTo.meets {session : Session} {dispatches : List Dispatch} {work : Work}
    (hcomes : ComesTo session dispatches work) (hfits : session.events.Fits) :
    ∀ dispatch ∈ dispatches, dispatch.session.events.Fits ∧
      dispatch.session.events.capacity = session.events.capacity := by
  cases hcomes with
  | goesOn heffect => exact heffect.meets hfits
  | ends heffect => exact heffect.meets hfits

theorem ComesTo.putsIn {session : Session} {dispatches : List Dispatch} {work : Work}
    (hcomes : ComesTo session dispatches work) :
    PutsIn session.events (dispatches.filterMap Dispatch.put?) work := by
  cases hcomes with
  | goesOn heffect => exact .goesOn nofun heffect.gains
  | @ends last cause? reason link heffect =>
      obtain ⟨first, hfirst⟩ :=
        Option.isSome_iff_exists.mp (last.isSome_reason_terminate reason)
      have hclosed : (finish last link reason).session.events =
          (last.events.offer (.disconnected first)).close := by
        unfold finish
        dsimp only
        rw [hfirst, Option.getD_some, Session.events_terminate]
      have hoffer := last.events.gains_offer (.disconnected first)
      refine .ends rfl hfirst (heffect.gains.trans hoffer) ?_ hclosed
      by_cases haccepts : last.events.Accepts
      · exact .inl (if_pos haccepts)
      · rw [EventChannel.offer_of_not_accepts haccepts]
        exact .inr ⟨if_neg haccepts, haccepts⟩

end Reader

namespace Conversation

/-- The events that the user has not taken. -/
def heldEvents (conversation : Conversation) : List Event :=
  match conversation.connection? with
  | some connection => connection.session.events.held
  | none => []

/-- The events that are put in by a move: those held behind the ones that were there. -/
def putBy (conversation : Conversation) (move : Move) : List Event :=
  (conversation.move move).heldEvents.drop conversation.heldEvents.length

/-- The events that are taken out by a move, or lost with the receiving end. -/
def takenBy (conversation : Conversation) (move : Move) : List Event :=
  conversation.heldEvents.take
    (conversation.heldEvents.length - (conversation.move move).heldEvents.length)

def put (conversation : Conversation) (moves : List Move) : List Event :=
  conversation.collect putBy moves

def taken (conversation : Conversation) (moves : List Move) : List Event :=
  conversation.collect takenBy moves

theorem put_append_singleton (conversation : Conversation) (moves : List Move) (move : Move) :
    conversation.put (moves ++ [move]) =
      conversation.put moves ++ (conversation.follow moves).putBy move :=
  conversation.collect_append_singleton putBy moves move

theorem taken_append_singleton (conversation : Conversation) (moves : List Move) (move : Move) :
    conversation.taken (moves ++ [move]) =
      conversation.taken moves ++ (conversation.follow moves).takenBy move :=
  conversation.collect_append_singleton takenBy moves move

theorem heldEvents_of_connected {conversation : Conversation} {connection : Connection}
    (hstage : conversation.stage = .connected connection) :
    conversation.heldEvents = connection.session.events.held := by
  rw [heldEvents, connection?_eq_some_iff.mpr hstage]

theorem heldEvents_of_unconnected {conversation : Conversation}
    (hstage : ∀ connection, conversation.stage ≠ .connected connection) :
    conversation.heldEvents = [] := by
  rw [heldEvents, connection?_eq_none hstage]

section

variable {conversation : Conversation} {move : Move}

theorem putBy_of_suffix
    (hsuffix : (conversation.move move).heldEvents <:+ conversation.heldEvents) :
    conversation.putBy move = [] :=
  List.drop_eq_nil_of_le hsuffix.length_le

theorem putBy_of_append {events : List Event}
    (happend : (conversation.move move).heldEvents = conversation.heldEvents ++ events) :
    conversation.putBy move = events := by
  rw [putBy, happend, List.drop_left]

theorem heldEvents_append_putBy
    (hmove : (conversation.move move).heldEvents <:+ conversation.heldEvents ∨
      conversation.heldEvents <+: (conversation.move move).heldEvents) :
    conversation.heldEvents ++ conversation.putBy move =
      conversation.takenBy move ++ (conversation.move move).heldEvents := by
  rcases hmove with hsuffix | ⟨events, happend⟩
  · rw [putBy_of_suffix hsuffix, List.append_nil, takenBy]
    obtain ⟨taken, htaken⟩ := hsuffix
    rw [← htaken, List.length_append, Nat.add_sub_cancel, List.take_left]
  · rw [putBy_of_append happend.symm, takenBy, ← happend, List.length_append,
      Nat.sub_eq_zero_of_le (Nat.le_add_right _ _), List.take_zero, List.nil_append]

end

/-- The turn in which the reader ends, and what it leaves behind. -/
structure ReaderEnds (origin : Conversation) (front : List Move) (last : Connection) : Prop where
  before : ∃ connection, (origin.follow front).stage = .connected connection ∧
    connection.reader ≠ .ended
  after : (origin.follow (front ++ [.task .reader])).stage = .connected last
  ended : last.reader = .ended

/-- What is told at the end: the reason, unless it finds the channel full or nobody to receive
it. -/
inductive Tells (origin : Conversation) (slots : Nat) (moves : List Move) (reason : CloseReason) :
    List Event → Prop where
  | told : Tells origin slots moves reason [.disconnected reason]
  | missing {front back : List Move} {last : Connection}
      (hmoves : moves = front ++ .task .reader :: back) (hends : origin.ReaderEnds front last)
      (hfull : last.session.events.receiver = .dropped ∨
        last.session.events.held.length = slots) :
      Tells origin slots moves reason []

/-- What the channel of a session has been given, which can hold so many events. -/
structure Records (origin : Conversation) (slots : Nat) (moves : List Move)
    (connection : Connection) : Prop where
  fits : connection.session.events.Fits
  capacity : connection.session.events.capacity = slots
  met : ∀ dispatch ∈ origin.dispatched moves,
    dispatch.session.events.Fits ∧ dispatch.session.events.capacity = slots
  conserved : origin.put moves = origin.taken moves ++ connection.session.events.held
  going : connection.reader ≠ .ended → connection.session.events.isClosed = false ∧
    origin.put moves = (origin.dispatched moves).filterMap Dispatch.put?
  ended : connection.reader = .ended → connection.session.events.isClosed = true ∧
    ∃ reason told, connection.session.reason = some reason ∧
      Tells origin slots moves reason told ∧
        origin.put moves = (origin.dispatched moves).filterMap Dispatch.put? ++ told

theorem Tells.append {origin : Conversation} {slots : Nat} {moves : List Move}
    {reason : CloseReason} {told : List Event} (htells : Tells origin slots moves reason told)
    (more : List Move) : Tells origin slots (moves ++ more) reason told := by
  cases htells with
  | told => exact .told
  | @missing front back last hmoves hends hfull =>
      have hsplit : moves ++ more = front ++ .task .reader :: (back ++ more) := by
        rw [hmoves, List.append_assoc, List.cons_append]
      exact .missing hsplit hends hfull

section

variable {origin : Conversation} {slots : Nat} {moves : List Move} {move : Move}
  {connection next : Connection}

theorem conserved_append
    (hbefore : origin.put moves = origin.taken moves ++ (origin.follow moves).heldEvents)
    (hmove : ((origin.follow moves).move move).heldEvents <:+ (origin.follow moves).heldEvents ∨
      (origin.follow moves).heldEvents <+: ((origin.follow moves).move move).heldEvents) :
    origin.put (moves ++ [move]) =
      origin.taken (moves ++ [move]) ++ ((origin.follow moves).move move).heldEvents := by
  rw [put_append_singleton, taken_append_singleton, hbefore, List.append_assoc,
    List.append_assoc, heldEvents_append_putBy hmove]

theorem Records.aside (hrecords : Records origin slots moves connection)
    (hstage : (origin.follow moves).stage = .connected connection)
    (hcoherent : (origin.follow moves).Coherent)
    (haside : move = .task .reader →
      connection.readerReady (origin.follow moves).link = false)
    (hnext : ((origin.follow moves).move move).stage = .connected next) :
    Records origin slots (moves ++ [move]) next := by
  obtain ⟨other, hother, hreader, hleft⟩ := exists_leftAlone hstage haside
  obtain rfl := Stage.connected.inj (hother.symm.trans hnext)
  have hdrains := hleft.drains
  have hsuffix : ((origin.follow moves).move move).heldEvents <:+
      (origin.follow moves).heldEvents := by
    rw [heldEvents_of_connected hnext, heldEvents_of_connected hstage]
    exact hdrains.held
  have hput : origin.put (moves ++ [move]) = origin.put moves := by
    rw [put_append_singleton, putBy_of_suffix hsuffix, List.append_nil]
  have hdispatched : origin.dispatched (moves ++ [move]) = origin.dispatched moves := by
    rw [dispatched_append_singleton, dispatchedBy_eq_nil hstage haside, List.append_nil]
  constructor
  case fits => exact hdrains.fits hrecords.fits
  case capacity => exact hdrains.capacity.trans hrecords.capacity
  case met =>
    rw [hdispatched]
    exact hrecords.met
  case conserved =>
    have hconserved := hrecords.conserved
    rw [← heldEvents_of_connected hstage] at hconserved
    rw [← heldEvents_of_connected hnext]
    exact conserved_append hconserved (.inl hsuffix)
  case going =>
    intro hgoing
    rw [hreader] at hgoing
    rw [hput, hdispatched, hdrains.isClosed]
    exact hrecords.going hgoing
  case ended =>
    intro hended
    rw [hreader] at hended
    obtain ⟨hclosed, reason, told, hreason, htells, hrecord⟩ := hrecords.ended hended
    obtain ⟨last, hlast, hsame⟩ :=
      hcoherent.addsNothing_follow hstage (by rw [hreason]; rfl) [move]
    obtain rfl := Stage.connected.inj (hnext.symm.trans hlast)
    rw [hput, hdispatched, hdrains.isClosed]
    exact ⟨hclosed, reason, told, hsame.reason.trans hreason, htells.append _, hrecord⟩

theorem put_of_gained
    (hbefore : origin.put moves = origin.taken moves ++ connection.session.events.held)
    (hstage : (origin.follow moves).stage = .connected connection)
    (hnext : ((origin.follow moves).move move).stage = .connected next) {events : List Event}
    (hheld : next.session.events.held = connection.session.events.held ++ events) :
    origin.put (moves ++ [move]) = origin.put moves ++ events ∧
      origin.put (moves ++ [move]) =
        origin.taken (moves ++ [move]) ++ next.session.events.held := by
  have hgained : ((origin.follow moves).move move).heldEvents =
      (origin.follow moves).heldEvents ++ events := by
    rw [heldEvents_of_connected hnext, heldEvents_of_connected hstage, hheld]
  constructor
  · rw [put_append_singleton, putBy_of_append hgained]
  · rw [← heldEvents_of_connected hstage] at hbefore
    rw [← heldEvents_of_connected hnext]
    exact conserved_append hbefore (.inr ⟨events, hgained.symm⟩)

theorem Records.reading (hrecords : Records origin slots moves connection)
    (hstage : (origin.follow moves).stage = .connected connection)
    (hready : connection.readerReady (origin.follow moves).link = true)
    (hnext : ((origin.follow moves).move (.task .reader)).stage = .connected next) {link : Link}
    (hcomes : Reader.ComesTo connection.session ((origin.follow moves).dispatchedBy (.task .reader))
      ⟨next.reader, next.session, link⟩) :
    Records origin slots (moves ++ [.task .reader]) next := by
  have hleft := Connection.reader_ne_ended hready
  obtain ⟨hopen, hput⟩ := hrecords.going hleft
  have hmet : ∀ dispatch ∈ origin.dispatched (moves ++ [.task .reader]),
      dispatch.session.events.Fits ∧ dispatch.session.events.capacity = slots := by
    rw [dispatched_append_singleton]
    refine List.forall_mem_append.mpr ⟨hrecords.met, ?_⟩
    rw [← hrecords.capacity]
    exact hcomes.meets hrecords.fits
  have hrecord {told : List Event} (hheld : next.session.events.held =
      connection.session.events.held ++
        (((origin.follow moves).dispatchedBy (.task .reader)).filterMap Dispatch.put? ++ told)) :
      origin.put (moves ++ [.task .reader]) =
          (origin.dispatched (moves ++ [.task .reader])).filterMap Dispatch.put? ++ told ∧
        origin.put (moves ++ [.task .reader]) =
          origin.taken (moves ++ [.task .reader]) ++ next.session.events.held := by
    obtain ⟨hnew, hconserved⟩ := put_of_gained hrecords.conserved hstage hnext hheld
    refine ⟨?_, hconserved⟩
    rw [hnew, hput, dispatched_append_singleton, List.filterMap_append, List.append_assoc]
  cases hcomes.putsIn with
  | goesOn hreader hgains =>
      have hheld := hgains.held
      rw [← List.append_nil (List.filterMap _ _)] at hheld
      exact {
        fits := hgains.fits hrecords.fits
        capacity := hgains.capacity.trans hrecords.capacity
        met := hmet
        conserved := (hrecord hheld).2
        going := fun _ =>
          ⟨hgains.isClosed.trans hopen, (hrecord hheld).1.trans (List.append_nil _)⟩
        ended := fun hended => absurd hended hreader }
  | @ends last reason told hreader hreason hgains htold hclosed =>
      dsimp only at hreader hreason hclosed
      have hfits := hgains.fits hrecords.fits
      have hcapacity := hgains.capacity.trans hrecords.capacity
      have hheld : next.session.events.held = connection.session.events.held ++
          (((origin.follow moves).dispatchedBy (.task .reader)).filterMap Dispatch.put? ++
            told) := by
        rw [hclosed]
        exact hgains.held
      have htells : Tells origin slots (moves ++ [.task .reader]) reason told := by
        rcases htold with rfl | ⟨rfl, hfull⟩
        · exact .told
        · have hends : origin.ReaderEnds moves next :=
            ⟨⟨connection, hstage, hleft⟩, by rwa [follow_append], hreader⟩
          refine .missing rfl hends ?_
          rw [hclosed, ← hcapacity]
          exact hfits.not_accepts_iff.mp hfull
      exact {
        fits := by rw [hclosed]; exact hfits
        capacity := by rw [hclosed]; exact hcapacity
        met := hmet
        conserved := (hrecord hheld).2
        going := fun hgoing => absurd hreader hgoing
        ended := fun _ => ⟨by rw [hclosed]; rfl, reason, told, hreason, htells, (hrecord hheld).1⟩ }

end

theorem establish_of_start {settings : Settings} {capacity : Nat} {fault : Fault}
    {moves : List Move} {move : Move} {connection : Connection}
    (hbefore : ∀ earlier, ((start settings capacity fault).follow moves).stage ≠ .connected earlier)
    (hafter : (((start settings capacity fault).follow moves).move move).stage =
      .connected connection) : ∃ accepted, connection = .establish settings accepted := by
  obtain ⟨read, hdelivers⟩ := exists_delivers settings capacity fault moves
  have hholds := hdelivers.stage
  have hopening := opening hbefore move
  generalize ((start settings capacity fault).follow moves).move move = after at hopening hafter
  cases hopening with
  | aside hstage => exact absurd (hstage.symm.trans hafter) (hbefore connection)
  | aborted hstage => cases hstage.symm.trans hafter
  | begun hstage => cases hafter
  | polled hstage =>
      rw [hstage] at hholds
      obtain _ | _ := hholds
      exact stage_pollAttempt _ _ _ _ hafter

/-- Without a session nothing has been put in or taken out. -/
structure RecordsNothing (origin : Conversation) (moves : List Move) : Prop where
  put : origin.put moves = []
  taken : origin.taken moves = []
  dispatched : origin.dispatched moves = []

theorem records_opening {settings : Settings} {capacity : Nat} {fault : Fault} {moves : List Move}
    {move : Move}
    (hbefore : ∀ earlier, ((start settings capacity fault).follow moves).stage ≠ .connected earlier)
    (hnothing : RecordsNothing (start settings capacity fault) moves) :
    RecordsNothing (start settings capacity fault) (moves ++ [move]) ∧
      ∀ connection,
        (((start settings capacity fault).follow moves).move move).stage = .connected connection →
          Records (start settings capacity fault) (max settings.eventCapacity 1) (moves ++ [move])
            connection := by
  have hnone := heldEvents_of_unconnected hbefore
  have hestablished (connection : Connection)
      (hafter : (((start settings capacity fault).follow moves).move move).stage =
        .connected connection) :
      connection.session.events = .ofCapacity settings.eventCapacity ∧
        connection.reader ≠ .ended := by
    obtain ⟨accepted, rfl⟩ := establish_of_start hbefore hafter
    exact ⟨rfl, nofun⟩
  have hempty : (((start settings capacity fault).follow moves).move move).heldEvents = [] := by
    by_cases hconnected : ∃ connection,
        (((start settings capacity fault).follow moves).move move).stage = .connected connection
    · obtain ⟨connection, hafter⟩ := hconnected
      rw [heldEvents_of_connected hafter, (hestablished connection hafter).1]
      rfl
    · exact heldEvents_of_unconnected (not_exists.mp hconnected)
  have hall : RecordsNothing (start settings capacity fault) (moves ++ [move]) := by
    constructor
    · rw [put_append_singleton, hnothing.put, putBy, hempty, List.drop_nil, List.append_nil]
    · rw [taken_append_singleton, hnothing.taken, takenBy, hnone, List.take_nil, List.append_nil]
    · rw [dispatched_append_singleton, hnothing.dispatched, dispatchedBy_of_unconnected hbefore,
        List.append_nil]
  refine ⟨hall, fun connection hafter => ?_⟩
  obtain ⟨hevents, hleft⟩ := hestablished connection hafter
  constructor
  case fits =>
    rw [hevents]
    exact EventChannel.fits_ofCapacity _
  case capacity =>
    rw [hevents]
    rfl
  case met =>
    rw [hall.dispatched]
    exact List.forall_mem_nil _
  case conserved =>
    rw [hall.put, hall.taken, hevents]
    rfl
  case going =>
    rw [hall.put, hall.dispatched, hevents]
    exact fun _ => ⟨rfl, rfl⟩
  case ended => exact fun hended => absurd hended hleft

theorem records (settings : Settings) (capacity : Nat) (fault : Fault) (moves : List Move) :
    (∀ connection, ((start settings capacity fault).follow moves).stage = .connected connection →
      Records (start settings capacity fault) (max settings.eventCapacity 1) moves connection) ∧
    ((∀ connection, ((start settings capacity fault).follow moves).stage ≠ .connected connection) →
      RecordsNothing (start settings capacity fault) moves) := by
  -- On the moves; the last one meets what the moves before it have left.
  induction moves using List.reverseRecOn with
  | nil =>
      refine ⟨fun connection hstage => ?_, fun _ => ⟨rfl, rfl, rfl⟩⟩
      rw [follow_nil] at hstage
      cases hstage
  | append_singleton moves move ih =>
      rw [follow_append_singleton]
      by_cases hconnected : ∃ connection,
          ((start settings capacity fault).follow moves).stage = .connected connection
      · obtain ⟨connection, hstage⟩ := hconnected
        have hrecords := ih.1 connection hstage
        rcases reader_or_aside _ connection move with ⟨rfl, hready⟩ | haside
        · obtain ⟨next, link, hnext, hcomes⟩ := exists_comesTo hstage hready
          refine ⟨fun other hsame => ?_, fun hnone => absurd hnext (hnone _)⟩
          obtain rfl := Stage.connected.inj (hnext.symm.trans hsame)
          exact hrecords.reading hstage hready hnext hcomes
        · obtain ⟨next, hnext, -⟩ := exists_leftAlone hstage haside
          have hcoherent := (coherent_start settings capacity fault).follow moves
          exact ⟨fun _ hsame => hrecords.aside hstage hcoherent haside hsame,
            fun hnone => absurd hnext (hnone next)⟩
      · obtain ⟨hnothing, hrecords⟩ := records_opening (not_exists.mp hconnected)
          (ih.2 (not_exists.mp hconnected))
        exact ⟨hrecords, fun _ => hnothing⟩

theorem put_of_ended {conversation : Conversation} {connection : Connection}
    (hstage : conversation.stage = .connected connection) (hended : connection.reader = .ended)
    (moves : List Move) : conversation.put moves = [] := by
  induction moves generalizing conversation connection with
  | nil => rfl
  | cons move moves ih =>
      have haside : move = .task .reader → connection.readerReady conversation.link = false := by
        intro
        rw [Connection.readerReady, hended]
        rfl
      obtain ⟨next, hnext, hreader, hleft⟩ := exists_leftAlone hstage haside
      have hsuffix : (conversation.move move).heldEvents <:+ conversation.heldEvents := by
        rw [heldEvents_of_connected hnext, heldEvents_of_connected hstage]
        exact hleft.drains.held
      have hrest := ih hnext (hreader.trans hended)
      rw [put] at hrest ⊢
      rw [collect, putBy_of_suffix hsuffix, hrest, List.append_nil]

theorem filterMap_put? (dispatches : List Dispatch) :
    dispatches.filterMap Dispatch.put? =
      ((dispatches.filter (·.session.events.Accepts)).filterMap Dispatch.notice?).map .push := by
  rw [List.filterMap_filter, List.map_filterMap]
  refine List.filterMap_congr fun dispatch _ => ?_
  rw [Dispatch.put?]
  by_cases haccepts : dispatch.session.events.Accepts <;> simp [haccepts]

theorem events_receive {conversation : Conversation} {connection : Connection}
    (hstage : conversation.stage = .connected connection) {limit : Option Nat}
    {events : List Event} {isOver : Bool}
    (hreply : (conversation.perform (.receive limit)).1 = .events events isOver) :
    events = conversation.takenBy (.command (.receive limit)) := by
  have hconnection := connection?_eq_some_iff.mpr hstage
  rw [takenBy, Conversation.move]
  unfold perform receive at hreply ⊢
  rw [hconnection] at hreply ⊢
  dsimp only at hreply ⊢
  split at hreply
  · rename_i huser
    rw [if_pos huser]
    obtain ⟨rfl, -⟩ := Reply.events.inj hreply
    rw [heldEvents_of_connected hstage, heldEvents_of_connected rfl]
    generalize limit.getD (connection.session.events.held.length + 1) = limit
    change connection.session.events.held.take limit = connection.session.events.held.take
      (connection.session.events.held.length - (connection.session.events.held.drop limit).length)
    rw [List.length_drop, List.take_eq_take_iff]
    omega
  · cases hreply

/-- The channel of events of a session that some moves have led to from the start. -/
structure RecordsEvents (origin : Conversation) (settings : Settings) (moves : List Move)
    (connection : Connection) : Prop where
  /-- What has been put in has been taken out in that order, or is held. -/
  conserved : origin.put moves = origin.taken moves ++ connection.session.events.held
  /-- What the user is given is what is taken out. -/
  received : ∀ limit events isOver,
    ((origin.follow moves).perform (.receive limit)).1 = .events events isOver →
      events = (origin.follow moves).takenBy (.command (.receive limit))
  /-- Messages that have taken effect and are no answers have been put in, in their order and none
  twice, and behind them at most the reason for the end. -/
  in_order : ∃ (messages : List Message) (told : List Event),
    origin.put moves = messages.map .push ++ told ∧
      messages.Sublist ((origin.dispatched moves).filterMap Dispatch.notice?) ∧
        (told = [] ∨ ∃ reason, connection.session.reason = some reason ∧
          told = [.disconnected reason])
  /-- None of them is missing but those that have found the channel full or nobody to receive
  them. -/
  missing : ∀ dispatch ∈ origin.dispatched moves, ∀ message, dispatch.notice? = some message →
    if dispatch.session.events.receiver = .dropped ∨
        dispatch.session.events.held.length = max settings.eventCapacity 1 then
      dispatch.put? = none
    else dispatch.put? = some (.push message)
  /-- Until the reader ends, the channel is open, and nothing else has been put in. -/
  going : connection.reader ≠ .ended → connection.session.events.isClosed = false ∧
    origin.put moves = (origin.dispatched moves).filterMap Dispatch.put?
  /-- When the reader has ended the channel is closed. The reason for the end has been put in behind
  the messages, unless the reader has found the channel full or nobody to receive it. -/
  ended : connection.reader = .ended → connection.session.events.isClosed = true ∧
    ∃ reason told, connection.session.reason = some reason ∧
      Tells origin (max settings.eventCapacity 1) moves reason told ∧
        origin.put moves = (origin.dispatched moves).filterMap Dispatch.put? ++ told
  /-- Then nothing follows. -/
  nothing_follows : connection.reader = .ended → ∀ more,
    origin.put (moves ++ more) = origin.put moves

/-- Whatever happens, and however the user receives the events, the channel is an ordered record of
the session, and it is true to what it leaves out. -/
theorem follow_recordsEvents {settings : Settings} {capacity : Nat} {fault : Fault}
    {moves : List Move} {connection : Connection}
    (hstage : ((start settings capacity fault).follow moves).stage = .connected connection) :
    RecordsEvents (start settings capacity fault) settings moves connection := by
  have hrecords := (records settings capacity fault moves).1 connection hstage
  constructor
  case conserved => exact hrecords.conserved
  case received => exact fun _ _ _ hreply => events_receive hstage hreply
  case in_order =>
    have hsublist : (((start settings capacity fault).dispatched moves).filter
        (·.session.events.Accepts)).filterMap Dispatch.notice? |>.Sublist
          (((start settings capacity fault).dispatched moves).filterMap Dispatch.notice?) :=
      List.filter_sublist.filterMap Dispatch.notice?
    by_cases hended : connection.reader = .ended
    · obtain ⟨-, reason, told, hreason, htells, hrecord⟩ := hrecords.ended hended
      rw [filterMap_put?] at hrecord
      refine ⟨_, told, hrecord, hsublist, ?_⟩
      cases htells with
      | told => exact .inr ⟨reason, hreason, rfl⟩
      | missing => exact .inl rfl
    · obtain ⟨-, hrecord⟩ := hrecords.going hended
      rw [filterMap_put?, ← List.append_nil (List.map _ _)] at hrecord
      exact ⟨_, [], hrecord, hsublist, .inl rfl⟩
  case missing =>
    intro dispatch hmem message hmessage
    obtain ⟨hfits, hcapacity⟩ := hrecords.met dispatch hmem
    have hfull := hfits.not_accepts_iff
    rw [hcapacity] at hfull
    rw [Dispatch.put?, hmessage]
    split
    · rename_i hmissing
      exact if_neg (hfull.mpr hmissing)
    · rename_i hroom
      exact if_pos (Decidable.not_not.mp (mt hfull.mp hroom))
  case going => exact hrecords.going
  case ended => exact hrecords.ended
  case nothing_follows =>
    intro hended more
    rw [put, collect_append, ← put, ← put, put_of_ended hstage hended, List.append_nil]

/-- The server sends pushes to a user who takes one event at a time, and then a kick. Only one event
can be held, and the second push comes too early. -/
def slowlyReceived : List Move :=
  let push (letter : UInt8) := Packet.bytes ⟨.data, [6, 1, 112, letter]⟩
  acceptance ++
    [.command (.onSession .takeEvents), .command (.peerSends (push 1 ++ push 2) false), .peerWrites,
      .task .reader, .command (.receive none), .command (.peerSends (push 3) false), .peerWrites,
      .task .reader, .command (.receive (some 1)),
      .command (.peerSends (Packet.bytes ⟨.kick, []⟩) false), .peerWrites, .task .reader]

theorem follow_recordsEvents_slowlyReceived :
    ∃ connection,
      ((start { eventCapacity := 1 } 4096 {}).follow slowlyReceived).stage =
        .connected connection ∧
      (start { eventCapacity := 1 } 4096 {}).put slowlyReceived =
        [.push { kind := .push, route := "p", payload := [1] },
          .push { kind := .push, route := "p", payload := [3] }, .disconnected .kicked] ∧
      RecordsEvents (start { eventCapacity := 1 } 4096 {}) { eventCapacity := 1 } slowlyReceived
        connection := by
  have hconnected : ((start { eventCapacity := 1 } 4096 {}).follow
      slowlyReceived).connection?.isSome = true := by
    decide +kernel
  obtain ⟨connection, hconnection⟩ := Option.isSome_iff_exists.mp hconnected
  have hstage := connection?_eq_some_iff.mp hconnection
  exact ⟨connection, hstage, by decide +kernel, follow_recordsEvents hstage⟩

end Conversation

end RoutedSession
