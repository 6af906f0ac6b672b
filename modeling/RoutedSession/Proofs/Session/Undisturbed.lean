import RoutedSession.Proofs.Session.Handover
import RoutedSession.Proofs.Session.Reads

namespace RoutedSession

open Relation (ReflTransGen)

open Session (ReaderChange)

namespace Session

/-- Two sessions that differ at most in the channel of events: in what it holds, in how much it can
hold, and in who receives. -/
def SameButEvents (one other : Session) : Prop :=
  other = { one with events := other.events }

/-- Two sessions that differ at most in the queue, and the shutdown has been signalled in both or in
neither. -/
def SameButQueue (one other : Session) : Prop :=
  other = { one with outbox := other.outbox } ∧ other.outbox.stopped = one.outbox.stopped

theorem terminate_setEvents (session : Session) (events : EventChannel) (reason : CloseReason) :
    ({ session with events } : Session).terminate reason =
      { session.terminate reason with events } := by
  unfold terminate
  dsimp only
  split <;> rfl

theorem terminate_setOutbox (session : Session) {outbox : Outbox}
    (hstopped : outbox.stopped = session.outbox.stopped) (reason : CloseReason) :
    (session.terminate reason).SameButQueue
      (({ session with outbox } : Session).terminate reason) := by
  unfold terminate
  dsimp only
  split
  · exact ⟨rfl, hstopped⟩
  · exact ⟨rfl, rfl⟩

end Session

namespace Reader

/-- Two works that have come to the same, but for what the sessions may differ in. -/
structure Agree (Same : Session → Session → Prop) (one other : Work) : Prop where
  reader : other.reader = one.reader
  link : other.link = one.link
  session : Same one.session other.session

/-- Sessions that a relation holds of are the same to the reader, one packet after the other. -/
structure Respects (Same : Session → Session → Prop) : Prop where
  stopped : ∀ {one other}, Same one other → other.outbox.stopped = one.outbox.stopped
  dispatch : ∀ {one other}, Same one other → ∀ packet,
    (other.dispatch packet).2 = (one.dispatch packet).2 ∧
      Same (one.dispatch packet).1 (other.dispatch packet).1
  finish : ∀ {one other}, Same one other → ∀ link reason,
    Same (finish one link reason).session (finish other link reason).session

section

variable {Same : Session → Session → Prop} {one other : Session}

theorem Respects.agree_finish (hrespects : Respects Same) (hsame : Same one other) (link : Link)
    (reason : CloseReason) : Agree Same (Reader.finish one link reason)
      (Reader.finish other link reason) :=
  ⟨rfl, rfl, hrespects.finish hsame link reason⟩

theorem Respects.dispatchAll (hrespects : Respects Same) (hsame : Same one other)
    (packets : List Packet) :
    (other.dispatchAll packets).2 = (one.dispatchAll packets).2 ∧
      Same (one.dispatchAll packets).1 (other.dispatchAll packets).1 := by
  induction packets generalizing one other with
  | nil => exact ⟨rfl, hsame⟩
  | cons packet rest ih =>
      obtain ⟨hcause, hafter⟩ := hrespects.dispatch hsame packet
      rw [Session.dispatchAll_cons, Session.dispatchAll_cons]
      generalize one.dispatch packet = first at hcause hafter ⊢
      generalize other.dispatch packet = second at hcause hafter ⊢
      obtain ⟨one, _⟩ := first
      obtain ⟨other, cause?⟩ := second
      subst hcause
      cases cause? with
      | some reason => exact ⟨rfl, hafter⟩
      | none => exact ih hafter

theorem Respects.takeIn (hrespects : Respects Same) (hsame : Same one other) (link : Link)
    (buffer : PacketBuffer) (bytes : Bytes) :
    Agree Same (Reader.takeIn one link buffer bytes) (Reader.takeIn other link buffer bytes) := by
  unfold Reader.takeIn
  rcases buffer.push bytes with ⟨reason | packets, after⟩
  · exact hrespects.agree_finish hsame link _
  · obtain ⟨hcause, hafter⟩ := hrespects.dispatchAll hsame packets
    dsimp only
    generalize one.dispatchAll packets = first at hcause hafter ⊢
    generalize other.dispatchAll packets = second at hcause hafter ⊢
    obtain ⟨one, _⟩ := first
    obtain ⟨other, cause?⟩ := second
    subst hcause
    cases cause? with
    | some reason => exact hrespects.agree_finish hafter link reason
    | none => exact ⟨rfl, rfl, hafter⟩

theorem Respects.readOn (hrespects : Respects Same) (share : Nat) (hsame : Same one other)
    (link : Link) (buffer : PacketBuffer) :
    Agree Same (Reader.readOn share one link buffer) (Reader.readOn share other link buffer) := by
  -- On the reads that are left; both sessions find the same in the stream.
  induction share generalizing one other link buffer with
  | zero =>
      unfold Reader.readOn
      exact ⟨rfl, rfl, hsame⟩
  | succ share ih =>
      rw [readOn_succ, readOn_succ, hrespects.stopped hsame]
      split
      · exact hrespects.agree_finish hsame link _
      · rcases link.read chunk with ⟨bytes | _ | _ | reason, rest⟩
        · have hread := hrespects.takeIn hsame rest buffer bytes
          dsimp only
          generalize Reader.takeIn one rest buffer bytes = first at hread ⊢
          generalize Reader.takeIn other rest buffer bytes = second at hread ⊢
          obtain ⟨_, one, _⟩ := first
          obtain ⟨reader, other, rest⟩ := second
          obtain ⟨rfl, rfl, hafter⟩ := hread
          cases reader with
          | reading buffer => exact ih hafter rest buffer
          | _ => exact ⟨rfl, rfl, hafter⟩
        · exact hrespects.agree_finish hsame rest _
        · exact ⟨rfl, rfl, hsame⟩
        · exact hrespects.agree_finish hsame rest _

theorem Respects.poll (hrespects : Respects Same) (hsame : Same one other) (reader : Reader)
    (link : Link) : Agree Same (poll ⟨reader, one, link⟩) (poll ⟨reader, other, link⟩) := by
  unfold Reader.poll
  cases reader with
  | ended => exact ⟨rfl, rfl, hsame⟩
  | reading buffer => exact hrespects.readOn _ hsame link buffer
  | starting packets buffer =>
      obtain ⟨hcause, hafter⟩ := hrespects.dispatchAll hsame packets
      dsimp only
      generalize one.dispatchAll packets = first at hcause hafter ⊢
      generalize other.dispatchAll packets = second at hcause hafter ⊢
      obtain ⟨one, _⟩ := first
      obtain ⟨other, cause?⟩ := second
      subst hcause
      cases cause? with
      | some reason => exact hrespects.agree_finish hafter link reason
      | none => exact hrespects.readOn _ hafter link buffer

end

theorem respects_events : Respects Session.SameButEvents where
  stopped := by
    intro one other hsame
    rw [hsame]
  dispatch := by
    intro one other hsame packet
    unfold Session.SameButEvents at hsame ⊢
    generalize other.events = events at hsame
    subst hsame
    unfold Session.dispatch
    cases packet.kind with
    | heartbeat =>
        obtain ⟨reply, hreply, hone⟩ := one.answerHeartbeat_eq_ok
        have hother : ({ one with events } : Session).answerHeartbeat =
            .ok { one with events, outbox := (one.outbox.trySend reply).2 } :=
          Session.answerHeartbeat_of_frame hreply
        rw [hone, hother]
        exact ⟨rfl, rfl⟩
    | data =>
        dsimp only
        cases Message.decode one.routes packet.payload with
        | error reason => exact ⟨rfl, rfl⟩
        | ok message =>
            unfold Session.deliver
            dsimp only
            split <;> exact ⟨rfl, rfl⟩
    | _ => exact ⟨rfl, rfl⟩
  finish := by
    intro one other hsame link reason
    unfold Session.SameButEvents at hsame ⊢
    generalize other.events = events at hsame
    subst hsame
    unfold finish
    rw [Session.terminate_setEvents]

theorem respects_queue : Respects Session.SameButQueue where
  stopped hsame := hsame.2
  dispatch := by
    intro one other hsame packet
    unfold Session.SameButQueue at hsame ⊢
    obtain ⟨hother, hstopped⟩ := hsame
    generalize other.outbox = outbox at hother hstopped
    subst hother
    unfold Session.dispatch
    cases packet.kind with
    | heartbeat =>
        obtain ⟨reply, hreply, hone⟩ := one.answerHeartbeat_eq_ok
        have hother : ({ one with outbox } : Session).answerHeartbeat =
            .ok { one with outbox := (outbox.trySend reply).2 } :=
          Session.answerHeartbeat_of_frame hreply
        rw [hone, hother]
        refine ⟨rfl, rfl, ?_⟩
        exact (Outbox.sameTerms_trySend _ _).stopped.trans
          (hstopped.trans (Outbox.sameTerms_trySend _ _).stopped.symm)
    | data =>
        dsimp only
        cases Message.decode one.routes packet.payload with
        | error reason => exact ⟨rfl, rfl, hstopped⟩
        | ok message =>
            unfold Session.deliver
            dsimp only
            split <;> exact ⟨rfl, rfl, hstopped⟩
    | _ => exact ⟨rfl, rfl, hstopped⟩
  finish := by
    intro one other hsame link reason
    obtain ⟨hother, hstopped⟩ := hsame
    have hended := one.terminate_setOutbox hstopped reason
    rw [← hother] at hended
    unfold finish
    obtain ⟨hother, hstopped⟩ := hended
    generalize other.terminate reason = last at hother hstopped
    generalize last.outbox = outbox at hother hstopped
    subst hother
    exact ⟨rfl, hstopped⟩

theorem waits_of_goes {session after : Session} {cause? : Option CloseReason}
    (hgoes : session.Goes ReaderChange cause? after) :
    after.outbox.waiting = session.outbox.waiting ∧
      after.outbox.granted = session.outbox.granted := by
  have hchanges {last : Session} (hcourse : ReflTransGen ReaderChange session last) :
      last.outbox.waiting = session.outbox.waiting ∧
        last.outbox.granted = session.outbox.granted := by
    induction hcourse with
    | refl => exact ⟨rfl, rfl⟩
    | tail _ hchange ih =>
        cases hchange with
        | @replied reply hreply =>
            dsimp only
            unfold Outbox.trySend
            split
            · exact ih
            · split <;> exact ih
        | _ => exact ih
  cases hgoes with
  | on hcourse => exact hchanges hcourse
  | @ends last hcourse reason events =>
      have hlast := hchanges hcourse
      dsimp only
      unfold Session.terminate
      split <;> exact hlast

/-- What reading makes of a session has nothing to do with how the events are received and how the
frames are written. -/
structure Undisturbed (session : Session) (read : Session → Work) : Prop where
  by_events : ∀ other, session.SameButEvents other →
    Agree Session.SameButEvents (read session) (read other)
  by_queue : ∀ other, session.SameButQueue other →
    Agree Session.SameButQueue (read session) (read other)
  /-- No packet is left that waits to take effect. -/
  all_taken : (read session).reader.waiting = []
  /-- The reader is not among those who wait for a slot of the queue. -/
  waits_not : (read session).session.outbox.waiting = session.outbox.waiting ∧
    (read session).session.outbox.granted = session.outbox.granted

theorem undisturbed_of_respects {session : Session} {read : Session → Work}
    (hagree : ∀ Same, Respects Same → ∀ other, Same session other →
      Agree Same (read session) (read other))
    (htaken : (read session).reader.waiting = [])
    (hgoes : ∃ cause?, session.Goes ReaderChange cause? (read session).session) :
    Undisturbed session read where
  by_events := hagree _ respects_events
  by_queue := hagree _ respects_queue
  all_taken := htaken
  waits_not := by
    obtain ⟨cause?, hgoes⟩ := hgoes
    exact waits_of_goes hgoes

theorem waiting_takeIn (session : Session) (link : Link) (buffer : PacketBuffer) (bytes : Bytes) :
    (takeIn session link buffer bytes).reader.waiting = [] := by
  unfold takeIn
  split
  · rfl
  · split <;> rfl

theorem waiting_poll (reader : Reader) (session : Session) (link : Link) :
    (poll ⟨reader, session, link⟩).reader.waiting = [] := by
  by_cases hended : reader = .ended
  · subst hended
    rfl
  · exact (left_poll hended session link).waiting

/-- What the reader does with whatever comes from the server, if it comes to a session that stands
so. -/
structure ReadsUndisturbed (session : Session) : Prop where
  /-- The bytes of one read. -/
  read : ∀ link buffer bytes, Undisturbed session (takeIn · link buffer bytes)
  /-- A turn, with as many reads as there are. -/
  turn : ∀ reader link, Undisturbed session fun session => poll ⟨reader, session, link⟩
  /-- A turn is due or not, however the events are received and the frames are written. -/
  due : ∀ other, session.SameButEvents other ∨ session.SameButQueue other → ∀ reader link,
    isReady other link reader = isReady session link reader

/-- Neither those who receive the events nor the queue can hold up the reader, or change anything of
what it does but the events and the queue. -/
theorem poll_readsUndisturbed (session : Session) : ReadsUndisturbed session where
  read link buffer bytes :=
    undisturbed_of_respects (fun _ hrespects _ hsame => hrespects.takeIn hsame link buffer bytes)
      (waiting_takeIn session link buffer bytes) (goes_takeIn session link buffer bytes)
  turn reader link := by
    obtain ⟨cause?, hgoes, -⟩ := reader.goes_poll session link
    exact undisturbed_of_respects (fun _ hrespects _ hsame => hrespects.poll hsame reader link)
      (waiting_poll reader session link) ⟨cause?, hgoes⟩
  due := by
    intro other hsame reader link
    have hstopped : other.outbox.stopped = session.outbox.stopped := by
      rcases hsame with hsame | hsame
      · exact respects_events.stopped hsame
      · exact respects_queue.stopped hsame
    cases reader with
    | reading buffer => rw [isReady, isReady, hstopped]
    | _ => rfl

end Reader

end RoutedSession
