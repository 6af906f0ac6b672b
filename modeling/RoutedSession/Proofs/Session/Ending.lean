import RoutedSession.Proofs.Outbox.Queue
import RoutedSession.Proofs.Pending.Table
import RoutedSession.Proofs.Session.Change

namespace RoutedSession

open Relation (ReflTransGen)

namespace Session

/-- The places that tell whether a session has ended tell the same, and the pending requests are
sound. -/
structure Coherent (session : Session) : Prop where
  lifecycle_closed : session.lifecycle = .closed ↔ session.reason.isSome = true
  outbox_stopped : session.outbox.stopped = session.reason.isSome
  pending_closed : session.pending.closed = session.reason.isSome
  pending_sound : session.pending.Sound

/-- Nothing has been added to a session, and its end is told as before. -/
structure AddsNothing (before after : Session) : Prop where
  reason : after.reason = before.reason
  issued : after.pending.issued = before.pending.issued
  frames : after.outbox.frames <:+ before.outbox.frames

theorem AddsNothing.refl (session : Session) : AddsNothing session session :=
  ⟨rfl, rfl, List.suffix_refl _⟩

theorem AddsNothing.trans {first middle last : Session} (hfront : AddsNothing first middle)
    (hback : AddsNothing middle last) : AddsNothing first last :=
  ⟨hback.reason.trans hfront.reason, hback.issued.trans hfront.issued,
    hback.frames.trans hfront.frames⟩

theorem ReaderChange.coherent {session after : Session} (hchange : ReaderChange session after)
    (hbefore : session.Coherent) : after.Coherent := by
  obtain ⟨hlifecycle, hstopped, hclosed, hsound⟩ := hbefore
  cases hchange with
  | answered answer =>
      exact ⟨hlifecycle, hstopped, (PendingTable.closed_resolve _ _).trans hclosed,
        hsound.resolve answer⟩
  | replied hreply =>
      exact ⟨hlifecycle, (Outbox.sameTerms_trySend _ _).stopped.trans hstopped, hclosed, hsound⟩
  | told events => exact ⟨hlifecycle, hstopped, hclosed, hsound⟩

theorem WriterChange.coherent {session after : Session} (hchange : WriterChange session after)
    (hbefore : session.Coherent) : after.Coherent := by
  obtain ⟨hlifecycle, hstopped, hclosed, hsound⟩ := hbefore
  cases hchange with
  | taken limit =>
      exact ⟨hlifecycle, (Outbox.sameTerms_takeUpTo _ _).stopped.trans hstopped, hclosed, hsound⟩
  | unreceived => exact ⟨hlifecycle, hstopped, hclosed, hsound⟩

theorem CallChange.coherent {session after : Session} (hchange : CallChange session after)
    (hbefore : session.Coherent) : after.Coherent := by
  obtain ⟨hlifecycle, hstopped, hclosed, hsound⟩ := hbefore
  cases hchange with
  | registered hregister =>
      have hafter := hsound.register hregister
      obtain ⟨hopen, -, -, -, rfl⟩ := PendingTable.register_eq_some hregister
      exact ⟨hlifecycle, hstopped, hclosed, hafter⟩
  | looked answer =>
      refine ⟨hlifecycle, hstopped, ?_, ?_⟩ <;> dsimp only <;> rw [answer.snd_poll]
      · exact hclosed
      · exact hsound.take _
  | gaveUp answer =>
      refine ⟨hlifecycle, hstopped, ?_, ?_⟩ <;> dsimp only <;>
        rcases answer.drop_cases session.pending with hdrop | hdrop <;> rw [hdrop]
      · exact hclosed
      · exact hclosed
      · exact hsound.take _
      · exact hsound.without _
  | sent sender frame =>
      exact ⟨hlifecycle, (Outbox.sameTerms_send _ _ _).stopped.trans hstopped, hclosed, hsound⟩
  | tried frame =>
      exact ⟨hlifecycle, (Outbox.sameTerms_trySend _ _).stopped.trans hstopped, hclosed, hsound⟩
  | resumed sender frame =>
      exact ⟨hlifecycle, (Outbox.sameTerms_resume _ _ _).stopped.trans hstopped, hclosed, hsound⟩
  | left sender =>
      exact ⟨hlifecycle, (Outbox.sameTerms_leave _ _).stopped.trans hstopped, hclosed, hsound⟩
  | routed call => exact ⟨hlifecycle, hstopped, hclosed, hsound⟩

theorem Change.coherent {session after : Session} (hchange : Change session after)
    (hbefore : session.Coherent) : after.Coherent := by
  cases hchange with
  | reader hchange => exact hchange.coherent hbefore
  | writer hchange => exact hchange.coherent hbefore
  | call hchange => exact hchange.coherent hbefore

theorem Change.reason_eq {session after : Session} (hchange : Change session after) :
    after.reason = session.reason := by
  rcases hchange with hchange | hchange | hchange <;> cases hchange <;> rfl

theorem CallChange.issued_eq {session after : Session} (hchange : CallChange session after)
    (hclosed : session.pending.closed = true) : after.pending.issued = session.pending.issued := by
  cases hchange with
  | registered hregister =>
      rw [(PendingTable.register_eq_some hregister).1] at hclosed
      cases hclosed
  | looked answer =>
      dsimp only
      rw [answer.snd_poll]
      rfl
  | gaveUp answer =>
      dsimp only
      rcases answer.drop_cases session.pending with hdrop | hdrop <;> rw [hdrop] <;> rfl
  | _ => rfl

theorem CallChange.frames_suffix {session after : Session} (hchange : CallChange session after)
    (hstopped : session.outbox.stopped = true) : after.outbox.frames <:+ session.outbox.frames := by
  cases hchange with
  | sent sender frame => simp [Outbox.send_of_stopped hstopped]
  | tried frame => simp [Outbox.trySend_of_stopped hstopped]
  | resumed sender frame => simp [Outbox.resume_of_stopped hstopped]
  | left sender => exact (Outbox.frames_leave _ _).symm ▸ List.suffix_refl _
  | _ => exact List.suffix_refl _

/-- After the end of a session no change adds anything to it. -/
theorem Change.addsNothing {session after : Session} (hchange : Change session after)
    (hbefore : session.Coherent) (hended : session.reason.isSome = true) :
    AddsNothing session after := by
  have hstopped := hbefore.outbox_stopped.trans hended
  have hclosed := hbefore.pending_closed.trans hended
  refine ⟨hchange.reason_eq, ?_, ?_⟩
  · cases hchange with
    | reader hchange =>
        cases hchange with
        | answered answer => exact PendingTable.issued_resolve _ _
        | _ => rfl
    | writer hchange => cases hchange <;> rfl
    | call hchange => exact hchange.issued_eq hclosed
  · cases hchange with
    | reader hchange =>
        cases hchange with
        | replied hreply => simp [Outbox.trySend_of_stopped hstopped]
        | _ => exact List.suffix_refl _
    | writer hchange =>
        cases hchange with
        | taken limit => exact Outbox.frames_takeUpTo_suffix _ _
        | unreceived => exact List.nil_suffix
    | call hchange => exact hchange.frames_suffix hstopped

theorem terminate_of_isSome {session : Session} (hended : session.reason.isSome = true)
    (reason : CloseReason) : session.terminate reason = session := by
  obtain ⟨first, hfirst⟩ := Option.isSome_iff_exists.mp hended
  rw [terminate, hfirst]

theorem terminate_of_eq_none {session : Session} (hgoing : session.reason = none)
    (reason : CloseReason) :
    session.terminate reason =
      { session with
        reason := some reason
        outbox := session.outbox.stop
        pending := session.pending.close.2
        lifecycle := .closed } := by
  rw [terminate, hgoing]

theorem pending_terminate_setOutbox (session : Session) (outbox : Outbox) (reason : CloseReason) :
    (({ session with outbox } : Session).terminate reason).pending =
      (session.terminate reason).pending := by
  unfold terminate
  dsimp only
  split <;> rfl

theorem coherent_terminate {session : Session} (hbefore : session.Coherent) (reason : CloseReason) :
    (session.terminate reason).Coherent := by
  cases hreason : session.reason with
  | some first =>
      rw [terminate_of_isSome (by rw [hreason]; rfl)]
      exact hbefore
  | none =>
      rw [terminate_of_eq_none hreason]
      exact ⟨iff_of_true rfl rfl, rfl, rfl, hbefore.pending_sound.close⟩

theorem coherent_of_changes {session after : Session}
    (hchanges : ReflTransGen Change session after) (hbefore : session.Coherent) :
    after.Coherent ∧ after.reason = session.reason := by
  induction hchanges with
  | refl => exact ⟨hbefore, rfl⟩
  | tail _ hchange ih => exact ⟨hchange.coherent ih.1, hchange.reason_eq.trans ih.2⟩

theorem addsNothing_of_changes {session after : Session}
    (hchanges : ReflTransGen Change session after) (hbefore : session.Coherent)
    (hended : session.reason.isSome = true) : AddsNothing session after := by
  induction hchanges with
  | refl => exact .refl session
  | tail hchanges hchange ih =>
      obtain ⟨hcoherent, hreason⟩ := coherent_of_changes hchanges hbefore
      exact ih.trans (hchange.addsNothing hcoherent (by rw [hreason, hended]))

theorem Goes.coherent {session after : Session} {cause? : Option CloseReason}
    (hgoes : session.Goes Change cause? after) (hbefore : session.Coherent) : after.Coherent := by
  cases hgoes with
  | on hchanges => exact (coherent_of_changes hchanges hbefore).1
  | ends hchanges reason events =>
      have hlast := (coherent_of_changes hchanges hbefore).1
      exact (ReaderChange.told events).coherent (coherent_terminate hlast reason)

theorem Goes.reason_eq {session after : Session} {cause? : Option CloseReason}
    (hgoes : session.Goes Change cause? after) (hbefore : session.Coherent)
    (hgoing : session.reason = none) : after.reason = cause? := by
  cases hgoes with
  | on hchanges => exact (coherent_of_changes hchanges hbefore).2.trans hgoing
  | ends hchanges reason events =>
      have hlast := (coherent_of_changes hchanges hbefore).2.trans hgoing
      rw [terminate_of_eq_none hlast]

theorem Goes.addsNothing {session after : Session} {cause? : Option CloseReason}
    (hgoes : session.Goes Change cause? after) (hbefore : session.Coherent)
    (hended : session.reason.isSome = true) : AddsNothing session after := by
  cases hgoes with
  | on hchanges => exact addsNothing_of_changes hchanges hbefore hended
  | ends hchanges reason events =>
      have hsame := addsNothing_of_changes hchanges hbefore hended
      rw [terminate_of_isSome (by rw [hsame.reason, hended])]
      exact ⟨hsame.reason, hsame.issued, hsame.frames⟩

theorem standing_terminate {session : Session} (hbefore : session.Coherent)
    (hgoing : session.reason = none) {id : UInt32} {ticket : Ticket}
    (hpending : (id, ticket) ∈ session.pending.entries) (reason : CloseReason) :
    (session.terminate reason).pending.standing ticket = .ready (.error .closed) := by
  rw [terminate_of_eq_none hgoing]
  refine hbefore.pending_sound.close.standing_of_mem_outcomes ?_
  exact List.mem_append_left _ (List.mem_map_of_mem hpending)

theorem ReaderChange.pending_or_answered {session after : Session}
    (hchange : ReaderChange session after) (hbefore : session.Coherent) {id : UInt32}
    {ticket : Ticket} (hpending : (id, ticket) ∈ session.pending.entries) :
    (id, ticket) ∈ after.pending.entries ∨
      ∃ answer : Message, answer.id = id ∧ (ticket, .ok answer) ∈ after.pending.outcomes := by
  cases hchange with
  | answered answer =>
      have hheld := hbefore.pending_sound.ticket?_eq_some_iff.mpr hpending
      by_cases hsame : answer.id = id
      · subst hsame
        refine .inr ⟨answer, rfl, ?_⟩
        rw [PendingTable.resolve_of_ticket?_eq_some hheld]
        exact List.mem_cons_self
      · refine .inl ?_
        apply (hbefore.pending_sound.resolve answer).ticket?_eq_some_iff.mp
        rw [PendingTable.ticket?_resolve, if_neg (Ne.symm hsame)]
        exact hheld
  | _ => exact .inl hpending

theorem ReaderChange.outcomes_subset {session after : Session}
    (hchange : ReaderChange session after) : session.pending.outcomes ⊆ after.pending.outcomes := by
  cases hchange with
  | answered answer =>
      dsimp only
      unfold PendingTable.resolve
      split
      · exact List.Subset.refl _
      · exact List.subset_cons_self _ _
  | _ => exact List.Subset.refl _

theorem Goes.standing_of_ends {session after : Session} {reason : CloseReason}
    (hgoes : session.Goes ReaderChange (some reason) after) (hbefore : session.Coherent)
    (hgoing : session.reason = none) {id : UInt32} {ticket : Ticket}
    (hpending : (id, ticket) ∈ session.pending.entries) :
    after.pending.standing ticket = .ready (.error .closed) ∨
      ∃ answer : Message, answer.id = id ∧ after.pending.standing ticket = .ready (.ok answer) := by
  cases hgoes with
  | @ends last hchanges _ events =>
      have hlast (last : Session) (hchanges : ReflTransGen ReaderChange session last) :
          last.Coherent ∧ last.reason = none ∧ ((id, ticket) ∈ last.pending.entries ∨
            ∃ answer : Message, answer.id = id ∧ (ticket, .ok answer) ∈ last.pending.outcomes) := by
        induction hchanges with
        | refl => exact ⟨hbefore, hgoing, .inl hpending⟩
        | tail _ hchange ih =>
            obtain ⟨hcoherent, hreason, hpending⟩ := ih
            refine ⟨hchange.coherent hcoherent,
              (Change.reader hchange).reason_eq.trans hreason, ?_⟩
            rcases hpending with hpending | ⟨answer, hid, hanswered⟩
            · exact hchange.pending_or_answered hcoherent hpending
            · exact .inr ⟨answer, hid, hchange.outcomes_subset hanswered⟩
      obtain ⟨hcoherent, hreason, hpending | ⟨answer, hid, hanswered⟩⟩ := hlast last hchanges
      · exact .inl (standing_terminate hcoherent hreason hpending reason)
      · refine .inr ⟨answer, hid, ?_⟩
        have hafter := (coherent_terminate hcoherent reason).pending_sound
        refine hafter.standing_of_mem_outcomes ?_
        rw [terminate_of_eq_none hreason]
        exact List.mem_append_right _ hanswered

end Session

end RoutedSession
