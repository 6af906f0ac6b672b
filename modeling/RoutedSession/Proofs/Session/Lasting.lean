import RoutedSession.Proofs.Pending.Registrations
import RoutedSession.Proofs.Session.Answers

namespace RoutedSession

open Relation (ReflTransGen)

open PendingTable (Lasts)

open Session (CallChange)

namespace PendingTable.Lasts

variable {Holding : PendingTable → Prop} {session after : Session}

theorem callChange (hlasts : Lasts Holding) (hchange : CallChange session after)
    (hbefore : Holding session.pending) : Holding after.pending := by
  cases hchange with
  | registered hregister => exact hlasts.register hbefore hregister
  | looked answer => exact hlasts.poll hbefore answer
  | gaveUp answer => exact hlasts.drop hbefore answer
  | _ => exact hbefore

theorem callChanges (hlasts : Lasts Holding) (hchanges : ReflTransGen CallChange session after)
    (hbefore : Holding session.pending) : Holding after.pending := by
  induction hchanges with
  | refl => exact hbefore
  | tail _ hchange ih => exact hlasts.callChange hchange ih

theorem terminate (hlasts : Lasts Holding) (hbefore : Holding session.pending)
    (reason : CloseReason) : Holding (session.terminate reason).pending := by
  unfold Session.terminate
  split
  · exact hbefore
  · exact hlasts.close hbefore

theorem goes {Changes : Session → Session → Prop} {cause? : Option CloseReason}
    (hlasts : Lasts Holding)
    (hchanges : ∀ last, ReflTransGen Changes session last → Holding last.pending)
    (hgoes : session.Goes Changes cause? after) : Holding after.pending := by
  cases hgoes with
  | on hcourse => exact hchanges _ hcourse
  | ends hcourse reason events => exact hlasts.terminate (hchanges _ hcourse) reason

theorem comesTo (hlasts : Lasts Holding) {dispatches : List Dispatch} {work : Reader.Work}
    (hcomes : Reader.ComesTo session dispatches work)
    (hresolve : ∀ message ∈ dispatches.filterMap (·.packet.answer?), ∀ table, Holding table →
      Holding (table.resolve message).2)
    (hbefore : Holding session.pending) : Holding work.session.pending := by
  have hanswers (answers : List Message)
      (hresolve : ∀ message ∈ answers, ∀ table, Holding table → Holding (table.resolve message).2)
      (table : PendingTable) (hbefore : Holding table) : Holding (table.afterAnswers answers) := by
    induction answers generalizing table with
    | nil => exact hbefore
    | cons message rest ih =>
        rw [List.forall_mem_cons] at hresolve
        exact ih hresolve.2 _ (hresolve.1 table hbefore)
  have heffect {result : Session × Option CloseReason}
      (heffect : session.TakeEffect dispatches result) : Holding result.1.pending := by
    rw [heffect.pending]
    exact hanswers _ hresolve _ hbefore
  cases hcomes with
  | goesOn hdispatches => exact heffect hdispatches
  | ends hdispatches => exact hlasts.terminate (heffect hdispatches) _

open Conversation in
theorem aside (hlasts : Lasts Holding) {before : Conversation} {connection next : Connection}
    {move : Move} (hstage : before.stage = .connected connection)
    (haside : move = .task .reader → connection.readerReady before.link = false)
    (hnext : (before.move move).stage = .connected next)
    (hbefore : Holding connection.session.pending) : Holding next.session.pending := by
  have hmoved := moved hstage move
  generalize before.move move = after at hmoved hnext
  cases hmoved with
  | aside hquiet hafter =>
      obtain rfl := Stage.connected.inj (hafter.symm.trans hnext)
      exact hbefore
  | started slot action =>
      obtain rfl := Stage.connected.inj (hstage.symm.trans hnext)
      exact hbefore
  | tried route payload =>
      obtain rfl := Stage.connected.inj hnext
      exact hlasts.callChanges (connection.changes_tryNotify route payload) hbefore
  | told hquiet events pushed =>
      obtain rfl := Stage.connected.inj hnext
      exact hbefore
  | changedRoutes hcall =>
      obtain rfl := Stage.connected.inj hnext
      exact hbefore
  | dropped hheld hidle =>
      obtain rfl := Stage.connected.inj hnext
      exact hlasts.terminate hbefore .byClient
  | looked hkept hcame =>
      obtain rfl := Stage.connected.inj hnext
      exact hlasts.poll hbefore _
  | gaveUp hkept =>
      obtain rfl := Stage.connected.inj hnext
      exact hlasts.drop hbefore _
  | aborted hcall hrunning =>
      obtain rfl := Stage.connected.inj hnext
      exact hlasts.callChanges (connection.changes_abortCall _ _) hbefore
  | polled hcall hready =>
      rw [stage_settleCall] at hnext
      obtain rfl := Stage.connected.inj hnext
      obtain ⟨cause?, hgoes, -⟩ := connection.goes_pollCall before.now _ _
      exact hlasts.goes (fun _ hchanges => hlasts.callChanges hchanges hbefore) hgoes
  | wrote hready =>
      obtain rfl := Stage.connected.inj hnext
      obtain ⟨cause?, hgoes, -⟩ := connection.goes_pollWriter before.link
      refine hlasts.goes (fun last hchanges => ?_) hgoes
      rw [Session.pending_of_writerChanges hchanges]
      exact hbefore
  | read hready =>
      rw [haside rfl] at hready
      cases hready

open Conversation in
theorem move (hlasts : Lasts Holding) {settings : Settings} {capacity : Nat} {fault : Fault}
    {moves : List Move} {connection next : Connection}
    (hstage : ((start settings capacity fault).follow moves).stage = .connected connection)
    {move : Move}
    (hnext : (((start settings capacity fault).follow moves).move move).stage = .connected next)
    (hresolve : ∀ message ∈ (((start settings capacity fault).follow moves).dispatchedBy
      move).filterMap (·.packet.answer?), ∀ table, Holding table →
        Holding (table.resolve message).2)
    (hbefore : Holding connection.session.pending) : Holding next.session.pending := by
  rcases reader_or_aside _ connection move with ⟨rfl, hready⟩ | haside
  · obtain ⟨found, link, hfound, hcomes⟩ := exists_comesTo hstage hready
    obtain rfl := Stage.connected.inj (hfound.symm.trans hnext)
    exact hlasts.comesTo hcomes hresolve hbefore
  · exact hlasts.aside hstage haside hnext hbefore

end PendingTable.Lasts

end RoutedSession
