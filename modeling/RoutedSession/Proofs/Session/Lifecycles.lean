import Mathlib.Data.List.Destutter
import RoutedSession.Proofs.Session.Establishment

namespace RoutedSession

namespace Lifecycle

/-- The states that can come next. -/
inductive Follows : Lifecycle → Lifecycle → Prop where
  | sent : Follows .disconnected .handshakeSent
  | accepted : Follows .handshakeSent .connected
  | refused : Follows .handshakeSent .closed
  | ended : Follows .connected .closed

/-- The ways from a state to the last one. -/
inductive Way : Lifecycle → List Lifecycle → Prop where
  | last : Way .closed [.closed]
  | step {before after : Lifecycle} {way : List Lifecycle} (hfollows : Follows before after)
      (hway : Way after way) : Way before (before :: way)

theorem exists_way (lifecycle : Lifecycle) : ∃ way, Way lifecycle way ∧ [lifecycle] <+: way := by
  have hconnected : Way .connected [.connected, .closed] := .step .ended .last
  have hsent : Way .handshakeSent [.handshakeSent, .connected, .closed] :=
    .step .accepted hconnected
  cases lifecycle with
  | disconnected => exact ⟨_, .step .sent hsent, _, rfl⟩
  | handshakeSent => exact ⟨_, hsent, _, rfl⟩
  | connected => exact ⟨_, hconnected, _, rfl⟩
  | closed => exact ⟨_, .last, _, rfl⟩

theorem Way.of_disconnected {way : List Lifecycle} (hway : Way .disconnected way) :
    way = [.disconnected, .handshakeSent, .connected, .closed] ∨
      way = [.disconnected, .handshakeSent, .closed] := by
  obtain _ | ⟨⟨⟩, hway⟩ := hway
  obtain _ | ⟨⟨⟩ | ⟨⟩, hway⟩ := hway
  · obtain _ | ⟨⟨⟩, hway⟩ := hway
    obtain _ | ⟨⟨⟩, -⟩ := hway
    exact .inl rfl
  · obtain _ | ⟨⟨⟩, -⟩ := hway
    exact .inr rfl

end Lifecycle

namespace Conversation

/-- The states that a connection has before the moves, between them and behind them. -/
def lifecycles (conversation : Conversation) (moves : List Move) : List Lifecycle :=
  conversation.lifecycle ::
    conversation.collect (fun before move => [(before.move move).lifecycle]) moves

theorem lifecycles_cons (conversation : Conversation) (move : Move) (moves : List Move) :
    conversation.lifecycles (move :: moves) =
      conversation.lifecycle :: (conversation.move move).lifecycles moves :=
  rfl

theorem lifecycles_append_singleton (conversation : Conversation) (moves : List Move)
    (move : Move) :
    conversation.lifecycles (moves ++ [move]) =
      conversation.lifecycles moves ++ [((conversation.follow moves).move move).lifecycle] := by
  rw [lifecycles, collect_append_singleton]
  rfl

theorem lifecycle_of_stage {before after : Conversation} (hstage : after.stage = before.stage) :
    after.lifecycle = before.lifecycle := by
  rw [lifecycle, hstage, lifecycle]

theorem lifecycle_of_connected {conversation : Conversation} {connection : Connection}
    (hstage : conversation.stage = .connected connection) :
    conversation.lifecycle = connection.session.lifecycle := by
  rw [lifecycle, hstage]

theorem lifecycle_pollAttempt {conversation : Conversation} {settings : Settings}
    {attempt : Attempt} (hstage : conversation.stage = .connecting settings attempt)
    (index : SenderId) :
    (conversation.pollAttempt settings attempt index).lifecycle = conversation.lifecycle ∨
      conversation.lifecycle.Follows
        (conversation.pollAttempt settings attempt index).lifecycle := by
  have hbefore : conversation.lifecycle = .handshakeSent := by rw [lifecycle, hstage]
  rw [hbefore]
  unfold pollAttempt
  rcases attempt.poll conversation.now conversation.link with ⟨phase | accepted | reason, link⟩
  · exact .inl rfl
  · unfold connect
    dsimp only
    split
    · exact .inr .accepted
    · exact .inl rfl
  · exact .inr .refused

theorem lifecycle_opening {before after : Conversation} {move : Move}
    (hopening : Opening before move after) :
    after.lifecycle = before.lifecycle ∨ before.lifecycle.Follows after.lifecycle := by
  cases hopening with
  | aside hstage => exact .inl (lifecycle_of_stage hstage)
  | aborted hstage => exact .inl (by rw [lifecycle, hstage])
  | begun hstage =>
      have hbefore : before.lifecycle = .disconnected := by rw [lifecycle, hstage]
      rw [hbefore]
      exact .inr .sent
  | polled hstage => exact lifecycle_pollAttempt hstage _

section

variable {settings : Settings} {capacity : Nat} {fault : Fault} {moves : List Move}

theorem lifecycle_move (settings : Settings) (capacity : Nat) (fault : Fault) (moves : List Move)
    (move : Move) :
    let before := (start settings capacity fault).follow moves
    (before.move move).lifecycle = before.lifecycle ∨
      before.lifecycle.Follows (before.move move).lifecycle := by
  have hopens := opens settings capacity fault moves
  dsimp only
  generalize (start settings capacity fault).follow moves = before at hopens ⊢
  by_cases hconnected : ∃ connection, before.stage = .connected connection
  · obtain ⟨connection, hstage⟩ := hconnected
    obtain ⟨next, cause?, hnext, hgoes, -⟩ := exists_goes_move hstage move
    rw [hstage] at hopens
    have hlifecycle := hopens.of_connected.2
    rw [lifecycle_of_connected hstage, lifecycle_of_connected hnext]
    rcases hgoes.lifecycle_cases with hsame | hclosed
    · exact .inl hsame
    · rw [hclosed]
      rcases hlifecycle with hgoing | hended
      · rw [hgoing]
        exact .inr .ended
      · exact .inl hended.symm
  · exact lifecycle_opening (opening (not_exists.mp hconnected) move)

theorem exists_way_lifecycles (front moves : List Move) :
    let before := (start settings capacity fault).follow front
    ∃ way, before.lifecycle.Way way ∧ (before.lifecycles moves).destutter (· ≠ ·) <+: way := by
  -- On the moves, from wherever others have led: which way is taken is known at the last one only.
  induction moves generalizing front with
  | nil => exact Lifecycle.exists_way _
  | cons move moves ih =>
      dsimp only
      obtain ⟨way, hway, hrest⟩ := ih (front ++ [move])
      have hnext := lifecycle_move settings capacity fault front move
      rw [follow_append_singleton] at hway hrest
      dsimp only at hnext
      generalize (start settings capacity fault).follow front = before at hway hrest hnext ⊢
      rw [lifecycles_cons, lifecycles, List.destutter_cons_cons]
      rw [lifecycles, List.destutter_cons'] at hrest
      split
      · rename_i hnew
        have hfollows := hnext.resolve_left (Ne.symm hnew)
        exact ⟨_, .step hfollows hway, (List.prefix_cons_inj _).mpr hrest⟩
      · rename_i hsame
        rw [not_not] at hsame
        rw [hsame]
        exact ⟨way, hway, hrest⟩

theorem closed_follow
    (hclosed : ((start settings capacity fault).follow moves).lifecycle = .closed)
    (more : List Move) :
    ((start settings capacity fault).follow (moves ++ more)).lifecycle = .closed := by
  induction more using List.reverseRecOn with
  | nil => rwa [List.append_nil]
  | append_singleton more move ih =>
      have hnext := lifecycle_move settings capacity fault (moves ++ more) move
      dsimp only at hnext
      rw [ih] at hnext
      rw [← List.append_assoc, follow_append_singleton]
      rcases hnext with hsame | ⟨⟨⟩⟩
      exact hsame

theorem connected_mem_lifecycles_iff :
    .connected ∈ (start settings capacity fault).lifecycles moves ↔
      ∃ connection,
        ((start settings capacity fault).follow moves).stage = .connected connection := by
  induction moves using List.reverseRecOn with
  | nil => simp [lifecycles, collect, lifecycle, start]
  | append_singleton moves move ih =>
      have hopens := opens settings capacity fault (moves ++ [move])
      rw [lifecycles_append_singleton, List.mem_append, List.mem_singleton, ih]
      rw [follow_append_singleton] at hopens ⊢
      generalize (start settings capacity fault).follow moves = before at hopens ⊢
      by_cases hconnected : ∃ connection, before.stage = .connected connection
      · obtain ⟨connection, hstage⟩ := hconnected
        obtain ⟨next, -, hnext, -⟩ := exists_goes_move hstage move
        exact iff_of_true (.inl ⟨connection, hstage⟩) ⟨next, hnext⟩
      · rw [or_iff_right hconnected]
        constructor
        · intro hlifecycle
          unfold lifecycle at hlifecycle
          generalize (before.move move).stage = stage at hopens hlifecycle ⊢
          generalize (before.move move).calls = calls at hopens
          cases hopens with
          | unconnected => cases hlifecycle
          | connecting => cases hlifecycle
          | refused => cases hlifecycle
          | givenUp _ _ hother =>
              rcases hother with rfl | rfl <;> cases hlifecycle
          | connected => exact ⟨_, rfl⟩
        · rintro ⟨connection, hstage⟩
          obtain ⟨chosen, accepted, rfl⟩ := establish_of_opening
            (opening (not_exists.mp hconnected) move) (not_exists.mp hconnected) hstage
          rw [lifecycle_of_connected hstage]
          rfl

theorem not_connected_of_entered {move : Move}
    (hbefore : ((start settings capacity fault).follow moves).lifecycle ≠ .connected)
    (hafter : ((start settings capacity fault).follow (moves ++ [move])).lifecycle = .connected)
    (connection : Connection) :
    ((start settings capacity fault).follow moves).stage ≠ .connected connection := by
  intro hstage
  have hopens := opens settings capacity fault moves
  rw [hstage] at hopens
  have hlifecycle := hopens.of_connected.2
  rw [← lifecycle_of_connected hstage] at hlifecycle
  have hclosed := closed_follow (hlifecycle.resolve_left hbefore) [move]
  cases hclosed.symm.trans hafter

theorem carried_of_opening {before after : Conversation} {move : Move} {connection : Connection}
    (hopening : Opening before move after)
    (hbefore : ∀ connection, before.stage ≠ .connected connection)
    (hholds : StageHolds settings.request before.carried [] before.stage)
    (hafter : after.stage = .connected connection) :
    Attempt.Fits settings.request ∧ after.carried = Attempt.written settings.request := by
  cases hopening with
  | aside hstage => exact absurd (hstage.symm.trans hafter) (hbefore connection)
  | aborted hstage => cases hstage.symm.trans hafter
  | begun hstage => cases hafter
  | @polled _ _ attempt hstage =>
      rw [hstage] at hholds
      obtain _ | ⟨_, hrequest, hgone, -⟩ := hholds
      rw [← hrequest] at hgone ⊢
      have hpolled := Attempt.holds_poll before.now hgone
      unfold pollAttempt at hafter ⊢
      generalize attempt.poll before.now before.link = polled at hpolled hafter ⊢
      obtain ⟨state, link⟩ := polled
      cases hpolled with
      | waiting => cases hafter
      | failed => cases hafter
      | accepted accepted hfits hall =>
          dsimp only [connect] at hafter ⊢
          split at hafter
          · rename_i hroom
            rw [if_pos hroom]
            exact ⟨hfits, hall⟩
          · cases hafter

theorem hasAnswer_of_establish {chosen : Settings} {accepted : Accepted}
    (hstage : ((start settings capacity fault).follow moves).stage =
      .connected (.establish chosen accepted)) :
    ((start settings capacity fault).follow moves).HasAnswer
      ((start settings capacity fault).served moves) accepted.response := by
  obtain ⟨read, hdelivers⟩ := exists_delivers settings capacity fault moves
  obtain ⟨first, hanswer, hposition, -⟩ := hdelivers.connected hstage
  have hyields := hposition.yields rfl
  have hall := hdelivers.unread (hdelivers.isDropped_eq_false hstage Reader.noConfusion)
  rw [← List.append_nil read] at hall
  exact hasAnswer_of_yields hyields hanswer hall

end

/-- How the states of a connection come, whatever moves are made from the start on. -/
structure LivesInOrder (settings : Settings) (origin : Conversation) (moves : List Move) :
    Prop where
  /-- Apart from repetitions, these are the first of the states on one of the two ways. -/
  in_order :
    (origin.lifecycles moves).destutter (· ≠ ·) <+:
        [.disconnected, .handshakeSent, .connected, .closed] ∨
      (origin.lifecycles moves).destutter (· ≠ ·) <+: [.disconnected, .handshakeSent, .closed]
  closed_for_good : (origin.follow moves).lifecycle = .closed → ∀ more,
    (origin.follow (moves ++ more)).lifecycle = .closed
  /-- When the connection comes to be there, the stream has taken the offer and the confirmation,
  the first packet of the server has been read, and with its response the call succeeds. -/
  entered : ∀ move, (origin.follow moves).lifecycle ≠ .connected →
    (origin.follow (moves ++ [move])).lifecycle = .connected →
      Attempt.Fits settings.request ∧
        (origin.follow (moves ++ [move])).carried = Attempt.written settings.request ∧
          ∃ response,
            (origin.follow (moves ++ [move])).HasAnswer (origin.served (moves ++ [move])) response ∧
              ∃ call, (origin.follow (moves ++ [move])).calls[0]? = some call ∧
                call.state = .ended (.connected response)
  succeeds_iff :
    (∃ call response, (origin.follow moves).calls[0]? = some call ∧
        call.state = .ended (.connected response)) ↔
      .connected ∈ origin.lifecycles moves
  fails : ∀ call reason, (origin.follow moves).calls[0]? = some call →
    call.state = .ended (.failed reason) →
      (origin.follow moves).lifecycle = .closed ∧ .connected ∉ origin.lifecycles moves

/-- Whatever the peer sends, however the stream fails and whatever else happens, the states of a
connection come in their order. -/
theorem follow_livesInOrder (settings : Settings) (capacity : Nat) (fault : Fault)
    (moves : List Move) :
    LivesInOrder settings (start settings capacity fault) moves := by
  have hopens := opens settings capacity fault moves
  constructor
  case in_order =>
    obtain ⟨way, hway, hfirst⟩ := @exists_way_lifecycles settings capacity fault [] moves
    rcases hway.of_disconnected with rfl | rfl
    · exact .inl hfirst
    · exact .inr hfirst
  case closed_for_good => exact closed_follow
  case entered =>
    intro move hbefore hafter
    obtain ⟨connection, hconnected⟩ :
        ∃ connection, ((start settings capacity fault).follow (moves ++ [move])).stage =
          .connected connection := by
      rw [← connected_mem_lifecycles_iff, lifecycles_append_singleton, List.mem_append,
        List.mem_singleton]
      rw [follow_append_singleton] at hafter
      exact .inr hafter.symm
    have hfirst : ∀ connection,
        ((start settings capacity fault).follow moves).stage ≠ .connected connection :=
      not_connected_of_entered hbefore hafter
    have hopening := opening hfirst move
    have hholds := ((tracks_start settings capacity fault).follow moves).stage
    rw [(hholds.of_not_connected hfirst).2] at hholds
    obtain ⟨chosen, accepted, rfl⟩ :
        ∃ chosen accepted, connection = .establish chosen accepted := by
      rw [follow_append_singleton] at hconnected
      exact establish_of_opening hopening hfirst hconnected
    have hanswer := hasAnswer_of_establish hconnected
    have hlast := opens settings capacity fault (moves ++ [move])
    rw [hconnected] at hlast
    have hcall := hlast.of_connected.1
    rw [follow_append_singleton] at hconnected hanswer hcall ⊢
    obtain ⟨hfits, hcarried⟩ := carried_of_opening hopening hfirst hholds hconnected
    exact ⟨hfits, hcarried, accepted.response, hanswer, hcall⟩
  case succeeds_iff =>
    rw [connected_mem_lifecycles_iff]
    exact hopens.succeeds_iff
  case fails =>
    intro call reason hcall hstate
    obtain ⟨hstage, -⟩ := hopens.of_failed hcall hstate
    rw [connected_mem_lifecycles_iff, lifecycle, hstage]
    refine ⟨rfl, ?_⟩
    rintro ⟨connection, hconnected⟩
    cases hconnected

example :
    ((start {} 4096 {}).lifecycles
        (acceptance ++
          [.command (.onSession (.call "close" .close)), .task (.call 1)])).destutter (· ≠ ·) =
      [.disconnected, .handshakeSent, .connected, .closed] := by
  decide +kernel

end Conversation

end RoutedSession
