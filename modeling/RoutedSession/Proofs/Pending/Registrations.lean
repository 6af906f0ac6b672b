import RoutedSession.Proofs.Pending.Owners

namespace RoutedSession

theorem PendingAnswer.mem_outcomes_of_poll {answer : PendingAnswer} {table : PendingTable}
    {outcome : Outcome} (hpoll : (answer.poll table).1 = some outcome) :
    (answer.ticket, outcome) ∈ table.outcomes ∨ outcome = .error .closed := by
  unfold poll at hpoll
  split at hpoll
  · cases hpoll
  · rename_i found hready
    obtain rfl := Option.some.inj hpoll
    unfold PendingTable.standing at hready
    split at hready
    · rename_i other hfound
      obtain rfl : other = found := by simpa using hready
      obtain ⟨front, back, hsplit, -⟩ := List.lookup_eq_some_iff.mp hfound
      left
      rw [hsplit]
      exact List.mem_append_right front List.mem_cons_self
    · split at hready <;> cases hready
  · exact .inr (Option.some.inj hpoll).symm

namespace PendingTable

/-- A property of a table that only answers can take away. -/
structure Lasts (Holding : PendingTable → Prop) : Prop where
  register : ∀ {table after : PendingTable} {id : UInt32} {ticket : Ticket}, Holding table →
    table.register = some ((id, ticket), after) → Holding after
  take : ∀ {table : PendingTable} (ticket : Ticket), Holding table → Holding (table.take ticket)
  without : ∀ {table : PendingTable} (id : UInt32), Holding table → Holding (table.without id)
  close : ∀ {table : PendingTable}, Holding table → Holding table.close.2

theorem Lasts.poll {Holding : PendingTable → Prop} (hlasts : Lasts Holding) {table : PendingTable}
    (hbefore : Holding table) (answer : PendingAnswer) : Holding (answer.poll table).2 := by
  rw [answer.snd_poll]
  exact hlasts.take _ hbefore

theorem Lasts.drop {Holding : PendingTable → Prop} (hlasts : Lasts Holding) {table : PendingTable}
    (hbefore : Holding table) (answer : PendingAnswer) : Holding (answer.drop table) := by
  rcases answer.drop_cases table with htaken | hremoved
  · rw [htaken]
    exact hlasts.take _ hbefore
  · rw [hremoved]
    exact hlasts.without _ hbefore

/-- Of a request that has been registered the table holds no other entry than its own, and no other
answer than one to it among those that came. -/
structure HoldsOwn (came : List Message) (registered : PendingAnswer) (table : PendingTable) :
    Prop where
  issued : registered.ticket < table.issued
  entry : ∀ id, (id, registered.ticket) ∈ table.entries → id = registered.id
  outcome : ∀ message, (registered.ticket, .ok message) ∈ table.outcomes →
    message ∈ came ∧ message.id = registered.id

section

variable {came : List Message} {registered : PendingAnswer} {table : PendingTable}

theorem HoldsOwn.of_subset {after : PendingTable} (hown : table.HoldsOwn came registered)
    (hissued : after.issued = table.issued) (hentries : after.entries ⊆ table.entries)
    (houtcomes : ∀ message, (registered.ticket, .ok message) ∈ after.outcomes →
      (registered.ticket, .ok message) ∈ table.outcomes) :
    after.HoldsOwn came registered where
  issued := by
    rw [hissued]
    exact hown.issued
  entry id hmem := hown.entry id (hentries hmem)
  outcome message hmem := hown.outcome message (houtcomes message hmem)

theorem lasts_holdsOwn (came : List Message) (registered : PendingAnswer) :
    Lasts (HoldsOwn came registered) where
  register hown hregister := by
    obtain ⟨-, -, -, rfl, rfl⟩ := register_eq_some hregister
    refine ⟨Nat.lt_succ_of_lt hown.issued, fun id hmem => ?_, hown.outcome⟩
    rcases List.mem_cons.mp hmem with hnew | hmem
    · exact absurd (congrArg Prod.snd hnew) (Nat.ne_of_lt hown.issued)
    · exact hown.entry id hmem
  take ticket hown :=
    hown.of_subset rfl (List.Subset.refl _) fun _ hmem => (List.mem_filter.mp hmem).1
  without id hown := hown.of_subset rfl (List.filter_subset_self _) fun _ hmem => hmem
  close hown := by
    refine hown.of_subset rfl (List.nil_subset _) fun message hmem => ?_
    simpa [close] using hmem

theorem HoldsOwn.resolve (hown : table.HoldsOwn came registered) {message : Message}
    (hcame : message ∈ came) : (table.resolve message).2.HoldsOwn came registered := by
  cases hheld : table.ticket? message.id with
  | none =>
      rw [resolve_of_ticket?_eq_none hheld]
      exact hown
  | some ticket =>
      rw [resolve_of_ticket?_eq_some hheld]
      refine ⟨hown.issued, fun id hmem => hown.entry id (List.mem_filter.mp hmem).1,
        fun other hmem => ?_⟩
      rcases List.mem_cons.mp hmem with hnew | hmem
      · obtain ⟨rfl, hsame⟩ := Prod.mk.inj hnew
        obtain rfl : other = message := by simpa using hsame
        obtain ⟨front, back, hsplit, -⟩ := List.lookup_eq_some_iff.mp hheld
        refine ⟨hcame, hown.entry _ ?_⟩
        rw [hsplit]
        exact List.mem_append_right _ List.mem_cons_self
      · exact hown.outcome other hmem

theorem Sound.holdsOwn_register (hsound : table.Sound) {after : PendingTable}
    (hregister : table.register = some ((registered.id, registered.ticket), after))
    (came : List Message) : after.HoldsOwn came registered := by
  obtain ⟨-, -, -, hticket, rfl⟩ := register_eq_some hregister
  -- No ticket that is in the table already is that of the new registration.
  have hfresh : registered.ticket ∉ table.tickets := fun hmem =>
    Nat.lt_irrefl _ (hticket ▸ hsound.tickets_issued _ hmem)
  refine ⟨Nat.lt_succ_of_le (Nat.le_of_eq hticket), fun id hmem => ?_, fun message hmem => ?_⟩
  · rcases List.mem_cons.mp hmem with hnew | hmem
    · exact congrArg Prod.fst hnew
    · exact absurd (List.mem_append_left _ (List.mem_map_of_mem hmem)) hfresh
  · exact absurd (List.mem_append_right _ (List.mem_map_of_mem hmem)) hfresh

/-- A request that has been registered is no longer pending. -/
structure Released (registered : PendingAnswer) (table : PendingTable) : Prop where
  issued : registered.ticket < table.issued
  gone : registered.entry ∉ table.entries

theorem Released.of_subset {after : PendingTable} (hreleased : table.Released registered)
    (hissued : after.issued = table.issued) (hentries : after.entries ⊆ table.entries) :
    after.Released registered where
  issued := by
    rw [hissued]
    exact hreleased.issued
  gone hmem := hreleased.gone (hentries hmem)

theorem lasts_released (registered : PendingAnswer) : Lasts (Released registered) where
  register hreleased hregister := by
    obtain ⟨-, -, -, rfl, rfl⟩ := register_eq_some hregister
    refine ⟨Nat.lt_succ_of_lt hreleased.issued, fun hmem => ?_⟩
    rcases List.mem_cons.mp hmem with hnew | hmem
    · exact absurd (congrArg Prod.snd hnew) (Nat.ne_of_lt hreleased.issued)
    · exact hreleased.gone hmem
  take ticket hreleased := hreleased.of_subset rfl (List.Subset.refl _)
  without id hreleased := hreleased.of_subset rfl (List.filter_subset_self _)
  close hreleased := hreleased.of_subset rfl (List.nil_subset _)

theorem Released.resolve (hreleased : table.Released registered) (message : Message) :
    (table.resolve message).2.Released registered :=
  hreleased.of_subset (issued_resolve table message) (entries_resolve_subset table message)

end

end PendingTable

end RoutedSession
