import Mathlib.Data.List.Nodup
import RoutedSession.Pending

namespace RoutedSession.PendingTable

/-- The tickets of registrations that are pending, and of those whose outcome nobody has taken. -/
def tickets (table : PendingTable) : List Ticket :=
  table.entries.map (·.2) ++ table.outcomes.map (·.1)

/-- No two registrations share an id or a ticket, and a closed table has none pending. -/
structure Sound (table : PendingTable) : Prop where
  ids_distinct : table.entries.Pairwise (·.1 ≠ ·.1)
  ids_positive : ∀ entry ∈ table.entries, entry.1 ≠ 0
  tickets_distinct : table.tickets.Nodup
  tickets_issued : ∀ ticket ∈ table.tickets, ticket < table.issued
  closed_empty : table.closed = true → table.entries = []

theorem sound_empty (lastId : UInt32) : Sound { lastId } where
  ids_distinct := .nil
  ids_positive := by simp
  tickets_distinct := .nil
  tickets_issued := by simp [tickets]
  closed_empty := by simp

theorem lookup_eq_some_iff_mem {α β : Type} [BEq α] [LawfulBEq α] {pairs : List (α × β)}
    (hdistinct : pairs.Pairwise (·.1 ≠ ·.1)) {key : α} {value : β} :
    pairs.lookup key = some value ↔ (key, value) ∈ pairs := by
  rw [List.lookup_eq_some_iff]
  constructor
  · rintro ⟨front, back, rfl, _⟩
    simp
  · intro hmem
    obtain ⟨front, back, rfl⟩ := List.append_of_mem hmem
    refine ⟨front, back, rfl, fun pair hpair => ?_⟩
    have hne := (List.pairwise_append.mp hdistinct).2.2 pair hpair (key, value) (by simp)
    simpa using hne.symm

theorem perm_filter_of_mem {α β : Type} [BEq α] [LawfulBEq α] {pairs : List (α × β)}
    (hdistinct : pairs.Pairwise (·.1 ≠ ·.1)) {key : α} {value : β} (hmem : (key, value) ∈ pairs) :
    pairs.Perm ((key, value) :: pairs.filter (·.1 != key)) := by
  obtain ⟨front, back, rfl⟩ := List.append_of_mem hmem
  rw [List.pairwise_append, List.pairwise_cons] at hdistinct
  obtain ⟨_, ⟨hback, _⟩, hfront⟩ := hdistinct
  have hf : front.filter (·.1 != key) = front :=
    List.filter_eq_self.mpr fun pair hpair => by
      simpa using hfront pair hpair (key, value) (by simp)
  have hb : back.filter (·.1 != key) = back :=
    List.filter_eq_self.mpr fun pair hpair => by simpa using (hback pair hpair).symm
  simp [hf, hb]

theorem Sound.ticket?_eq_some_iff {table : PendingTable} (hsound : table.Sound) {id : UInt32}
    {ticket : Ticket} : table.ticket? id = some ticket ↔ (id, ticket) ∈ table.entries :=
  lookup_eq_some_iff_mem hsound.ids_distinct

theorem ticket?_eq_none_iff {table : PendingTable} {id : UInt32} :
    table.ticket? id = none ↔ ∀ entry ∈ table.entries, entry.1 ≠ id := by
  simp only [ticket?, List.lookup_eq_none_iff, bne_iff_ne, ne_eq]
  exact forall₂_congr fun entry _ => not_congr eq_comm

theorem isPending_eq_isSome (table : PendingTable) (id : UInt32) :
    table.isPending id = (table.ticket? id).isSome := by
  rw [Bool.eq_iff_iff, Option.isSome_iff_ne_none, ne_eq, ticket?_eq_none_iff]
  simp [isPending]

theorem Sound.outcomes_distinct {table : PendingTable} (hsound : table.Sound) :
    table.outcomes.Pairwise (·.1 ≠ ·.1) :=
  List.pairwise_map.mp (List.nodup_append.mp hsound.tickets_distinct).2.1

theorem Sound.id_unique {table : PendingTable} (hsound : table.Sound) {id other : UInt32}
    {ticket : Ticket} (hid : (id, ticket) ∈ table.entries)
    (hother : (other, ticket) ∈ table.entries) : id = other := by
  have hdistinct : (table.entries.map (·.2)).Nodup :=
    (List.nodup_append.mp hsound.tickets_distinct).1
  exact congrArg Prod.fst (List.inj_on_of_nodup_map hdistinct hid hother rfl)

theorem Sound.standing_of_mem_outcomes {table : PendingTable} (hsound : table.Sound)
    {ticket : Ticket} {outcome : Outcome} (hmem : (ticket, outcome) ∈ table.outcomes) :
    table.standing ticket = .ready outcome := by
  rw [standing, (lookup_eq_some_iff_mem hsound.outcomes_distinct).mpr hmem]

theorem lookup_outcomes_eq_none {table : PendingTable} {ticket : Ticket}
    (habsent : ticket ∉ table.outcomes.map (·.1)) : table.outcomes.lookup ticket = none := by
  rw [List.lookup_eq_none_iff]
  intro pair hpair
  rw [bne_iff_ne]
  rintro rfl
  exact habsent (List.mem_map_of_mem hpair)

theorem Sound.standing_of_mem_entries {table : PendingTable} (hsound : table.Sound) {id : UInt32}
    {ticket : Ticket} (hmem : (id, ticket) ∈ table.entries) : table.standing ticket = .waiting := by
  have habsent : ticket ∉ table.outcomes.map (·.1) := fun hready =>
    (List.nodup_append.mp hsound.tickets_distinct).2.2 ticket (List.mem_map_of_mem hmem) ticket
      hready rfl
  have hpending : table.entries.any (·.2 == ticket) = true :=
    List.any_eq_true.mpr ⟨_, hmem, beq_self_eq_true _⟩
  rw [standing, lookup_outcomes_eq_none habsent]
  simp [hpending]

theorem standing_of_not_mem {table : PendingTable} {ticket : Ticket}
    (habsent : ticket ∉ table.tickets) : table.standing ticket = .gone := by
  rw [tickets, List.mem_append, not_or] at habsent
  have hnotPending : table.entries.any (·.2 == ticket) = false := by
    rw [Bool.eq_false_iff, ne_eq, List.any_eq_true]
    rintro ⟨entry, hentry, hsame⟩
    exact habsent.1 (List.mem_map.mpr ⟨entry, hentry, by simpa using hsame⟩)
  rw [standing, lookup_outcomes_eq_none habsent.2]
  simp [hnotPending]

theorem nextFree?_free {inUse : UInt32 → Bool} {attempts : Nat} {id next : UInt32}
    (hfound : nextFree? inUse attempts id = some next) : next ≠ 0 ∧ inUse next = false := by
  induction attempts generalizing id with
  | zero => simp [nextFree?] at hfound
  | succ attempts ih =>
      simp only [nextFree?] at hfound
      split at hfound
      · rename_i hfree
        obtain rfl : id + 1 = next := by simpa using hfound
        simpa using hfree
      · exact ih hfound

theorem register_eq_some {table after : PendingTable} {id : UInt32} {ticket : Ticket}
    (hregister : table.register = some ((id, ticket), after)) :
    table.closed = false ∧ id ≠ 0 ∧ table.ticket? id = none ∧ ticket = table.issued ∧
      after = { table with
        entries := (id, ticket) :: table.entries
        lastId := id
        issued := table.issued + 1 } := by
  unfold register at hregister
  split at hregister
  · simp at hregister
  · rename_i hopen
    obtain ⟨next, hnext, heq⟩ := Option.map_eq_some_iff.mp hregister
    simp only [Prod.mk.injEq] at heq
    obtain ⟨⟨rfl, rfl⟩, rfl⟩ := heq
    obtain ⟨hpositive, hunused⟩ := nextFree?_free hnext
    rw [isPending_eq_isSome, Option.isSome_eq_false_iff, Option.isNone_iff_eq_none] at hunused
    exact ⟨by simpa using hopen, hpositive, hunused, rfl, rfl⟩

theorem Sound.register {table after : PendingTable} {id : UInt32} {ticket : Ticket}
    (hsound : table.Sound) (hregister : table.register = some ((id, ticket), after)) :
    after.Sound := by
  obtain ⟨hopen, hpositive, hunused, rfl, rfl⟩ := register_eq_some hregister
  rw [ticket?_eq_none_iff] at hunused
  constructor
  · exact List.Pairwise.cons (fun entry hentry => (hunused entry hentry).symm) hsound.ids_distinct
  · intro entry hentry
    rcases List.mem_cons.mp hentry with rfl | hentry
    · exact hpositive
    · exact hsound.ids_positive entry hentry
  · refine List.nodup_cons.mpr ⟨fun hmem => ?_, hsound.tickets_distinct⟩
    exact Nat.lt_irrefl _ (hsound.tickets_issued _ hmem)
  · intro ticket hmem
    rcases List.mem_cons.mp hmem with rfl | hmem
    · exact Nat.lt_succ_self _
    · exact Nat.lt_succ_of_lt (hsound.tickets_issued ticket hmem)
  · intro hclosed
    simp [hopen] at hclosed

theorem ticket?_register {table after : PendingTable} {id : UInt32} {ticket : Ticket}
    (hregister : table.register = some ((id, ticket), after)) (other : UInt32) :
    after.ticket? other = if other = id then some ticket else table.ticket? other := by
  obtain ⟨-, -, -, -, rfl⟩ := register_eq_some hregister
  simp only [ticket?, List.lookup_cons]
  cases hsame : other == id with
  | true => simp [eq_of_beq hsame]
  | false => simp [ne_of_beq_false hsame]

theorem ticket?_without (table : PendingTable) (id other : UInt32) :
    (table.without id).ticket? other = if other = id then none else table.ticket? other := by
  split
  · rename_i hsame
    subst hsame
    rw [ticket?_eq_none_iff]
    intro entry hentry
    simpa using (List.mem_filter.mp hentry).2
  · rename_i hdiffers
    simp only [ticket?, without]
    induction table.entries with
    | nil => rfl
    | cons entry rest ih =>
        rw [List.lookup_cons, List.filter_cons]
        split <;> grind

theorem without_of_ticket?_eq_none {table : PendingTable} {id : UInt32}
    (hunused : table.ticket? id = none) : table.without id = table := by
  rw [ticket?_eq_none_iff] at hunused
  have hall : table.entries.filter (·.1 != id) = table.entries :=
    List.filter_eq_self.mpr fun entry hentry => by simpa using hunused entry hentry
  simp [without, hall]

theorem Sound.perm_without {table : PendingTable} (hsound : table.Sound) {id : UInt32}
    {ticket : Ticket} (hmem : (id, ticket) ∈ table.entries) :
    table.entries.Perm ((id, ticket) :: (table.without id).entries) :=
  perm_filter_of_mem hsound.ids_distinct hmem

theorem Sound.filter_ne_id {table : PendingTable} (hsound : table.Sound) {id : UInt32}
    {ticket : Ticket} (hmem : (id, ticket) ∈ table.entries) :
    table.entries.filter (·.1 != id) = table.entries.filter (· != (id, ticket)) := by
  refine List.filter_congr fun entry hentry => ?_
  rw [Bool.eq_iff_iff, bne_iff_ne, bne_iff_ne]
  refine not_congr ⟨fun hid => ?_, fun hsame => congrArg Prod.fst hsame⟩
  have hticket := hsound.ticket?_eq_some_iff.mpr hmem
  rw [← hid, hsound.ticket?_eq_some_iff.mpr hentry] at hticket
  exact Prod.ext hid (Option.some.inj hticket)

theorem Sound.without {table : PendingTable} (hsound : table.Sound) (id : UInt32) :
    (table.without id).Sound where
  ids_distinct := hsound.ids_distinct.filter _
  ids_positive := fun entry hentry => hsound.ids_positive entry (List.mem_of_mem_filter hentry)
  tickets_distinct := hsound.tickets_distinct.sublist
    ((List.filter_sublist.map _).append (List.Sublist.refl _))
  tickets_issued := fun ticket hmem => hsound.tickets_issued ticket
    (((List.filter_sublist.map _).append (List.Sublist.refl _)).subset hmem)
  closed_empty := fun hclosed => by
    have hnone : table.entries = [] := hsound.closed_empty hclosed
    simp [PendingTable.without, hnone]

theorem resolve_of_ticket?_eq_none {table : PendingTable} {answer : Message}
    (hunused : table.ticket? answer.id = none) : table.resolve answer = (false, table) := by
  rw [resolve, hunused]

theorem resolve_of_ticket?_eq_some {table : PendingTable} {answer : Message} {ticket : Ticket}
    (hheld : table.ticket? answer.id = some ticket) :
    table.resolve answer =
      (true, { table.without answer.id with
        outcomes := (ticket, .ok answer) :: table.outcomes }) := by
  rw [resolve, hheld]

theorem fst_resolve (table : PendingTable) (answer : Message) :
    (table.resolve answer).1 = (table.ticket? answer.id).isSome := by
  unfold resolve
  split <;> simp [*]

theorem ticket?_resolve (table : PendingTable) (answer : Message) (id : UInt32) :
    (table.resolve answer).2.ticket? id = if id = answer.id then none else table.ticket? id := by
  cases hheld : table.ticket? answer.id with
  | none =>
      rw [resolve_of_ticket?_eq_none hheld]
      split
      · rename_i hsame
        rw [hsame, hheld]
      · rfl
  | some ticket =>
      rw [resolve_of_ticket?_eq_some hheld]
      exact ticket?_without table answer.id id

theorem Sound.tickets_resolve {table : PendingTable} (hsound : table.Sound) (answer : Message) :
    (table.resolve answer).2.tickets.Perm table.tickets := by
  cases hheld : table.ticket? answer.id with
  | none => rw [resolve_of_ticket?_eq_none hheld]
  | some ticket =>
      rw [resolve_of_ticket?_eq_some hheld]
      have hmem := hsound.ticket?_eq_some_iff.mp hheld
      have hmoved := (hsound.perm_without hmem).map (·.2)
      exact List.perm_middle.trans (hmoved.symm.append_right _)

theorem entries_resolve_subset (table : PendingTable) (answer : Message) :
    (table.resolve answer).2.entries ⊆ table.entries := by
  unfold resolve
  split
  · exact List.Subset.refl _
  · exact List.filter_sublist.subset

theorem Sound.resolve {table : PendingTable} (hsound : table.Sound) (answer : Message) :
    (table.resolve answer).2.Sound := by
  have hperm := hsound.tickets_resolve answer
  cases hheld : table.ticket? answer.id with
  | none => rwa [resolve_of_ticket?_eq_none hheld]
  | some ticket =>
      rw [resolve_of_ticket?_eq_some hheld] at hperm ⊢
      have hwithout := hsound.without answer.id
      exact {
        ids_distinct := hwithout.ids_distinct
        ids_positive := hwithout.ids_positive
        tickets_distinct := hperm.nodup_iff.mpr hsound.tickets_distinct
        tickets_issued := fun ticket hticket =>
          hsound.tickets_issued ticket (hperm.mem_iff.mp hticket)
        closed_empty := hwithout.closed_empty }

theorem Sound.cancel {table : PendingTable} (hsound : table.Sound) (id : UInt32) :
    (table.cancel id).2.Sound :=
  hsound.without id

@[simp] theorem tickets_close (table : PendingTable) : table.close.2.tickets = table.tickets := by
  simp [close, tickets, Function.comp_def]

theorem Sound.close {table : PendingTable} (hsound : table.Sound) : table.close.2.Sound where
  ids_distinct := .nil
  ids_positive := by simp [PendingTable.close]
  tickets_distinct := by
    rw [tickets_close]
    exact hsound.tickets_distinct
  tickets_issued := by
    rw [tickets_close]
    exact hsound.tickets_issued
  closed_empty := fun _ => rfl

@[simp] theorem closed_resolve (table : PendingTable) (answer : Message) :
    (table.resolve answer).2.closed = table.closed := by
  unfold resolve
  split <;> rfl

@[simp] theorem issued_resolve (table : PendingTable) (answer : Message) :
    (table.resolve answer).2.issued = table.issued := by
  unfold resolve
  split <;> rfl

theorem Sound.take {table : PendingTable} (hsound : table.Sound) (ticket : Ticket) :
    (table.take ticket).Sound := by
  have hfewer : (table.take ticket).tickets.Sublist table.tickets :=
    (List.Sublist.refl _).append (List.filter_sublist.map _)
  exact {
    ids_distinct := hsound.ids_distinct
    ids_positive := hsound.ids_positive
    tickets_distinct := hsound.tickets_distinct.sublist hfewer
    tickets_issued := fun ticket hmem => hsound.tickets_issued ticket (hfewer.subset hmem)
    closed_empty := hsound.closed_empty }

theorem take_of_lookup_eq_none {table : PendingTable} {ticket : Ticket}
    (hnone : table.outcomes.lookup ticket = none) : table.take ticket = table := by
  rw [List.lookup_eq_none_iff] at hnone
  have hall : table.outcomes.filter (·.1 != ticket) = table.outcomes :=
    List.filter_eq_self.mpr fun pair hpair => bne_comm.trans (hnone pair hpair)
  rw [take, hall]

end RoutedSession.PendingTable

namespace RoutedSession.PendingAnswer

theorem snd_poll (answer : PendingAnswer) (table : PendingTable) :
    (answer.poll table).2 = table.take answer.ticket := by
  unfold poll PendingTable.standing
  cases hfound : table.outcomes.lookup answer.ticket with
  | some outcome => rfl
  | none =>
      rw [PendingTable.take_of_lookup_eq_none hfound]
      split <;> rfl

theorem drop_of_waiting {answer : PendingAnswer} {table : PendingTable}
    (hwaiting : table.standing answer.ticket = .waiting) :
    answer.drop table = table.without answer.id := by
  rw [drop, hwaiting]
  rfl

theorem drop_of_not_waiting {answer : PendingAnswer} {table : PendingTable}
    (hnot : table.standing answer.ticket ≠ .waiting) :
    answer.drop table = table.take answer.ticket := by
  unfold drop
  split
  · rename_i hwaiting
    exact absurd hwaiting hnot
  · rfl
  · rename_i hgone
    refine (PendingTable.take_of_lookup_eq_none ?_).symm
    unfold PendingTable.standing at hgone
    split at hgone
    · cases hgone
    · assumption

theorem drop_cases (answer : PendingAnswer) (table : PendingTable) :
    answer.drop table = table.take answer.ticket ∨
      answer.drop table = table.without answer.id := by
  by_cases hwaiting : table.standing answer.ticket = .waiting
  · exact .inr (drop_of_waiting hwaiting)
  · exact .inl (drop_of_not_waiting hwaiting)

end RoutedSession.PendingAnswer
