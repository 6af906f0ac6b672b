import RoutedSession.Proofs.Pending.Delivery
import RoutedSession.Proofs.Pending.Owners

namespace RoutedSession

namespace PendingAnswer

/-- The first of some answers that carries the id of a request. -/
def first? (registered : PendingAnswer) (answers : List Message) : Option Message :=
  answers.find? (·.id == registered.id)

theorem first?_append (registered : PendingAnswer) (front back : List Message) :
    registered.first? (front ++ back) = (registered.first? front).or (registered.first? back) :=
  List.find?_append

end PendingAnswer

/-- Of the answers to each id there are the same, in the same order. -/
def Message.SameOrder (answers others : List Message) : Prop :=
  ∀ id, answers.filter (·.id == id) = others.filter (·.id == id)

theorem Message.SameOrder.first?_eq {answers others : List Message}
    (hsame : SameOrder answers others) (registered : PendingAnswer) :
    registered.first? answers = registered.first? others := by
  rw [PendingAnswer.first?, PendingAnswer.first?, ← List.head?_filter, hsame, List.head?_filter]

theorem Message.sameOrder_of_perm {answers others : List Message} (hperm : answers.Perm others)
    (hdistinct : (answers.map (·.id)).Nodup) : SameOrder answers others := by
  intro id
  have hothers : (others.map (·.id)).Nodup := (hperm.map _).nodup_iff.mp hdistinct
  have hapart {messages : List Message} (hmessages : (messages.map (·.id)).Nodup) :
      (messages.filter (·.id == id)).Pairwise (·.id ≠ ·.id) :=
    (List.pairwise_map.mp hmessages).filter _
  refine List.Perm.eq_of_pairwise (fun first second hfirst hsecond hne _ => ?_) (hapart hdistinct)
    (hapart hothers) (hperm.filter _)
  have hid : first.id = id := beq_iff_eq.mp (List.mem_filter.mp hfirst).2
  have hother : second.id = id := beq_iff_eq.mp (List.mem_filter.mp hsecond).2
  exact absurd (hid.trans hother.symm) hne

namespace PendingTable

def afterAnswers (table : PendingTable) (answers : List Message) : PendingTable :=
  table.after (answers.map .resolve)

theorem afterAnswers_cons (table : PendingTable) (answer : Message) (rest : List Message) :
    table.afterAnswers (answer :: rest) = (table.resolve answer).2.afterAnswers rest :=
  rfl

section

variable {table after : PendingTable} {registered : PendingAnswer} {found : Option Message}

theorem Sound.tickets_afterAnswers (hsound : table.Sound) (answers : List Message) :
    (table.afterAnswers answers).tickets.Perm table.tickets := by
  induction answers generalizing table with
  | nil => exact .refl _
  | cons answer rest ih =>
      rw [afterAnswers_cons]
      exact (ih (hsound.resolve answer)).trans (hsound.tickets_resolve answer)

theorem issued_afterAnswers (table : PendingTable) (answers : List Message) :
    (table.afterAnswers answers).issued = table.issued := by
  induction answers generalizing table with
  | nil => rfl
  | cons answer rest ih => rw [afterAnswers_cons, ih, issued_resolve]

/-- A request that is pending comes to the first answer with its id. -/
theorem Sound.holds_afterAnswers (hsound : table.Sound)
    (hpending : registered.entry ∈ table.entries) (answers : List Message) :
    (table.afterAnswers answers).Holds registered
      ((registered.first? answers).map .answered) := by
  induction answers generalizing table with
  | nil => exact hpending
  | cons answer rest ih =>
      have hlater := hsound.resolve answer
      have hholds := hsound.holds_call hpending (.resolve answer)
      rw [endingBy] at hholds
      by_cases hid : answer.id = registered.id
      · -- The others come too late.
        have hheld : table.ticket? answer.id = some registered.ticket := by
          rw [hid]
          exact hsound.ticket?_eq_some_iff.mpr hpending
        have hfirst : registered.first? (answer :: rest) = some answer :=
          List.find?_cons_of_pos (beq_iff_eq.mpr hid)
        rw [if_pos hheld] at hholds
        rw [hfirst]
        exact (endings_of_ended hlater hholds (rest.map .resolve)).2
      · have hother : table.ticket? answer.id ≠ some registered.ticket := fun hheld =>
          hid (hsound.id_unique (hsound.ticket?_eq_some_iff.mp hheld) hpending)
        have hrest : registered.first? (answer :: rest) = registered.first? rest :=
          List.find?_cons_of_neg (mt beq_iff_eq.mp hid)
        rw [if_neg hother] at hholds
        rw [hrest]
        exact ih hlater hholds

/-- As long as a request has not been given up and nobody has taken its outcome, it is pending, or
the answer that has been found is there. -/
structure Follows (table : PendingTable) (registered : PendingAnswer) (found : Option Message) :
    Prop where
  issued : registered.ticket < table.issued
  holds : registered.ticket ∈ table.tickets → table.Holds registered (found.map .answered)

theorem Sound.follows (hsound : table.Sound) (hpending : registered.entry ∈ table.entries) :
    table.Follows registered none where
  issued := hsound.tickets_issued _ (List.mem_append_left _ (List.mem_map_of_mem hpending))
  holds _ := hpending

theorem Follows.afterAnswers (hfollows : table.Follows registered found) (hsound : table.Sound)
    (answers : List Message) :
    (table.afterAnswers answers).Follows registered (found.or (registered.first? answers)) where
  issued := by
    rw [issued_afterAnswers]
    exact hfollows.issued
  holds hmem := by
    have hholds := hfollows.holds ((hsound.tickets_afterAnswers answers).mem_iff.mp hmem)
    cases found with
    | none => exact hsound.holds_afterAnswers hholds answers
    | some message => exact (endings_of_ended hsound hholds _).2

theorem Follows.register (hfollows : table.Follows registered found) {id : UInt32}
    {ticket : Ticket} (hregister : table.register = some ((id, ticket), after)) :
    after.Follows registered found := by
  obtain ⟨-, -, -, rfl, rfl⟩ := register_eq_some hregister
  refine ⟨Nat.lt_succ_of_lt hfollows.issued, fun hmem => ?_⟩
  have hholds := hfollows.holds
    ((List.mem_cons.mp hmem).resolve_left (Nat.ne_of_lt hfollows.issued))
  cases found with
  | none => exact List.mem_cons_of_mem _ hholds
  | some message => exact hholds

theorem Follows.take (hfollows : table.Follows registered found) (hsound : table.Sound)
    (ticket : Ticket) : (table.take ticket).Follows registered found := by
  refine ⟨hfollows.issued, fun hmem => ?_⟩
  rcases List.mem_append.mp hmem with hentry | houtcome
  · have hholds := hfollows.holds (List.mem_append_left _ hentry)
    cases found with
    | none => exact hholds
    | some message => exact absurd hentry (hsound.ticket_not_pending hholds)
  · obtain ⟨outcome, hkept, hticket⟩ := List.mem_map.mp houtcome
    obtain ⟨hkept, hother⟩ := List.mem_filter.mp hkept
    rw [hticket] at hother
    have hholds := hfollows.holds
      (List.mem_append_right _ (List.mem_map.mpr ⟨outcome, hkept, hticket⟩))
    cases found with
    | none => exact hholds
    | some message => exact ⟨hholds.1, List.mem_filter.mpr ⟨hholds.2, hother⟩⟩

theorem Follows.without (hfollows : table.Follows registered found) (hsound : table.Sound)
    (id : UInt32) : (table.without id).Follows registered found := by
  refine ⟨hfollows.issued, fun hmem => ?_⟩
  rcases List.mem_append.mp hmem with hentry | houtcome
  · obtain ⟨entry, hkept, hticket⟩ := List.mem_map.mp hentry
    have hentries := (List.mem_filter.mp hkept).1
    have hholds := hfollows.holds
      (List.mem_append_left _ (List.mem_map.mpr ⟨entry, hentries, hticket⟩))
    cases found with
    | none =>
        obtain ⟨other, ticket⟩ := entry
        obtain rfl : ticket = registered.ticket := hticket
        obtain rfl := hsound.id_unique hentries hholds
        exact hkept
    | some message => exact hholds
  · have hholds := hfollows.holds (List.mem_append_right _ houtcome)
    cases found with
    | none =>
        exact absurd rfl ((List.nodup_append.mp hsound.tickets_distinct).2.2 _
          (List.mem_map_of_mem hholds) _ houtcome)
    | some message => exact hholds

theorem Follows.poll (hfollows : table.Follows registered found) (hsound : table.Sound)
    (hmem : registered.ticket ∈ table.tickets) :
    (registered.poll table).1 = found.map .ok ∧
      (registered.entry ∈ table.entries ↔ found = none) := by
  have hholds := hfollows.holds hmem
  have hstanding := hsound.standing_of_holds hholds
  rw [PendingAnswer.poll, hstanding]
  cases found with
  | none => exact ⟨rfl, fun _ => rfl, fun _ => hholds⟩
  | some message =>
      have hended := hsound.ticket_not_pending hholds
      exact ⟨rfl, fun hentry => absurd (List.mem_map_of_mem hentry) hended,
        fun hnone => absurd hnone (Option.some_ne_none message)⟩

end

end PendingTable

end RoutedSession
