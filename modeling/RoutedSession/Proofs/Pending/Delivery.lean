import Mathlib
import RoutedSession.Proofs.Pending.Table

namespace RoutedSession.PendingTable

/-- A call on a table. -/
inductive Call where
  | register
  | resolve (answer : Message)
  | cancel (id : UInt32)
  | close

/-- What a call returns. -/
inductive Reply where
  | granted (answer : PendingAnswer)
  /-- The table is closed. -/
  | refused
  /-- Every id is in use, and the call does not return. -/
  | endless
  | found (value : Bool)
  | failed (count : Nat)

def call (table : PendingTable) : Call → Reply × PendingTable
  | .register =>
      match table.register with
      | some ((id, ticket), after) => (.granted ⟨id, ticket⟩, after)
      | none => (if table.closed then .refused else .endless, table)
  | .resolve answer => ((.found (table.resolve answer).1), (table.resolve answer).2)
  | .cancel id => ((.found (table.cancel id).1), (table.cancel id).2)
  | .close => ((.failed table.close.1), table.close.2)

def after (table : PendingTable) (calls : List Call) : PendingTable :=
  calls.foldl (fun table call => (table.call call).2) table

def replies (table : PendingTable) : List Call → List Reply
  | [] => []
  | call :: rest => (table.call call).1 :: replies (table.call call).2 rest

def Reply.granted? : Reply → Option PendingAnswer
  | granted answer => some answer
  | _ => none

/-- How many registrations a reply says have ended. -/
def Reply.ended : Reply → Nat
  | found true => 1
  | failed count => count
  | _ => 0

/-- The registrations that calls make. -/
def granted (table : PendingTable) (calls : List Call) : List PendingAnswer :=
  (table.replies calls).filterMap Reply.granted?

/-- How a registration ends. -/
inductive Ending where
  | answered (answer : Message)
  | cancelled
  | closed

/-- How a call ends the registration with a ticket, if it does: an answer and a cancellation concern
the registration that holds their id, and closing the table concerns all that hold one. -/
def endingBy (table : PendingTable) (ticket : Ticket) : Call → Option Ending
  | .register => none
  | .resolve answer =>
      if table.ticket? answer.id = some ticket then some (.answered answer) else none
  | .cancel id => if table.ticket? id = some ticket then some .cancelled else none
  | .close => if table.entries.any (·.2 == ticket) then some .closed else none

def endings (table : PendingTable) (ticket : Ticket) : List Call → List Ending
  | [] => []
  | call :: rest =>
      (table.endingBy ticket call).toList ++ endings (table.call call).2 ticket rest

/-- Where a registration stands after it has ended, or while it has not. -/
def Ending.standing : Option Ending → Standing
  | none => .waiting
  | some (.answered answer) => .ready (.ok answer)
  | some .cancelled => .gone
  | some .closed => .ready (.error .closed)

/-- What holds of a table on which calls have been made. -/
structure DeliversOnce (first : PendingTable) (calls : List Call) : Prop where
  /-- Registrations are told apart by their tickets. -/
  tickets_distinct : ((first.granted calls).map PendingAnswer.ticket).Nodup
  /-- A registration has ended at most once, its waiting side sees how, and as long as it has not
  ended it holds its id. -/
  ends_once : ∀ answer ∈ first.granted calls, ∃ ending? : Option Ending,
    first.endings answer.ticket calls = ending?.toList ∧
      (first.after calls).standing answer.ticket = Ending.standing ending? ∧
      (ending? = none ↔ (first.after calls).ticket? answer.id = some answer.ticket)
  /-- An answer goes to a registration of the id that it carries. -/
  own_answer : ∀ registered ∈ first.granted calls, ∀ answer,
    .answered answer ∈ first.endings registered.ticket calls → answer.id = registered.id
  /-- Nobody is lost. -/
  counted : (first.granted calls).length =
    (first.after calls).size + ((first.replies calls).map Reply.ended).sum
  /-- A registration takes an id that is not in use, and concerns no other. -/
  register_next : ∀ {answer next}, (first.after calls).call .register = (.granted answer, next) →
    answer.id ≠ 0 ∧ (first.after calls).ticket? answer.id = none ∧
      ∀ id, next.ticket? id =
        if id = answer.id then some answer.ticket else (first.after calls).ticket? id
  /-- An answer finds the registration that holds its id, which is the only one that it removes. -/
  resolve_next : ∀ answer,
    ((first.after calls).resolve answer).1 = ((first.after calls).ticket? answer.id).isSome ∧
      (∀ id, ((first.after calls).resolve answer).2.ticket? id =
        if id = answer.id then none else (first.after calls).ticket? id) ∧
      ((first.after calls).resolve answer).2.size +
          ((first.after calls).ticket? answer.id).toList.length =
        (first.after calls).size
  /-- So does a cancellation. -/
  cancel_next : ∀ id,
    ((first.after calls).cancel id).1 = ((first.after calls).ticket? id).isSome ∧
      (∀ other, ((first.after calls).cancel id).2.ticket? other =
        if other = id then none else (first.after calls).ticket? other) ∧
      ((first.after calls).cancel id).2.size + ((first.after calls).ticket? id).toList.length =
        (first.after calls).size
  /-- An id that is not in use stays so until it is registered again, and an answer to it changes
  nothing. -/
  late : ∀ answer more, (first.after calls).ticket? answer.id = none →
    (∀ registered ∈ (first.after calls).granted more, registered.id ≠ answer.id) →
      ((first.after calls).after more).resolve answer = (false, (first.after calls).after more)
  /-- Nothing is pending any more once the table has been closed, and nothing will be. -/
  closed_next : Call.close ∈ calls →
    (first.after calls).entries = [] ∧
      (first.after calls).call .register = (.refused, first.after calls) ∧
      (∀ answer, (first.after calls).resolve answer = (false, first.after calls)) ∧
      ∀ id, (first.after calls).cancel id = (false, first.after calls)

theorem Sound.call {table : PendingTable} (hsound : table.Sound) (call : Call) :
    (table.call call).2.Sound := by
  cases call with
  | register =>
      simp only [PendingTable.call]
      split
      · rename_i hregister
        exact hsound.register hregister
      · exact hsound
  | resolve answer => exact hsound.resolve answer
  | cancel id => exact hsound.cancel id
  | close => exact hsound.close

theorem call_register_cases (table : PendingTable) :
    (∃ id next, table.register = some ((id, table.issued), next) ∧
        table.call .register = (.granted ⟨id, table.issued⟩, next)) ∨
      table.register = none ∧
        table.call .register = (if table.closed then .refused else .endless, table) := by
  simp only [call]
  cases hregister : table.register with
  | none => exact .inr ⟨rfl, rfl⟩
  | some registered =>
      obtain ⟨⟨id, ticket⟩, next⟩ := registered
      obtain ⟨-, -, -, rfl, -⟩ := register_eq_some hregister
      exact .inl ⟨id, next, rfl, rfl⟩

theorem issued_le_call (table : PendingTable) (call : Call) :
    table.issued ≤ (table.call call).2.issued := by
  cases call with
  | register =>
      rcases call_register_cases table with ⟨id, next, hregister, hcall⟩ | ⟨-, hcall⟩
      · obtain ⟨-, -, -, -, rfl⟩ := register_eq_some hregister
        rw [hcall]
        exact Nat.le_succ _
      · refine Nat.le_of_eq ?_
        rw [hcall]
  | resolve answer =>
      simp only [PendingTable.call, PendingTable.resolve]
      split <;> exact Nat.le_refl _
  | cancel id => exact Nat.le_refl _
  | close => exact Nat.le_refl _

theorem outcomes_subset_call (table : PendingTable) (call : Call) :
    table.outcomes ⊆ (table.call call).2.outcomes := by
  cases call with
  | register =>
      rcases call_register_cases table with ⟨id, next, hregister, hcall⟩ | ⟨-, hcall⟩
      · obtain ⟨-, -, -, -, rfl⟩ := register_eq_some hregister
        rw [hcall]
        exact List.Subset.refl _
      · rw [hcall]
        exact List.Subset.refl _
  | resolve answer =>
      simp only [PendingTable.call, PendingTable.resolve]
      split
      · exact List.Subset.refl _
      · exact List.subset_cons_self _ _
  | cancel id => exact List.Subset.refl _
  | close => exact List.subset_append_right _ _

theorem not_mem_tickets_call {table : PendingTable} {ticket : Ticket}
    (hissued : ticket < table.issued) (habsent : ticket ∉ table.tickets) (call : Call) :
    ticket ∉ (table.call call).2.tickets := by
  cases call with
  | register =>
      rcases call_register_cases table with ⟨id, next, hregister, hcall⟩ | ⟨-, hcall⟩
      · obtain ⟨-, -, -, -, rfl⟩ := register_eq_some hregister
        rw [hcall]
        exact List.not_mem_cons_of_ne_of_not_mem (Nat.ne_of_lt hissued) habsent
      · rwa [hcall]
  | resolve answer =>
      intro hmem
      cases hheld : table.ticket? answer.id with
      | none =>
          simp only [PendingTable.call, resolve_of_ticket?_eq_none hheld] at hmem
          exact habsent hmem
      | some holder =>
          simp only [PendingTable.call, resolve_of_ticket?_eq_some hheld, tickets,
            List.mem_append, List.map_cons, List.mem_cons] at hmem
          rcases hmem with hpending | rfl | hready
          · exact habsent (List.mem_append_left _
              ((List.filter_sublist.map _).subset hpending))
          · obtain ⟨front, back, hsplit, -⟩ := List.lookup_eq_some_iff.mp hheld
            exact habsent (List.mem_append_left _ (by simp [hsplit]))
          · exact habsent (List.mem_append_right _ hready)
  | cancel id =>
      intro hmem
      exact habsent (((List.filter_sublist.map _).append (List.Sublist.refl _)).subset hmem)
  | close =>
      intro hmem
      simp only [PendingTable.call, PendingTable.close, tickets, List.map_nil, List.nil_append,
        List.map_append, List.map_map, Function.comp_def] at hmem
      exact habsent hmem

theorem endingBy_of_not_mem {table : PendingTable} {ticket : Ticket}
    (habsent : ticket ∉ table.entries.map (·.2)) (call : Call) :
    table.endingBy ticket call = none := by
  have hnotHeld : ∀ id, table.ticket? id ≠ some ticket := by
    intro id hheld
    obtain ⟨front, back, hsplit, -⟩ := List.lookup_eq_some_iff.mp hheld
    exact habsent (by simp [hsplit])
  cases call with
  | register => rfl
  | resolve answer => exact if_neg (hnotHeld answer.id)
  | cancel id => exact if_neg (hnotHeld id)
  | close =>
      refine if_neg fun hany => habsent ?_
      obtain ⟨entry, hentry, hsame⟩ := List.any_eq_true.mp hany
      exact List.mem_map.mpr ⟨entry, hentry, by simpa using hsame⟩

theorem size_call {table : PendingTable} (hsound : table.Sound) (call : Call) :
    table.size + (table.call call).1.granted?.toList.length =
      (table.call call).2.size + (table.call call).1.ended := by
  cases call with
  | register =>
      rcases call_register_cases table with ⟨id, next, hregister, hcall⟩ | ⟨-, hcall⟩
      · obtain ⟨-, -, -, -, rfl⟩ := register_eq_some hregister
        rw [hcall]
        rfl
      · rw [hcall]
        split <;> rfl
  | resolve answer =>
      cases hheld : table.ticket? answer.id with
      | none =>
          simp only [PendingTable.call, resolve_of_ticket?_eq_none hheld]
          rfl
      | some ticket =>
          have hperm := hsound.perm_without (hsound.ticket?_eq_some_iff.mp hheld)
          simp only [PendingTable.call, resolve_of_ticket?_eq_some hheld]
          exact hperm.length_eq
  | cancel id =>
      simp only [PendingTable.call, PendingTable.cancel, isPending_eq_isSome]
      cases hheld : table.ticket? id with
      | none =>
          rw [without_of_ticket?_eq_none hheld]
          rfl
      | some ticket =>
          exact (hsound.perm_without (hsound.ticket?_eq_some_iff.mp hheld)).length_eq
  | close =>
      simp only [PendingTable.call, PendingTable.close, PendingTable.size, Reply.granted?,
        Reply.ended, Option.toList_none, List.length_nil, Nat.add_zero, Nat.zero_add]

/-- What the table holds of a registration that has ended so, or that has not ended. -/
def Holds (table : PendingTable) (registered : PendingAnswer) : Option Ending → Prop
  | none => (registered.id, registered.ticket) ∈ table.entries
  | some (.answered answer) =>
      answer.id = registered.id ∧ (registered.ticket, .ok answer) ∈ table.outcomes
  | some .cancelled => registered.ticket < table.issued ∧ registered.ticket ∉ table.tickets
  | some .closed => (registered.ticket, .error .closed) ∈ table.outcomes

theorem Sound.standing_of_holds {table : PendingTable} (hsound : table.Sound)
    {registered : PendingAnswer} {ending? : Option Ending}
    (hholds : table.Holds registered ending?) :
    table.standing registered.ticket = Ending.standing ending? := by
  match ending? with
  | none => exact hsound.standing_of_mem_entries hholds
  | some (.answered answer) => exact hsound.standing_of_mem_outcomes hholds.2
  | some .cancelled => exact standing_of_not_mem hholds.2
  | some .closed => exact hsound.standing_of_mem_outcomes hholds

theorem Sound.ticket_not_pending {table : PendingTable} (hsound : table.Sound)
    {registered : PendingAnswer} {ending : Ending} (hholds : table.Holds registered (some ending)) :
    registered.ticket ∉ table.entries.map (·.2) := by
  have hready : ∀ {outcome}, (registered.ticket, outcome) ∈ table.outcomes →
      registered.ticket ∉ table.entries.map (·.2) := fun hmem hpending =>
    (List.nodup_append.mp hsound.tickets_distinct).2.2 _ hpending _ (List.mem_map_of_mem hmem) rfl
  cases ending with
  | answered answer => exact hready hholds.2
  | cancelled => exact fun hpending => hholds.2 (List.mem_append_left _ hpending)
  | closed => exact hready hholds

theorem Holds.call {table : PendingTable} {registered : PendingAnswer} {ending : Ending}
    (hholds : table.Holds registered (some ending)) (call : Call) :
    (table.call call).2.Holds registered (some ending) := by
  cases ending with
  | answered answer => exact ⟨hholds.1, outcomes_subset_call table call hholds.2⟩
  | cancelled =>
      exact ⟨Nat.lt_of_lt_of_le hholds.1 (issued_le_call table call),
        not_mem_tickets_call hholds.1 hholds.2 call⟩
  | closed => exact outcomes_subset_call table call hholds

/-- A registration that is pending stays so, or ends as the call says. -/
theorem Sound.holds_call {table : PendingTable} (hsound : table.Sound) {registered : PendingAnswer}
    (hpending : (registered.id, registered.ticket) ∈ table.entries) (call : Call) :
    (table.call call).2.Holds registered (table.endingBy registered.ticket call) := by
  have hheld : table.ticket? registered.id = some registered.ticket :=
    hsound.ticket?_eq_some_iff.mpr hpending
  have hown : ∀ {id}, table.ticket? id = some registered.ticket → id = registered.id :=
    fun hid => hsound.id_unique (hsound.ticket?_eq_some_iff.mp hid) hpending
  have hkept : ∀ {id}, table.ticket? id ≠ some registered.ticket →
      (registered.id, registered.ticket) ∈ (table.without id).entries := by
    intro id hother
    refine List.mem_filter.mpr ⟨hpending, ?_⟩
    rw [bne_iff_ne]
    rintro rfl
    exact hother hheld
  cases call with
  | register =>
      rcases call_register_cases table with ⟨id, next, hregister, hcall⟩ | ⟨-, hcall⟩
      · obtain ⟨-, -, -, -, rfl⟩ := register_eq_some hregister
        rw [hcall]
        exact List.mem_cons_of_mem _ hpending
      · rwa [hcall]
  | resolve answer =>
      simp only [PendingTable.call, endingBy]
      split
      · rename_i hid
        rw [resolve_of_ticket?_eq_some hid]
        exact ⟨hown hid, List.mem_cons_self⟩
      · rename_i hother
        cases hanswered : table.ticket? answer.id with
        | none =>
            rw [resolve_of_ticket?_eq_none hanswered]
            exact hpending
        | some ticket =>
            rw [resolve_of_ticket?_eq_some hanswered]
            exact hkept hother
  | cancel id =>
      simp only [PendingTable.call, PendingTable.cancel, endingBy]
      split
      · rename_i hid
        obtain rfl := hown hid
        refine ⟨hsound.tickets_issued _ (List.mem_append_left _ (List.mem_map_of_mem hpending)),
          fun hmem => ?_⟩
        have hperm := (hsound.perm_without hpending).map (·.2)
        have hdistinct := ((hperm.append_right _).nodup_iff.mp hsound.tickets_distinct)
        exact (List.nodup_cons.mp hdistinct).1 hmem
      · rename_i hother
        exact hkept hother
  | close =>
      have hany : table.entries.any (·.2 == registered.ticket) = true :=
        List.any_eq_true.mpr ⟨_, hpending, beq_self_eq_true _⟩
      simp only [PendingTable.call, PendingTable.close, endingBy, hany, if_true]
      exact List.mem_append_left _ (List.mem_map.mpr ⟨_, hpending, rfl⟩)

theorem Sound.after {table : PendingTable} (hsound : table.Sound) (calls : List Call) :
    (table.after calls).Sound := by
  induction calls generalizing table with
  | nil => exact hsound
  | cons call rest ih => exact ih (hsound.call call)

theorem endings_of_ended {table : PendingTable} (hsound : table.Sound) {registered : PendingAnswer}
    {ending : Ending} (hholds : table.Holds registered (some ending)) (calls : List Call) :
    table.endings registered.ticket calls = [] ∧
      (table.after calls).Holds registered (some ending) := by
  induction calls generalizing table with
  | nil => exact ⟨rfl, hholds⟩
  | cons call rest ih =>
      obtain ⟨hnone, hlast⟩ := ih (hsound.call call) (hholds.call call)
      refine ⟨?_, hlast⟩
      rw [endings, endingBy_of_not_mem (hsound.ticket_not_pending hholds), hnone]
      rfl

theorem endings_of_pending {table : PendingTable} (hsound : table.Sound)
    {registered : PendingAnswer} (hpending : (registered.id, registered.ticket) ∈ table.entries)
    (calls : List Call) :
    ∃ ending? : Option Ending, table.endings registered.ticket calls = ending?.toList ∧
      (table.after calls).Holds registered ending? := by
  induction calls generalizing table with
  | nil => exact ⟨none, rfl, hpending⟩
  | cons call rest ih =>
      have hholds := hsound.holds_call hpending call
      -- The first call that ends it is the last, by the lemma before.
      cases hending : table.endingBy registered.ticket call with
      | none =>
          rw [hending] at hholds
          obtain ⟨ending?, hendings, hlast⟩ := ih (hsound.call call) hholds
          exact ⟨ending?, by rw [endings, hending, hendings]; rfl, hlast⟩
      | some ending =>
          rw [hending] at hholds
          obtain ⟨hnone, hlast⟩ := endings_of_ended (hsound.call call) hholds rest
          exact ⟨some ending, by rw [endings, hending, hnone]; rfl, hlast⟩

theorem granted_cons (table : PendingTable) (call : Call) (rest : List Call) :
    table.granted (call :: rest) =
      (table.call call).1.granted?.toList ++ (table.call call).2.granted rest := by
  simp only [granted, replies, List.filterMap_cons]
  cases (table.call call).1.granted? <;> rfl

theorem eq_of_granted {table : PendingTable} {call : Call} {registered : PendingAnswer}
    (hgranted : (table.call call).1.granted? = some registered) :
    call = .register ∧ registered.ticket = table.issued ∧
      table.register = some ((registered.id, registered.ticket), (table.call call).2) := by
  cases call with
  | register =>
      rcases call_register_cases table with ⟨id, next, hregister, hcall⟩ | ⟨-, hcall⟩
      · rw [hcall] at hgranted ⊢
        obtain rfl : _ = registered := Option.some.inj hgranted
        exact ⟨rfl, rfl, hregister⟩
      · rw [hcall] at hgranted
        cases hclosed : table.closed <;> simp [hclosed, Reply.granted?] at hgranted
  | resolve answer => simp [PendingTable.call, Reply.granted?] at hgranted
  | cancel id => simp [PendingTable.call, Reply.granted?] at hgranted
  | close => simp [PendingTable.call, Reply.granted?] at hgranted

theorem issued_le_of_granted {table : PendingTable} {calls : List Call} {registered : PendingAnswer}
    (hgranted : registered ∈ table.granted calls) : table.issued ≤ registered.ticket := by
  induction calls generalizing table with
  | nil => simp [granted, replies] at hgranted
  | cons call rest ih =>
      rw [granted_cons, List.mem_append, Option.mem_toList] at hgranted
      rcases hgranted with hnow | hlater
      · exact Nat.le_of_eq (eq_of_granted hnow).2.1.symm
      · exact Nat.le_trans (issued_le_call table call) (ih hlater)

theorem granted_distinct (table : PendingTable) (calls : List Call) :
    ((table.granted calls).map PendingAnswer.ticket).Nodup := by
  induction calls generalizing table with
  | nil => exact .nil
  | cons call rest ih =>
      rw [granted_cons]
      cases hgranted : (table.call call).1.granted? with
      | none => exact ih _
      | some registered =>
          obtain ⟨-, hticket, hregister⟩ := eq_of_granted hgranted
          obtain ⟨-, -, -, -, hnext⟩ := register_eq_some hregister
          refine List.nodup_cons.mpr ⟨fun hmem => ?_, ih _⟩
          obtain ⟨later, hlater, hsame⟩ := List.mem_map.mp hmem
          have hle := issued_le_of_granted hlater
          rw [hnext, hsame, hticket] at hle
          exact Nat.not_succ_le_self _ hle

theorem endings_of_granted {table : PendingTable} (hsound : table.Sound) {calls : List Call}
    {registered : PendingAnswer} (hgranted : registered ∈ table.granted calls) :
    ∃ ending? : Option Ending, table.endings registered.ticket calls = ending?.toList ∧
      (table.after calls).Holds registered ending? := by
  induction calls generalizing table with
  | nil => simp [granted, replies] at hgranted
  | cons call rest ih =>
      rw [granted_cons, List.mem_append, Option.mem_toList] at hgranted
      rcases hgranted with hnow | hlater
      · obtain ⟨rfl, hticket, hregister⟩ := eq_of_granted hnow
        obtain ⟨-, -, -, -, hnext⟩ := register_eq_some hregister
        have hpending : (registered.id, registered.ticket) ∈ (table.call .register).2.entries := by
          rw [hnext]
          exact List.mem_cons_self
        exact endings_of_pending (hsound.call .register) hpending rest
      · have habsent : registered.ticket ∉ table.entries.map (·.2) := by
          intro hmem
          have hbefore := hsound.tickets_issued _ (List.mem_append_left _ hmem)
          have hafter := issued_le_of_granted hlater
          have hle := issued_le_call table call
          exact Nat.lt_irrefl _ (Nat.lt_of_lt_of_le hbefore (Nat.le_trans hle hafter))
        obtain ⟨ending?, hendings, hlast⟩ := ih (hsound.call call) hlater
        exact ⟨ending?, by rw [endings, endingBy_of_not_mem habsent, hendings]; rfl, hlast⟩

theorem length_granted {table : PendingTable} (hsound : table.Sound) (calls : List Call) :
    table.size + (table.granted calls).length =
      (table.after calls).size + ((table.replies calls).map Reply.ended).sum := by
  induction calls generalizing table with
  | nil => rfl
  | cons call rest ih =>
      have hnow := size_call hsound call
      have hlater := ih (hsound.call call)
      rw [granted_cons, List.length_append]
      simp only [replies, List.map_cons, List.sum_cons]
      have hafter : table.after (call :: rest) = (table.call call).2.after rest := rfl
      rw [hafter]
      omega

theorem ticket?_call_eq_none {table : PendingTable} {id : UInt32}
    (hunused : table.ticket? id = none) {call : Call}
    (hother : ∀ registered, (table.call call).1.granted? = some registered → registered.id ≠ id) :
    (table.call call).2.ticket? id = none := by
  cases call with
  | register =>
      rcases call_register_cases table with ⟨other, next, hregister, hcall⟩ | ⟨-, hcall⟩
      · rw [hcall] at hother ⊢
        rw [ticket?_register hregister, if_neg (hother _ rfl).symm, hunused]
      · rwa [hcall]
  | resolve answer =>
      simp only [PendingTable.call, ticket?_resolve]
      split
      · rfl
      · exact hunused
  | cancel other =>
      simp only [PendingTable.call, PendingTable.cancel, ticket?_without]
      split
      · rfl
      · exact hunused
  | close => rfl

theorem ticket?_after_eq_none {table : PendingTable} {id : UInt32} {calls : List Call}
    (hunused : table.ticket? id = none)
    (hother : ∀ registered ∈ table.granted calls, registered.id ≠ id) :
    (table.after calls).ticket? id = none := by
  induction calls generalizing table with
  | nil => exact hunused
  | cons call rest ih =>
      rw [granted_cons] at hother
      have hnow := ticket?_call_eq_none hunused fun registered hgranted =>
        hother registered (List.mem_append_left _ (Option.mem_toList.mpr hgranted))
      exact ih hnow fun registered hgranted =>
        hother registered (List.mem_append_right _ hgranted)

theorem closed_call {table : PendingTable} (hclosed : table.closed = true) (call : Call) :
    (table.call call).2.closed = true := by
  cases call with
  | register =>
      rcases call_register_cases table with ⟨id, next, hregister, -⟩ | ⟨-, hcall⟩
      · exact absurd hclosed (by simp [(register_eq_some hregister).1])
      · rwa [hcall]
  | resolve answer =>
      simp only [PendingTable.call, PendingTable.resolve]
      split <;> exact hclosed
  | cancel id => exact hclosed
  | close => rfl

theorem closed_after {table : PendingTable} (hclosed : table.closed = true) (calls : List Call) :
    (table.after calls).closed = true := by
  induction calls generalizing table with
  | nil => exact hclosed
  | cons call rest ih => exact ih (closed_call hclosed call)

theorem closed_after_close (table : PendingTable) {calls : List Call}
    (hclose : Call.close ∈ calls) : (table.after calls).closed = true := by
  obtain ⟨front, back, rfl⟩ := List.append_of_mem hclose
  have hsplit : table.after (front ++ .close :: back) =
      ((table.after front).call .close).2.after back := by
    simp only [after, List.foldl_append, List.foldl_cons]
  rw [hsplit]
  exact closed_after rfl back

theorem Sound.size_without {table : PendingTable} (hsound : table.Sound) (id : UInt32) :
    (table.without id).size + (table.ticket? id).toList.length = table.size := by
  cases hheld : table.ticket? id with
  | none =>
      rw [without_of_ticket?_eq_none hheld]
      rfl
  | some ticket =>
      exact (hsound.perm_without (hsound.ticket?_eq_some_iff.mp hheld)).length_eq.symm

theorem size_resolve (table : PendingTable) (answer : Message) :
    (table.resolve answer).2.size = (table.without answer.id).size := by
  cases hheld : table.ticket? answer.id with
  | none => rw [resolve_of_ticket?_eq_none hheld, without_of_ticket?_eq_none hheld]
  | some ticket =>
      rw [resolve_of_ticket?_eq_some hheld]
      rfl

/-- Whatever is called on a new table, and whatever id it was to begin after, it delivers at most
once, to the right registration, and loses nobody. -/
theorem after_deliversOnce (lastId : UInt32) (calls : List Call) :
    DeliversOnce { lastId } calls := by
  have hfirst : ({ lastId } : PendingTable).Sound := sound_empty lastId
  have hlast := hfirst.after calls
  constructor
  case tickets_distinct => exact granted_distinct _ calls
  case ends_once =>
    intro registered hgranted
    obtain ⟨ending?, hendings, hholds⟩ := endings_of_granted hfirst hgranted
    refine ⟨ending?, hendings, hlast.standing_of_holds hholds, ?_, ?_⟩
    · rintro rfl
      exact hlast.ticket?_eq_some_iff.mpr hholds
    · intro hheld
      have hpending := hlast.ticket?_eq_some_iff.mp hheld
      cases ending? with
      | none => rfl
      | some ending =>
          exact absurd (List.mem_map_of_mem hpending) (hlast.ticket_not_pending hholds)
  case own_answer =>
    intro registered hgranted answer hanswered
    obtain ⟨ending?, hendings, hholds⟩ := endings_of_granted hfirst hgranted
    rw [hendings, Option.mem_toList] at hanswered
    rw [hanswered] at hholds
    exact hholds.1
  case counted =>
    have hcount := length_granted hfirst calls
    simpa [size] using hcount
  case register_next =>
    intro answer next hcall
    obtain ⟨-, -, hregister⟩ := eq_of_granted (by rw [hcall]; rfl)
    rw [hcall] at hregister
    obtain ⟨-, hpositive, hunused, -, -⟩ := register_eq_some hregister
    exact ⟨hpositive, hunused, ticket?_register hregister⟩
  case resolve_next =>
    intro answer
    refine ⟨fst_resolve _ answer, ticket?_resolve _ answer, ?_⟩
    rw [size_resolve, hlast.size_without]
  case cancel_next =>
    intro id
    exact ⟨isPending_eq_isSome _ id, ticket?_without _ id, hlast.size_without id⟩
  case late =>
    intro answer more hunused hother
    exact resolve_of_ticket?_eq_none (ticket?_after_eq_none hunused hother)
  case closed_next =>
    intro hclose
    have hclosed := closed_after_close { lastId } hclose
    have hnone := hlast.closed_empty hclosed
    have hunused : ∀ id, (PendingTable.after { lastId } calls).ticket? id = none := by
      intro id
      rw [ticket?_eq_none_iff, hnone]
      simp
    refine ⟨hnone, ?_, fun answer => resolve_of_ticket?_eq_none (hunused answer.id), fun id => ?_⟩
    · simp [PendingTable.call, PendingTable.register, hclosed]
    · rw [PendingTable.cancel, isPending_eq_isSome, hunused,
        without_of_ticket?_eq_none (hunused id)]
      rfl

end RoutedSession.PendingTable
