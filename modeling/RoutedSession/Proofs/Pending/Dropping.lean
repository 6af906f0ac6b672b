import RoutedSession.Proofs.Pending.Delivery
import RoutedSession.Proofs.Pending.Owners

namespace RoutedSession.PendingTable

/-- How a call ends a registration that has not ended: by its id, or with all others. -/
def Call.ending? (registered : PendingAnswer) : Call → Option Ending
  | .register => none
  | .resolve answer => if answer.id = registered.id then some (.answered answer) else none
  | .cancel id => if id = registered.id then some .cancelled else none
  | .close => some .closed

/-- What a registration that ends so leaves for its waiting side. -/
def Ending.outcome? : Ending → Option Outcome
  | .answered answer => some (.ok answer)
  | .cancelled => none
  | .closed => some (.error .closed)

/-- What has become of a registration. -/
inductive Fate where
  | pending
  /-- It has ended, and its waiting side may have been looked at since. -/
  | ended (ending : Ending) (isSeen : Bool)

namespace Fate

/-- Only a registration that is pending ends. -/
def after (registered : PendingAnswer) (call : Call) : Fate → Fate
  | pending =>
      match call.ending? registered with
      | none => pending
      | some ending => ended ending false
  | ended ending isSeen => ended ending isSeen

/-- After a look at the waiting side. -/
def seen : Fate → Fate
  | pending => pending
  | ended ending _ => ended ending true

/-- The outcome that is left to be looked at. -/
def outcome? : Fate → Option Outcome
  | pending | ended _ true => none
  | ended ending false => ending.outcome?

/-- How such a registration stands. -/
def standing : Fate → Standing
  | pending => .waiting
  | ended _ true => .gone
  | ended ending false => Ending.standing (some ending)

end Fate

/-- A waiting side that somebody has. -/
structure Held where
  answer : PendingAnswer
  fate : Fate := .pending

def Held.after (call : Call) (held : Held) : Held :=
  { held with fate := held.fate.after held.answer call }

def Held.seen (held : Held) : Held :=
  { held with fate := held.fate.seen }

/-- What can be done with a new table and with the waiting sides of the registrations made on it:
calls, looks, and giving a waiting side up. -/
inductive Run : List Held → PendingTable → Prop where
  | new (lastId : UInt32) : Run [] { lastId }
  /-- The counter of ids may be set anywhere, so that ids come again soon. -/
  | wind {held : List Held} {table : PendingTable} (lastId : UInt32) (hbefore : Run held table) :
      Run held { table with lastId }
  | call {held : List Held} {table : PendingTable} (call : Call) (hbefore : Run held table) :
      Run ((table.call call).1.granted?.toList.map (⟨·, .pending⟩) ++ held.map (·.after call))
        (table.call call).2
  | poll {held rest : List Held} {table : PendingTable} {one : Held} (hbefore : Run held table)
      (hheld : held.Perm (one :: rest)) : Run (one.seen :: rest) (one.answer.poll table).2
  | drop {held rest : List Held} {table : PendingTable} {one : Held} (hbefore : Run held table)
      (hheld : held.Perm (one :: rest)) : Run rest (one.answer.drop table)

/-- What holds of the waiting sides that are held, and of giving one of them up. -/
structure DropsOwn (held : List Held) (table : PendingTable) : Prop where
  tickets_distinct : (held.map (·.answer.ticket)).Nodup
  /-- The table has just the entries of the registrations that are pending. -/
  mem_entries_iff : ∀ entry,
    entry ∈ table.entries ↔ ∃ one ∈ held, one.fate = .pending ∧ one.answer.entry = entry
  standing_eq : ∀ one ∈ held, table.standing one.answer.ticket = one.fate.standing
  /-- Giving up a registration that is pending removes its own entry and nothing else. -/
  drop_pending : ∀ one ∈ held, one.fate = .pending →
    one.answer.drop table =
      { table with entries := table.entries.filter (· != one.answer.entry) }
  /-- Giving up one that has ended changes nothing but that its outcome, if nobody has looked at it,
  is lost. -/
  drop_ended : ∀ one ∈ held, one.fate ≠ .pending →
    one.answer.drop table =
      { table with outcomes := table.outcomes.filter (·.1 != one.answer.ticket) }
  removes_iff : ∀ one ∈ held, ∀ entry ∈ table.entries,
    entry ∉ (one.answer.drop table).entries ↔ entry = one.answer.entry ∧ one.fate = .pending
  /-- All others stand as before, whatever their ids. -/
  others_kept : ∀ one ∈ held, ∀ other ∈ held, other.answer.ticket ≠ one.answer.ticket →
    (one.answer.drop table).standing other.answer.ticket = table.standing other.answer.ticket ∧
      (other.answer.entry ∈ (one.answer.drop table).entries ↔
        other.answer.entry ∈ table.entries)

theorem mem_entries_call (table : PendingTable) (call : Call) (entry : UInt32 × Ticket) :
    entry ∈ (table.call call).2.entries ↔
      (∃ new, (table.call call).1.granted? = some new ∧ new.entry = entry) ∨
        entry ∈ table.entries ∧ call.ending? ⟨entry.1, entry.2⟩ = none := by
  cases call with
  | register =>
      rcases call_register_cases table with ⟨id, next, hregister, hcall⟩ | ⟨-, hcall⟩
      · obtain ⟨-, -, -, -, rfl⟩ := register_eq_some hregister
        rw [hcall]
        simp [Reply.granted?, Call.ending?, PendingAnswer.entry, eq_comm]
      · rw [hcall]
        split <;> simp [Reply.granted?, Call.ending?]
  | resolve answer =>
      have hentries : (table.resolve answer).2.entries = (table.without answer.id).entries := by
        cases hheld : table.ticket? answer.id with
        | none =>
            rw [resolve_of_ticket?_eq_none hheld, without_of_ticket?_eq_none hheld]
        | some ticket => rw [resolve_of_ticket?_eq_some hheld]
      simp [PendingTable.call, hentries, without, Reply.granted?, Call.ending?,
        @eq_comm _ answer.id]
  | cancel id =>
      simp [PendingTable.call, PendingTable.cancel, without, Reply.granted?, Call.ending?,
        @eq_comm _ id]
  | close => simp [PendingTable.call, PendingTable.close, Reply.granted?, Call.ending?]

theorem Sound.mem_outcomes_call {table : PendingTable} (hsound : table.Sound) (call : Call)
    (ticket : Ticket) (outcome : Outcome) :
    (ticket, outcome) ∈ (table.call call).2.outcomes ↔
      (ticket, outcome) ∈ table.outcomes ∨
        ∃ id, (id, ticket) ∈ table.entries ∧
          (call.ending? ⟨id, ticket⟩).bind Ending.outcome? = some outcome := by
  cases call with
  | register =>
      rcases call_register_cases table with ⟨id, next, hregister, hcall⟩ | ⟨-, hcall⟩
      · obtain ⟨-, -, -, -, rfl⟩ := register_eq_some hregister
        simp [hcall, Call.ending?]
      · simp [hcall, Call.ending?]
  | resolve answer =>
      cases hheld : table.ticket? answer.id with
      | none =>
          have hunused := ticket?_eq_none_iff.mp hheld
          simp only [PendingTable.call, resolve_of_ticket?_eq_none hheld, Call.ending?]
          refine (or_iff_left ?_).symm
          rintro ⟨id, hmem, hending⟩
          rw [if_neg (hunused _ hmem).symm] at hending
          cases hending
      | some holder =>
          have hmem := hsound.ticket?_eq_some_iff.mp hheld
          simp only [PendingTable.call, resolve_of_ticket?_eq_some hheld, List.mem_cons,
            Prod.mk.injEq, Call.ending?]
          rw [or_comm]
          refine or_congr_right ⟨?_, ?_⟩
          · rintro ⟨rfl, rfl⟩
            exact ⟨answer.id, hmem, by simp [Ending.outcome?]⟩
          · rintro ⟨id, hentry, hending⟩
            split at hending
            · rename_i hid
              subst hid
              rw [hsound.ticket?_eq_some_iff.mpr hentry] at hheld
              exact ⟨Option.some.inj hheld, (Option.some.inj hending).symm⟩
            · cases hending
  | cancel id =>
      simp only [PendingTable.call, PendingTable.cancel, Call.ending?]
      refine (or_iff_left ?_).symm
      rintro ⟨other, -, hending⟩
      split at hending <;> cases hending
  | close =>
      simp [PendingTable.call, PendingTable.close, Call.ending?, Ending.outcome?, or_comm, eq_comm]

/-- What every step of a run keeps: the table has the entries of the registrations that are
pending, and the outcomes that are left to be looked at. -/
structure Tallies (held : List Held) (table : PendingTable) : Prop where
  sound : table.Sound
  tickets_distinct : (held.map (·.answer.ticket)).Nodup
  tickets_issued : ∀ one ∈ held, one.answer.ticket < table.issued
  mem_entries_iff : ∀ entry,
    entry ∈ table.entries ↔ ∃ one ∈ held, one.fate = .pending ∧ one.answer.entry = entry
  mem_outcomes_iff : ∀ one ∈ held, ∀ outcome,
    (one.answer.ticket, outcome) ∈ table.outcomes ↔ one.fate.outcome? = some outcome

namespace Tallies

variable {held others rest : List Held} {table : PendingTable} {one : Held}

theorem perm (htallies : Tallies held table) (hperm : held.Perm others) : Tallies others table where
  sound := htallies.sound
  tickets_distinct := (hperm.map _).nodup_iff.mp htallies.tickets_distinct
  tickets_issued other hmem := htallies.tickets_issued other (hperm.mem_iff.mpr hmem)
  mem_entries_iff entry := by
    rw [htallies.mem_entries_iff]
    exact exists_congr fun other => and_congr_left' hperm.mem_iff
  mem_outcomes_iff other hmem := htallies.mem_outcomes_iff other (hperm.mem_iff.mpr hmem)

theorem eq_of_ticket (htallies : Tallies held table) {other : Held} (hone : one ∈ held)
    (hother : other ∈ held) (hticket : other.answer.ticket = one.answer.ticket) : other = one :=
  List.inj_on_of_nodup_map htallies.tickets_distinct hother hone hticket

theorem mem_entries_ticket_iff (htallies : Tallies held table) (hone : one ∈ held) (id : UInt32) :
    (id, one.answer.ticket) ∈ table.entries ↔ one.fate = .pending ∧ id = one.answer.id := by
  rw [htallies.mem_entries_iff]
  constructor
  · rintro ⟨other, hother, hpending, hentry⟩
    obtain ⟨hid, hticket⟩ := Prod.mk.inj hentry
    obtain rfl := htallies.eq_of_ticket hone hother hticket
    exact ⟨hpending, hid.symm⟩
  · rintro ⟨hpending, rfl⟩
    exact ⟨one, hone, hpending, rfl⟩

theorem standing_eq (htallies : Tallies held table) (hone : one ∈ held) :
    table.standing one.answer.ticket = one.fate.standing := by
  have hready {outcome : Outcome} (hleft : one.fate.outcome? = some outcome) :
      table.standing one.answer.ticket = .ready outcome :=
    htallies.sound.standing_of_mem_outcomes ((htallies.mem_outcomes_iff one hone _).mpr hleft)
  have hgone (hnot : one.fate ≠ .pending) (hleft : one.fate.outcome? = none) :
      table.standing one.answer.ticket = .gone := by
    refine standing_of_not_mem fun hmem => ?_
    rcases List.mem_append.mp hmem with hentry | houtcome
    · obtain ⟨⟨id, _⟩, hentry, rfl⟩ := List.mem_map.mp hentry
      exact hnot ((htallies.mem_entries_ticket_iff hone id).mp hentry).1
    · obtain ⟨⟨_, outcome⟩, houtcome, rfl⟩ := List.mem_map.mp houtcome
      rw [htallies.mem_outcomes_iff one hone, hleft] at houtcome
      cases houtcome
  cases hfate : one.fate with
  | pending =>
      exact htallies.sound.standing_of_mem_entries
        ((htallies.mem_entries_ticket_iff hone one.answer.id).mpr ⟨hfate, rfl⟩)
  | ended ending isSeen =>
      rw [hfate] at hready hgone
      match ending, isSeen with
      | _, true => exact hgone nofun rfl
      | .answered answer, false => exact hready rfl
      | .cancelled, false => exact hgone nofun rfl
      | .closed, false => exact hready rfl

theorem new (lastId : UInt32) : Tallies [] { lastId } where
  sound := sound_empty lastId
  tickets_distinct := .nil
  tickets_issued := nofun
  mem_entries_iff := by simp
  mem_outcomes_iff := nofun

theorem wind (htallies : Tallies held table) (lastId : UInt32) :
    Tallies held { table with lastId } :=
  { htallies with
    sound := { htallies.sound with } }

theorem ticket_ne_of_granted (htallies : Tallies held table) {call : Call} {new : PendingAnswer}
    (hgranted : (table.call call).1.granted? = some new) (hone : one ∈ held) :
    one.answer.ticket ≠ new.ticket := by
  rw [(eq_of_granted hgranted).2.1]
  exact Nat.ne_of_lt (htallies.tickets_issued one hone)

theorem tickets_after (held : List Held) (call : Call) :
    (held.map (·.after call)).map (·.answer.ticket) = held.map (·.answer.ticket) := by
  rw [List.map_map]
  rfl

theorem fate_after_eq_pending_iff {fate : Fate} {registered : PendingAnswer} {call : Call} :
    fate.after registered call = .pending ↔ fate = .pending ∧ call.ending? registered = none := by
  cases fate with
  | pending => cases hending : call.ending? registered <;> simp [Fate.after, hending]
  | ended ending isSeen => simp [Fate.after]

theorem outcome?_after {fate : Fate} {registered : PendingAnswer} {call : Call}
    {outcome : Outcome} :
    (fate.after registered call).outcome? = some outcome ↔
      fate.outcome? = some outcome ∨
        fate = .pending ∧ (call.ending? registered).bind Ending.outcome? = some outcome := by
  cases fate with
  | pending =>
      cases hending : call.ending? registered <;> simp [Fate.after, Fate.outcome?, hending]
  | ended ending isSeen => simp [Fate.after]

theorem call (htallies : Tallies held table) (call : Call) :
    Tallies ((table.call call).1.granted?.toList.map (⟨·, .pending⟩) ++ held.map (·.after call))
      (table.call call).2 where
  sound := htallies.sound.call call
  tickets_distinct := by
    rw [List.map_append, tickets_after]
    cases hgranted : (table.call call).1.granted? with
    | none => exact htallies.tickets_distinct
    | some new =>
        refine List.nodup_cons.mpr ⟨fun hmem => ?_, htallies.tickets_distinct⟩
        obtain ⟨one, hone, hticket⟩ := List.mem_map.mp hmem
        exact htallies.ticket_ne_of_granted hgranted hone hticket
  tickets_issued := by
    intro one hmem
    rcases List.mem_append.mp hmem with hnew | hold
    · obtain ⟨new, hgranted, rfl⟩ := List.mem_map.mp hnew
      obtain ⟨-, hticket, hregister⟩ := eq_of_granted (Option.mem_toList.mp hgranted)
      obtain ⟨-, -, -, -, hafter⟩ := register_eq_some hregister
      rw [hafter, hticket]
      exact Nat.lt_succ_self _
    · obtain ⟨one, hone, rfl⟩ := List.mem_map.mp hold
      exact Nat.lt_of_lt_of_le (htallies.tickets_issued one hone) (issued_le_call table call)
  mem_entries_iff := by
    intro entry
    rw [mem_entries_call, htallies.mem_entries_iff]
    simp only [List.mem_append, List.mem_map, Option.mem_toList, or_and_right, exists_or]
    refine or_congr ?_ ?_
    · constructor
      · rintro ⟨new, hgranted, hentry⟩
        exact ⟨_, ⟨new, hgranted, rfl⟩, rfl, hentry⟩
      · rintro ⟨_, ⟨new, hgranted, rfl⟩, -, hentry⟩
        exact ⟨new, hgranted, hentry⟩
    · constructor
      · rintro ⟨⟨one, hone, hpending, rfl⟩, hending⟩
        exact ⟨_, ⟨one, hone, rfl⟩, fate_after_eq_pending_iff.mpr ⟨hpending, hending⟩, rfl⟩
      · rintro ⟨_, ⟨one, hone, rfl⟩, hpending, rfl⟩
        obtain ⟨hpending, hending⟩ := fate_after_eq_pending_iff.mp hpending
        exact ⟨⟨one, hone, hpending, rfl⟩, hending⟩
  mem_outcomes_iff := by
    intro one hmem outcome
    rw [htallies.sound.mem_outcomes_call]
    rcases List.mem_append.mp hmem with hnew | hold
    · -- Nothing is known yet under the ticket of a new registration.
      obtain ⟨new, hgranted, rfl⟩ := List.mem_map.mp hnew
      obtain ⟨-, hticket, -⟩ := eq_of_granted (Option.mem_toList.mp hgranted)
      have hfresh : new.ticket ∉ table.tickets := fun hissued =>
        Nat.lt_irrefl _ (hticket ▸ htallies.sound.tickets_issued _ hissued)
      refine iff_of_false ?_ nofun
      rintro (houtcome | ⟨id, hentry, -⟩)
      · exact hfresh (List.mem_append_right _ (List.mem_map_of_mem houtcome))
      · exact hfresh (List.mem_append_left _ (List.mem_map_of_mem hentry))
    · obtain ⟨one, hone, rfl⟩ := List.mem_map.mp hold
      simp only [Held.after, outcome?_after, htallies.mem_outcomes_iff one hone,
        htallies.mem_entries_ticket_iff hone]
      refine or_congr_right ⟨?_, ?_⟩
      · rintro ⟨_, ⟨hpending, rfl⟩, hending⟩
        exact ⟨hpending, hending⟩
      · rintro ⟨hpending, hending⟩
        exact ⟨_, ⟨hpending, rfl⟩, hending⟩

theorem ticket_ne_of_mem_rest (htallies : Tallies (one :: rest) table) {other : Held}
    (hother : other ∈ rest) : other.answer.ticket ≠ one.answer.ticket := by
  have hdistinct := htallies.tickets_distinct
  rw [List.map_cons, List.nodup_cons] at hdistinct
  intro hsame
  exact hdistinct.1 (hsame ▸ List.mem_map_of_mem hother)

theorem fate_seen_eq_pending_iff {fate : Fate} : fate.seen = .pending ↔ fate = .pending := by
  cases fate <;> simp [Fate.seen]

theorem outcome?_seen (fate : Fate) : fate.seen.outcome? = none := by
  cases fate <;> rfl

theorem poll (htallies : Tallies (one :: rest) table) :
    Tallies (one.seen :: rest) (one.answer.poll table).2 := by
  rw [PendingAnswer.snd_poll]
  constructor
  · exact htallies.sound.take _
  · exact htallies.tickets_distinct
  · intro other hmem
    rcases List.mem_cons.mp hmem with rfl | hother
    · exact htallies.tickets_issued one List.mem_cons_self
    · exact htallies.tickets_issued other (List.mem_cons_of_mem _ hother)
  · intro entry
    have hentries := htallies.mem_entries_iff entry
    rw [List.exists_mem_cons_iff] at hentries ⊢
    rwa [Held.seen, fate_seen_eq_pending_iff]
  · intro other hmem outcome
    simp only [take, List.mem_filter, bne_iff_ne]
    rcases List.mem_cons.mp hmem with rfl | hother
    · exact iff_of_false (fun htaken => htaken.2 rfl) (by simp [Held.seen, outcome?_seen])
    · rw [htallies.mem_outcomes_iff other (List.mem_cons_of_mem _ hother)]
      exact and_iff_left (htallies.ticket_ne_of_mem_rest hother)

theorem drop_of_pending (htallies : Tallies held table) (hone : one ∈ held)
    (hpending : one.fate = .pending) :
    one.answer.drop table =
      { table with entries := table.entries.filter (· != one.answer.entry) } := by
  have hentry : one.answer.entry ∈ table.entries :=
    (htallies.mem_entries_iff _).mpr ⟨one, hone, hpending, rfl⟩
  have hwaiting := htallies.standing_eq hone
  rw [hpending] at hwaiting
  rw [PendingAnswer.drop_of_waiting hwaiting, without, htallies.sound.filter_ne_id hentry]
  rfl

theorem drop_of_ended (htallies : Tallies held table) (hone : one ∈ held)
    (hended : one.fate ≠ .pending) : one.answer.drop table = table.take one.answer.ticket := by
  refine PendingAnswer.drop_of_not_waiting ?_
  rw [htallies.standing_eq hone]
  match hfate : one.fate with
  | .pending => exact absurd hfate hended
  | .ended _ true | .ended (.answered _) false | .ended .cancelled false
  | .ended .closed false => nofun

theorem drop (htallies : Tallies (one :: rest) table) : Tallies rest (one.answer.drop table) := by
  have htickets := htallies.tickets_distinct
  rw [List.map_cons, List.nodup_cons] at htickets
  have hentries (entry : UInt32 × Ticket) := htallies.mem_entries_iff entry
  simp only [List.exists_mem_cons_iff] at hentries
  by_cases hpending : one.fate = .pending
  · -- Of the entries its own goes, and that is none of the others'.
    have hwithout : (table.without one.answer.id).Sound := htallies.sound.without _
    have hentry := (htallies.mem_entries_iff _).mpr ⟨one, List.mem_cons_self, hpending, rfl⟩
    rw [without, htallies.sound.filter_ne_id hentry] at hwithout
    rw [htallies.drop_of_pending List.mem_cons_self hpending]
    refine ⟨hwithout, htickets.2, fun other hother => ?_, fun entry => ?_, fun other hother => ?_⟩
    · exact htallies.tickets_issued other (List.mem_cons_of_mem _ hother)
    · simp only [List.mem_filter, bne_iff_ne, hentries]
      constructor
      · rintro ⟨⟨-, hown⟩ | hother, hne⟩
        · exact absurd hown.symm hne
        · exact hother
      · rintro ⟨other, hother, hwaits, rfl⟩
        refine ⟨.inr ⟨other, hother, hwaits, rfl⟩, fun hsame => ?_⟩
        exact htallies.ticket_ne_of_mem_rest hother (congrArg Prod.snd hsame)
    · exact htallies.mem_outcomes_iff other (List.mem_cons_of_mem _ hother)
  · rw [htallies.drop_of_ended List.mem_cons_self hpending]
    refine ⟨htallies.sound.take _, htickets.2, fun other hother => ?_, fun entry => ?_,
      fun other hother outcome => ?_⟩
    · exact htallies.tickets_issued other (List.mem_cons_of_mem _ hother)
    · exact (hentries entry).trans (or_iff_right fun hown => hpending hown.1)
    · simp only [take, List.mem_filter, bne_iff_ne]
      rw [htallies.mem_outcomes_iff other (List.mem_cons_of_mem _ hother)]
      exact and_iff_left (htallies.ticket_ne_of_mem_rest hother)

theorem mem_drop_iff (htallies : Tallies held table) (hone : one ∈ held)
    (entry : UInt32 × Ticket) :
    entry ∈ (one.answer.drop table).entries ↔
      entry ∈ table.entries ∧ ¬(entry = one.answer.entry ∧ one.fate = .pending) := by
  by_cases hpending : one.fate = .pending
  · simp [htallies.drop_of_pending hone hpending, hpending]
  · simp [htallies.drop_of_ended hone hpending, hpending, take]

end Tallies

theorem Run.tallies {held : List Held} {table : PendingTable} (hrun : Run held table) :
    Tallies held table := by
  induction hrun with
  | new lastId => exact .new lastId
  | wind lastId _ ih => exact ih.wind lastId
  | call call _ ih => exact ih.call call
  | poll _ hheld ih => exact (ih.perm hheld).poll
  | drop _ hheld ih => exact (ih.perm hheld).drop

/-- Whatever has been done, giving up a waiting side concerns its own registration alone. -/
theorem drop_dropsOwn {held : List Held} {table : PendingTable} (hrun : Run held table) :
    DropsOwn held table := by
  have htallies := hrun.tallies
  constructor
  case tickets_distinct => exact htallies.tickets_distinct
  case mem_entries_iff => exact htallies.mem_entries_iff
  case standing_eq => exact fun one hone => htallies.standing_eq hone
  case drop_pending => exact fun one hone => htallies.drop_of_pending hone
  case drop_ended => exact fun one hone => htallies.drop_of_ended hone
  case removes_iff =>
    intro one hone entry hentry
    rw [htallies.mem_drop_iff hone, not_and, not_not]
    exact forall_prop_of_true hentry
  case others_kept =>
    intro one hone other hother hticket
    refine ⟨?_, ?_⟩
    · obtain ⟨front, back, rfl⟩ := List.append_of_mem hone
      have hperm := @List.perm_middle _ one front back
      rcases List.mem_cons.mp (hperm.mem_iff.mp hother) with rfl | hrest
      · exact absurd rfl hticket
      · rw [(htallies.perm hperm).drop.standing_eq hrest, htallies.standing_eq hother]
    · rw [htallies.mem_drop_iff hone]
      refine and_iff_left ?_
      rintro ⟨hsame, -⟩
      exact hticket (congrArg Prod.snd hsame)

/-- The counter has come round: the id of a request whose answer nobody has looked at is given out
again. Giving up the first waiting side leaves the second request in the table. -/
theorem drop_dropsOwn_idGivenOutAgain :
    let answer : Message := { kind := .response, id := 1 }
    let first : Held := ⟨⟨1, 0⟩, .ended (.answered answer) false⟩
    let second : Held := ⟨⟨1, 1⟩, .pending⟩
    let table : PendingTable :=
      { entries := [(1, 1)], lastId := 1, issued := 2, outcomes := [(0, .ok answer)] }
    Run [second, first] table ∧
      first.answer.drop table = { table with outcomes := [] } ∧
        second.answer.drop table = { table with entries := [] } := by
  intro answer first second table
  have hrun : Run [second, first] table :=
    (((Run.new 0).call .register).call (.resolve answer)).wind 0 |>.call .register
  exact ⟨hrun, (drop_dropsOwn hrun).drop_ended first (by simp) nofun,
    (drop_dropsOwn hrun).drop_pending second (by simp) rfl⟩

end RoutedSession.PendingTable
