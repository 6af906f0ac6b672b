import RoutedSession.Proofs.Pending.Table

namespace RoutedSession

namespace PendingAnswer

def entry (answer : PendingAnswer) : UInt32 × Ticket :=
  (answer.id, answer.ticket)

/-- Whether a request has come to an outcome that nobody has taken. -/
def hasOutcome (answer : PendingAnswer) (table : PendingTable) : Bool :=
  table.outcomes.any (·.1 == answer.ticket)

end PendingAnswer

namespace PendingTable

/-- Every registration in the table has its waiting side among those listed, and each of these is
that of one registration. -/
structure Serves (table : PendingTable) (live : List PendingAnswer) : Prop where
  sound : table.Sound
  tickets_perm : table.tickets.Perm (live.map (·.ticket))
  entries_live : ∀ entry ∈ table.entries, ∃ answer ∈ live, answer.entry = entry

namespace Serves

variable {table after : PendingTable} {live others rest : List PendingAnswer}
  {answer : PendingAnswer}

theorem perm (hserves : table.Serves live) (hperm : live.Perm others) : table.Serves others where
  sound := hserves.sound
  tickets_perm := hserves.tickets_perm.trans (hperm.map _)
  entries_live := by
    intro entry hentry
    obtain ⟨answer, hmem, hsame⟩ := hserves.entries_live entry hentry
    exact ⟨answer, hperm.mem_iff.mp hmem, hsame⟩

theorem tickets_distinct (hserves : table.Serves live) : (live.map (·.ticket)).Nodup :=
  hserves.tickets_perm.nodup_iff.mp hserves.sound.tickets_distinct

theorem mem_entries_iff (hserves : table.Serves live) (hlive : answer ∈ live) :
    answer.entry ∈ table.entries ↔ answer.hasOutcome table = false := by
  have hticket : answer.ticket ∈ table.tickets :=
    hserves.tickets_perm.mem_iff.mpr (List.mem_map_of_mem hlive)
  have hdistinct := List.nodup_append.mp hserves.sound.tickets_distinct
  constructor
  · intro hentry
    rw [PendingAnswer.hasOutcome, Bool.eq_false_iff, ne_eq, List.any_eq_true]
    rintro ⟨outcome, houtcome, hsame⟩
    refine hdistinct.2.2 answer.ticket (List.mem_map_of_mem hentry) outcome.1
      (List.mem_map_of_mem houtcome) ?_
    exact (beq_iff_eq.mp hsame).symm
  · intro hnone
    rcases List.mem_append.mp hticket with hentry | houtcome
    · -- The entry of this ticket belongs to a waiting side, which can only be this one.
      obtain ⟨entry, hentry, hsame⟩ := List.mem_map.mp hentry
      obtain ⟨other, hother, rfl⟩ := hserves.entries_live entry hentry
      have hother : other = answer :=
        List.inj_on_of_nodup_map hserves.tickets_distinct hother hlive hsame
      rwa [← hother]
    · obtain ⟨outcome, houtcome, hsame⟩ := List.mem_map.mp houtcome
      have hsome : answer.hasOutcome table = true :=
        List.any_eq_true.mpr ⟨outcome, houtcome, beq_iff_eq.mpr hsame⟩
      rw [hsome] at hnone
      contradiction

/-- The entries are those of the waiting sides without an outcome. -/
theorem entries_perm (hserves : table.Serves live) :
    table.entries.Perm
      ((live.filter fun answer => !answer.hasOutcome table).map PendingAnswer.entry) := by
  have hentries : table.entries.Nodup :=
    (hserves.sound.ids_distinct.imp fun hne hsame => hne (congrArg Prod.fst hsame))
  have hlive : ((live.filter fun answer => !answer.hasOutcome table).map
      PendingAnswer.entry).Nodup := by
    refine List.Nodup.of_map Prod.snd ?_
    rw [List.map_map]
    exact hserves.tickets_distinct.sublist (List.filter_sublist.map _)
  refine (List.perm_ext_iff_of_nodup hentries hlive).mpr fun entry => ?_
  constructor
  · intro hentry
    obtain ⟨answer, hmem, rfl⟩ := hserves.entries_live entry hentry
    refine List.mem_map_of_mem (List.mem_filter.mpr ⟨hmem, ?_⟩)
    rw [(hserves.mem_entries_iff hmem).mp hentry, Bool.not_false]
  · intro hmem
    obtain ⟨answer, hfiltered, rfl⟩ := List.mem_map.mp hmem
    obtain ⟨hlive, hnone⟩ := List.mem_filter.mp hfiltered
    exact (hserves.mem_entries_iff hlive).mpr (by simpa using hnone)

theorem register (hserves : table.Serves live) {id : UInt32} {ticket : Ticket}
    (hregister : table.register = some ((id, ticket), after)) :
    after.Serves (⟨id, ticket⟩ :: live) where
  sound := hserves.sound.register hregister
  tickets_perm := by
    obtain ⟨-, -, -, -, rfl⟩ := register_eq_some hregister
    exact hserves.tickets_perm.cons ticket
  entries_live := by
    obtain ⟨-, -, -, -, rfl⟩ := register_eq_some hregister
    intro entry hentry
    rcases List.mem_cons.mp hentry with rfl | hentry
    · exact ⟨⟨id, ticket⟩, List.mem_cons_self, rfl⟩
    · obtain ⟨answer, hmem, hsame⟩ := hserves.entries_live entry hentry
      exact ⟨answer, List.mem_cons_of_mem _ hmem, hsame⟩

theorem resolve (hserves : table.Serves live) (message : Message) :
    (table.resolve message).2.Serves live where
  sound := hserves.sound.resolve message
  tickets_perm := (hserves.sound.tickets_resolve message).trans hserves.tickets_perm
  entries_live := fun entry hentry => hserves.entries_live entry (entries_resolve_subset _ _ hentry)

theorem close (hserves : table.Serves live) : table.close.2.Serves live where
  sound := hserves.sound.close
  tickets_perm := by
    rw [tickets_close]
    exact hserves.tickets_perm
  entries_live := nofun

theorem standing_of_hasOutcome_eq_false (hserves : table.Serves live) (hlive : answer ∈ live)
    (hnone : answer.hasOutcome table = false) : table.standing answer.ticket = .waiting :=
  hserves.sound.standing_of_mem_entries ((hserves.mem_entries_iff hlive).mpr hnone)

theorem exists_outcome (hserves : table.Serves live) (hsome : answer.hasOutcome table = true) :
    ∃ outcome, (answer.ticket, outcome) ∈ table.outcomes ∧
      table.standing answer.ticket = .ready outcome := by
  obtain ⟨⟨ticket, outcome⟩, hmem, hsame⟩ := List.any_eq_true.mp hsome
  obtain rfl : ticket = answer.ticket := beq_iff_eq.mp hsame
  exact ⟨outcome, hmem, hserves.sound.standing_of_mem_outcomes hmem⟩

theorem without (hserves : table.Serves (answer :: rest)) (hentry : answer.entry ∈ table.entries) :
    (table.without answer.id).Serves rest ∧
      (table.without answer.id).entries = table.entries.filter (· != answer.entry) := by
  have hperm := hserves.sound.perm_without hentry
  constructor
  · constructor
    · exact hserves.sound.without answer.id
    · have htickets := (hperm.map (·.2)).append_right (table.outcomes.map (·.1))
      exact (htickets.symm.trans hserves.tickets_perm).cons_inv
    · intro entry hmem
      obtain ⟨hmem, hother⟩ := List.mem_filter.mp hmem
      obtain ⟨owner, howner, rfl⟩ := hserves.entries_live entry hmem
      rcases List.mem_cons.mp howner with rfl | howner
      · simp [PendingAnswer.entry] at hother
      · exact ⟨owner, howner, rfl⟩
  · exact hserves.sound.filter_ne_id hentry

theorem entry_not_mem (hserves : table.Serves live) (hlive : answer ∈ live)
    (hsome : answer.hasOutcome table = true) : answer.entry ∉ table.entries := by
  rw [hserves.mem_entries_iff hlive, hsome]
  exact Bool.noConfusion

theorem filter_ne_entry (hserves : table.Serves live) (hlive : answer ∈ live) :
    table.entries.filter (· != answer.entry) =
      if answer.hasOutcome table then table.entries
      else table.entries.filter (·.1 != answer.id) := by
  split
  · rename_i hsome
    refine List.filter_eq_self.mpr fun entry hmem => ?_
    rw [bne_iff_ne]
    rintro rfl
    exact hserves.entry_not_mem hlive hsome hmem
  · rename_i hnone
    rw [Bool.not_eq_true] at hnone
    exact (hserves.sound.filter_ne_id ((hserves.mem_entries_iff hlive).mpr hnone)).symm

theorem take (hserves : table.Serves (answer :: rest)) (hsome : answer.hasOutcome table = true) :
    (table.take answer.ticket).Serves rest ∧
      (table.take answer.ticket).entries = table.entries.filter (· != answer.entry) := by
  have hgone := hserves.entry_not_mem List.mem_cons_self hsome
  constructor
  · constructor
    · exact hserves.sound.take answer.ticket
    · obtain ⟨outcome, hmem, -⟩ := hserves.exists_outcome hsome
      have hperm := (perm_filter_of_mem hserves.sound.outcomes_distinct hmem).map (·.1)
      have htickets := (hperm.append_left (table.entries.map (·.2))).trans List.perm_middle
      exact (htickets.symm.trans hserves.tickets_perm).cons_inv
    · intro entry hmem
      obtain ⟨owner, howner, rfl⟩ := hserves.entries_live entry hmem
      rcases List.mem_cons.mp howner with rfl | howner
      · exact absurd hmem hgone
      · exact ⟨owner, howner, rfl⟩
  · rw [hserves.filter_ne_entry List.mem_cons_self, if_pos hsome]
    rfl

theorem drop (hserves : table.Serves (answer :: rest)) :
    (answer.drop table).Serves rest ∧
      (answer.drop table).entries = table.entries.filter (· != answer.entry) := by
  cases houtcome : answer.hasOutcome table with
  | false =>
      have hentry := (hserves.mem_entries_iff List.mem_cons_self).mpr houtcome
      rw [PendingAnswer.drop, hserves.standing_of_hasOutcome_eq_false List.mem_cons_self houtcome]
      exact hserves.without hentry
  | true =>
      obtain ⟨outcome, -, hready⟩ := hserves.exists_outcome houtcome
      rw [PendingAnswer.drop, hready]
      exact hserves.take houtcome

theorem snd_poll (hserves : table.Serves (answer :: rest))
    (hcame : (answer.poll table).1.isSome = true) : (answer.poll table).2 = answer.drop table := by
  cases houtcome : answer.hasOutcome table with
  | false =>
      rw [PendingAnswer.poll,
        hserves.standing_of_hasOutcome_eq_false List.mem_cons_self houtcome] at hcame
      contradiction
  | true =>
      obtain ⟨outcome, -, hready⟩ := hserves.exists_outcome houtcome
      rw [PendingAnswer.poll, PendingAnswer.drop, hready]

end Serves

theorem serves_empty (lastId : UInt32) : Serves { lastId } [] where
  sound := sound_empty lastId
  tickets_perm := .nil
  entries_live := nofun

end PendingTable

end RoutedSession
