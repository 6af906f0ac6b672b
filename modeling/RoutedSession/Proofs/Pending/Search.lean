import RoutedSession.Proofs.Pending.Recycling
import RoutedSession.Proofs.Pending.Registrations

namespace RoutedSession.PendingTable

/-- An id that can be given out. -/
def IsFree (table : PendingTable) (id : UInt32) : Prop :=
  id ≠ 0 ∧ table.isPending id = false

instance (table : PendingTable) : DecidablePred table.IsFree := fun _ => instDecidableAnd

/-- What a registration comes to for which the search passes over so many ids. -/
structure RegistersBehind (table : PendingTable) (passed : Nat) : Prop where
  /-- Each of the ids behind the last one is passed over because it is zero or in use. -/
  passes_over : ∀ step, 0 < step → step ≤ passed →
    ahead table.lastId step = 0 ∨ table.isPending (ahead table.lastId step) = true
  free : table.IsFree (ahead table.lastId (passed + 1))
  /-- The search ends at the first id that is free, however many more it would look at. -/
  search_ends : ∀ attempts, nextFree? table.isPending attempts table.lastId =
    if passed < attempts then some (ahead table.lastId (passed + 1)) else none
  /-- It comes at most once to zero and to every id that is in use. -/
  passed_le : passed ≤ table.size + 1
  register_eq : table.register =
    some ((ahead table.lastId (passed + 1), table.issued),
      { table with
        entries := (ahead table.lastId (passed + 1), table.issued) :: table.entries
        lastId := ahead table.lastId (passed + 1)
        issued := table.issued + 1 })
  /-- The registration that holds an id is still the same, apart from the new one. -/
  others_kept : ∀ {after registered}, table.register = some (registered, after) → ∀ id,
    after.ticket? id = if id = registered.1 then some registered.2 else table.ticket? id

/-- A table that operations have led to from a new one, and the registrations that they have
granted. -/
inductive Reachable : List PendingAnswer → PendingTable → Prop where
  | new (lastId : UInt32) : Reachable [] { lastId }
  | call {granted : List PendingAnswer} {table : PendingTable} (hbefore : Reachable granted table)
      (call : Call) :
      Reachable ((table.call call).1.granted?.toList ++ granted) (table.call call).2
  | poll {granted : List PendingAnswer} {table : PendingTable} (hbefore : Reachable granted table)
      (answer : PendingAnswer) : Reachable granted (answer.poll table).2
  | drop {granted : List PendingAnswer} {table : PendingTable} (hbefore : Reachable granted table)
      (answer : PendingAnswer) : Reachable granted (answer.drop table)

/-- What the ids that are in use have in common. -/
structure KeepsApart (granted : List PendingAnswer) (table : PendingTable) : Prop where
  zero_unused : table.isPending 0 = false
  ids_distinct : table.entries.Pairwise (·.1 ≠ ·.1)
  /-- Two registrations that wait do not share an id. -/
  waiting_apart : ∀ one ∈ granted, ∀ other ∈ granted, table.standing one.ticket = .waiting →
    table.standing other.ticket = .waiting → one.id = other.id → one = other

/-- How ids are given out. -/
structure GivesOutIds : Prop where
  /-- An open table in which an id is free registers under the next one that is. -/
  registers : ∀ table : PendingTable, table.closed = false → table.size < 2 ^ 32 - 1 →
    ∃ passed, table.RegistersBehind passed
  keeps_apart : ∀ granted table, Reachable granted table → KeepsApart granted table

theorem ahead_ne_ahead {id : UInt32} {near far : Nat} (hnear : near < far)
    (hround : far < near + 2 ^ 32) : ahead id near ≠ ahead id far := by
  obtain ⟨between, rfl⟩ := Nat.exists_eq_add_of_le (Nat.le_of_lt hnear)
  intro hsame
  rw [ahead_add] at hsame
  have hcycle := cycle_le_of_ahead_eq (by omega) hsame.symm
  omega

theorem exists_isFree {table : PendingTable} (hroom : table.size < 2 ^ 32 - 1) :
    ∃ step ≤ table.size + 1, table.IsFree (ahead table.lastId (step + 1)) := by
  by_contra hnone
  simp only [IsFree, not_exists, not_and, Bool.not_eq_false] at hnone
  -- Otherwise so many different ids are all among zero and those in use, which are fewer.
  let next := (List.range (table.size + 2)).map fun step => ahead table.lastId (step + 1)
  have hdistinct : next.Nodup := by
    refine List.Nodup.map_on ?_ List.nodup_range
    intro near hnear far hfar hsame
    rw [List.mem_range] at hnear hfar
    rcases Nat.lt_trichotomy near far with hlt | rfl | hlt
    · exact absurd hsame (ahead_ne_ahead (by omega) (by omega))
    · rfl
    · exact absurd hsame.symm (ahead_ne_ahead (by omega) (by omega))
  have hunfree : next ⊆ 0 :: table.entries.map (·.1) := by
    intro id hmem
    obtain ⟨step, hstep, rfl⟩ := List.mem_map.mp hmem
    rw [List.mem_range] at hstep
    by_cases hzero : ahead table.lastId (step + 1) = 0
    · rw [hzero]
      exact List.mem_cons_self
    · have hpending := hnone step (by omega) hzero
      obtain ⟨entry, hentry, hid⟩ := List.any_eq_true.mp hpending
      rw [← beq_iff_eq.mp hid]
      exact List.mem_cons_of_mem _ (List.mem_map_of_mem hentry)
  have hlength := (hdistinct.subperm hunfree).length_le
  simp only [next, List.length_map, List.length_range, List.length_cons, size] at hlength
  omega

theorem nextFree?_eq {inUse : UInt32 → Bool} {id : UInt32} {passed : Nat}
    (hpassed : ∀ step, 0 < step → step ≤ passed →
      ahead id step = 0 ∨ inUse (ahead id step) = true)
    (hpositive : ahead id (passed + 1) ≠ 0) (hunused : inUse (ahead id (passed + 1)) = false)
    (attempts : Nat) :
    nextFree? inUse attempts id =
      if passed < attempts then some (ahead id (passed + 1)) else none := by
  -- On the attempts that are left; the next one begins at the id behind, with one less to pass.
  induction attempts generalizing id passed with
  | zero => rfl
  | succ attempts ih =>
      have hfirst : ahead id 1 = id + 1 := rfl
      cases passed with
      | zero =>
          rw [Nat.zero_add, hfirst] at hpositive hunused ⊢
          simp [nextFree?, hpositive, hunused]
      | succ passed =>
          have hskipped : (id + 1 ≠ 0 && !inUse (id + 1)) = false := by
            rcases hpassed 1 Nat.one_pos (Nat.le_add_left 1 passed) with hzero | hpending
            · rw [← hfirst, hzero]
              rfl
            · rw [← hfirst, hpending, Bool.not_true, Bool.and_false]
          rw [ahead_succ] at hpositive hunused ⊢
          have hlater : ∀ step, 0 < step → step ≤ passed →
              ahead (id + 1) step = 0 ∨ inUse (ahead (id + 1) step) = true := by
            intro step _ hstep
            rw [← ahead_succ]
            exact hpassed (step + 1) (Nat.succ_pos step) (Nat.succ_le_succ hstep)
          simp only [nextFree?, hskipped, Bool.false_eq_true, if_false,
            ih hlater hpositive hunused, Nat.succ_lt_succ_iff]

theorem exists_registersBehind {table : PendingTable} (hopen : table.closed = false)
    (hroom : table.size < 2 ^ 32 - 1) : ∃ passed, table.RegistersBehind passed := by
  obtain ⟨step, hstep, hfree⟩ := exists_isFree hroom
  have hsome : ∃ step, table.IsFree (ahead table.lastId (step + 1)) := ⟨step, hfree⟩
  have hfirst := Nat.find_spec hsome
  have hleast : Nat.find hsome ≤ table.size + 1 := (Nat.find_min' hsome hfree).trans hstep
  have hpassed : ∀ step, 0 < step → step ≤ Nat.find hsome →
      ahead table.lastId step = 0 ∨ table.isPending (ahead table.lastId step) = true := by
    intro step hpositive hbefore
    obtain ⟨step, rfl⟩ := Nat.exists_eq_succ_of_ne_zero hpositive.ne'
    have hskipped := Nat.find_min hsome hbefore
    rwa [IsFree, not_and_or, not_not, Bool.not_eq_false] at hskipped
  generalize Nat.find hsome = passed at hfirst hleast hpassed
  have hsearch := nextFree?_eq hpassed hfirst.1 hfirst.2
  refine ⟨passed, hpassed, hfirst, hsearch, hleast, ?_, ticket?_register⟩
  have hfound : passed < table.entries.length + 2 := Nat.lt_succ_of_le hleast
  rw [register, hopen, nextId?, hsearch, if_pos hfound]
  rfl

theorem lasts_sound : Lasts Sound where
  register hsound hregister := hsound.register hregister
  take ticket hsound := hsound.take ticket
  without id hsound := hsound.without id
  close hsound := hsound.close

theorem HoldsOwn.mono {came more : List Message} {registered : PendingAnswer}
    {table : PendingTable} (hown : table.HoldsOwn came registered) (hmore : came ⊆ more) :
    table.HoldsOwn more registered where
  issued := hown.issued
  entry := hown.entry
  outcome message hmem := (hown.outcome message hmem).imp_left fun hcame => hmore hcame

theorem HoldsOwn.call {came : List Message} {registered : PendingAnswer} {table : PendingTable}
    (hown : table.HoldsOwn came registered) (call : Call) :
    ∃ more, (table.call call).2.HoldsOwn more registered := by
  have hlasts := lasts_holdsOwn came registered
  cases call with
  | register =>
      refine ⟨came, ?_⟩
      rcases call_register_cases table with ⟨id, next, hregister, hcall⟩ | ⟨-, hcall⟩
      · rw [hcall]
        exact hlasts.register hown hregister
      · rwa [hcall]
  | resolve answer =>
      exact ⟨answer :: came, (hown.mono (List.subset_cons_self _ _)).resolve List.mem_cons_self⟩
  | cancel id => exact ⟨came, hlasts.without id hown⟩
  | close => exact ⟨came, hlasts.close hown⟩

/-- Wherever operations lead, every registration has had an id of its own. -/
theorem Reachable.holdsOwn {granted : List PendingAnswer} {table : PendingTable}
    (hreachable : Reachable granted table) :
    table.Sound ∧ ∀ registered ∈ granted, ∃ came, table.HoldsOwn came registered := by
  induction hreachable with
  | new lastId => exact ⟨sound_empty lastId, by simp⟩
  | @call granted table _ call ih =>
      obtain ⟨hsound, hown⟩ := ih
      refine ⟨hsound.call call, fun registered hmem => ?_⟩
      rcases List.mem_append.mp hmem with hnew | hmem
      · obtain ⟨-, -, hregister⟩ := eq_of_granted (Option.mem_toList.mp hnew)
        exact ⟨[], hsound.holdsOwn_register hregister []⟩
      · obtain ⟨came, hown⟩ := hown registered hmem
        exact hown.call call
  | poll _ answer ih =>
      obtain ⟨hsound, hown⟩ := ih
      refine ⟨lasts_sound.poll hsound answer, fun registered hmem => ?_⟩
      obtain ⟨came, hown⟩ := hown registered hmem
      exact ⟨came, (lasts_holdsOwn came registered).poll hown answer⟩
  | drop _ answer ih =>
      obtain ⟨hsound, hown⟩ := ih
      refine ⟨lasts_sound.drop hsound answer, fun registered hmem => ?_⟩
      obtain ⟨came, hown⟩ := hown registered hmem
      exact ⟨came, (lasts_holdsOwn came registered).drop hown answer⟩

theorem HoldsOwn.mem_entries {came : List Message} {registered : PendingAnswer}
    {table : PendingTable} (hown : table.HoldsOwn came registered)
    (hwaiting : table.standing registered.ticket = .waiting) :
    registered.entry ∈ table.entries := by
  unfold standing at hwaiting
  split at hwaiting
  · cases hwaiting
  · split at hwaiting
    · rename_i hany
      obtain ⟨⟨id, ticket⟩, hmem, hticket⟩ := List.any_eq_true.mp hany
      obtain rfl : ticket = registered.ticket := beq_iff_eq.mp hticket
      rwa [PendingAnswer.entry, ← hown.entry id hmem]
    · cases hwaiting

theorem keepsApart_of_reachable {granted : List PendingAnswer} {table : PendingTable}
    (hreachable : Reachable granted table) : KeepsApart granted table := by
  obtain ⟨hsound, hown⟩ := hreachable.holdsOwn
  constructor
  case zero_unused =>
    rw [isPending, List.any_eq_false]
    intro entry hmem
    rw [beq_iff_eq]
    exact hsound.ids_positive entry hmem
  case ids_distinct => exact hsound.ids_distinct
  case waiting_apart =>
    intro one hone other hother hwaitingOne hwaitingOther hid
    obtain ⟨_, hownOne⟩ := hown one hone
    obtain ⟨_, hownOther⟩ := hown other hother
    have hentryOne := hsound.ticket?_eq_some_iff.mpr (hownOne.mem_entries hwaitingOne)
    have hentryOther := hsound.ticket?_eq_some_iff.mpr (hownOther.mem_entries hwaitingOther)
    rw [hid, hentryOther] at hentryOne
    have hticket : other.ticket = one.ticket := Option.some.inj hentryOne
    cases one
    cases other
    simp_all

/-- A registration takes the first id that is free behind the last one, and no two that wait have
one id. -/
theorem register_givesOutIds : GivesOutIds where
  registers _ hopen hroom := exists_registersBehind hopen hroom
  keeps_apart _ _ hreachable := keepsApart_of_reachable hreachable

/-- Behind the last id the search passes over zero and over those that are in use. -/
example :
    ({ entries := [(1, 0), (2, 1)], lastId := 0xFFFFFFFF, issued := 2 } : PendingTable).register.map
      (·.1) = some (3, 2) := by
  decide

end RoutedSession.PendingTable
