import RoutedSession.Proofs.Pending.Delivery

/-!
Ids are given out in a cycle. Main statement: before an id is given out again, every other id has
been given out too, or was passed over because it was in use. Until then an answer to a request that
was cancelled finds nobody.
-/

namespace RoutedSession.PendingTable

/-- The id that lies so far behind another one in the cycle. -/
def ahead (id : UInt32) (distance : Nat) : UInt32 :=
  id + UInt32.ofNat distance

theorem ahead_add (id : UInt32) (front back : Nat) :
    ahead id (front + back) = ahead (ahead id front) back := by
  simp only [ahead, UInt32.ofNat_add, add_assoc]

theorem ahead_succ (id : UInt32) (distance : Nat) :
    ahead id (distance + 1) = ahead (id + 1) distance := by
  rw [Nat.add_comm, ahead_add]
  rfl

theorem exists_ahead_eq (id other : UInt32) : ∃ distance < 2 ^ 32, ahead id distance = other := by
  refine ⟨(other - id).toNat, (other - id).toNat_lt, ?_⟩
  rw [ahead, UInt32.ofNat_toNat, add_sub_cancel]

theorem cycle_le_of_ahead_eq {id : UInt32} {distance : Nat} (hpositive : 0 < distance)
    (hback : ahead id distance = id) : 2 ^ 32 ≤ distance := by
  have hzero : UInt32.ofNat distance = UInt32.ofNat 0 := add_eq_left.mp hback
  have hdivides : distance % 2 ^ 32 = 0 := by
    simpa using congrArg UInt32.toNat hzero
  exact Nat.le_of_dvd hpositive (Nat.dvd_of_mod_eq_zero hdivides)

theorem exists_ahead_of_nextFree? {inUse : UInt32 → Bool} {attempts : Nat} {id next : UInt32}
    (hfound : nextFree? inUse attempts id = some next) :
    ∃ passed, next = ahead id (passed + 1) ∧
      ∀ step, 0 < step → step ≤ passed → ahead id step = 0 ∨ inUse (ahead id step) = true := by
  -- On the attempts that are left; the next one begins at the id behind.
  induction attempts generalizing id with
  | zero => simp [nextFree?] at hfound
  | succ attempts ih =>
      simp only [nextFree?] at hfound
      split at hfound
      · refine ⟨0, ?_, ?_⟩
        · exact (Option.some.inj hfound).symm
        · intro step hpositive hnone
          omega
      · rename_i hpassed
        obtain ⟨passed, hnext, hbetween⟩ := ih hfound
        refine ⟨passed + 1, ?_, ?_⟩
        · rw [hnext, ahead_succ id]
        · intro step hpositive hstep
          obtain ⟨earlier, rfl⟩ := Nat.exists_eq_add_of_lt hpositive
          rw [Nat.zero_add, ahead_succ]
          rcases Nat.eq_zero_or_pos earlier with rfl | hlater
          · -- The first id that the search came to was not free.
            have hfirst : ahead (id + 1) 0 = id + 1 := add_zero (id + 1)
            rw [hfirst]
            simp only [ne_eq, Bool.and_eq_true, decide_eq_true_eq, Bool.not_eq_true'] at hpassed
            by_cases hzero : id + 1 = 0
            · exact .inl hzero
            · exact .inr (Bool.of_not_eq_false fun hfree => hpassed ⟨hzero, hfree⟩)
          · exact hbetween earlier hlater (by omega)

theorem after_append (table : PendingTable) (front back : List Call) :
    table.after (front ++ back) = (table.after front).after back :=
  List.foldl_append

theorem granted_append (table : PendingTable) (front back : List Call) :
    table.granted (front ++ back) = table.granted front ++ (table.after front).granted back := by
  induction front generalizing table with
  | nil => rfl
  | cons call front ih =>
      rw [List.cons_append, granted_cons, granted_cons, ih, List.append_assoc]
      rfl

/-- An id has had its turn in some calls: one of them has given it out, or it was in use when one of
them was to give an id out. -/
def HadTurn (table : PendingTable) (calls : List Call) (id : UInt32) : Prop :=
  (∃ registered ∈ table.granted calls, registered.id = id) ∨
    ∃ front back, calls = front ++ .register :: back ∧ (table.after front).isPending id = true

theorem HadTurn.append {table : PendingTable} {calls : List Call} {id : UInt32}
    (hturn : table.HadTurn calls id) (more : List Call) : table.HadTurn (calls ++ more) id := by
  rcases hturn with ⟨registered, hgranted, hid⟩ | ⟨front, back, rfl, hpending⟩
  · refine .inl ⟨registered, ?_, hid⟩
    rw [granted_append]
    exact List.mem_append_left _ hgranted
  · refine .inr ⟨front, back ++ more, ?_, hpending⟩
    rw [List.append_assoc, List.cons_append]

theorem lastId_call_of_ne_register (table : PendingTable) {call : Call}
    (hother : call ≠ .register) : (table.call call).2.lastId = table.lastId := by
  cases call with
  | register => exact absurd rfl hother
  | resolve answer =>
      simp only [PendingTable.call, PendingTable.resolve]
      split <;> rfl
  | cancel id => rfl
  | close => rfl

theorem call_of_granted {table : PendingTable} {call : Call} {registered : PendingAnswer}
    (hgranted : (table.call call).1.granted? = some registered) :
    call = .register ∧
      table.call .register = (.granted registered, (table.call .register).2) := by
  obtain ⟨rfl, -, -⟩ := eq_of_granted hgranted
  refine ⟨rfl, ?_⟩
  generalize table.call .register = result at hgranted
  obtain ⟨reply, next⟩ := result
  cases reply with
  | granted answer =>
      obtain rfl := Option.some.inj hgranted
      rfl
  | _ => cases hgranted

/-- A registration goes on from the last id, to the first behind it that is free. -/
theorem exists_ahead_of_granted {table : PendingTable} {registered : PendingAnswer}
    {next : PendingTable} (hgranted : table.call .register = (.granted registered, next)) :
    next.lastId = registered.id ∧ ∃ passed, registered.id = ahead table.lastId (passed + 1) ∧
      ∀ step, 0 < step → step ≤ passed →
        ahead table.lastId step = 0 ∨ table.isPending (ahead table.lastId step) = true := by
  obtain ⟨-, -, hregister⟩ := eq_of_granted (by rw [hgranted]; rfl)
  rw [hgranted] at hregister
  obtain ⟨hopen, -, -, -, rfl⟩ := register_eq_some hregister
  refine ⟨rfl, ?_⟩
  simp only [register, hopen, Bool.false_eq_true, if_false] at hregister
  obtain ⟨id, hnext, heq⟩ := Option.map_eq_some_iff.mp hregister
  obtain rfl : id = registered.id := congrArg (fun found => found.1.1) heq
  exact exists_ahead_of_nextFree? hnext

/-- The ids that have been passed since some calls began: they lie one behind the other, and each
has had its turn, apart from zero. -/
structure Passed (table : PendingTable) (calls : List Call) (distance : Nat) : Prop where
  lastId : (table.after calls).lastId = ahead table.lastId distance
  hadTurn : ∀ step, 0 < step → step ≤ distance →
    ahead table.lastId step = 0 ∨ table.HadTurn calls (ahead table.lastId step)

theorem Passed.call {table : PendingTable} {calls : List Call} {distance : Nat}
    (hpassed : table.Passed calls distance) (call : Call) :
    ∃ more, table.Passed (calls ++ [call]) (distance + more) ∧
      (((table.after calls).call call).1.granted? ≠ none → 0 < more) := by
  have hafter : table.after (calls ++ [call]) = ((table.after calls).call call).2 :=
    after_append table calls [call]
  have hearlier (step : Nat) (hpositive : 0 < step) (hstep : step ≤ distance) :
      ahead table.lastId step = 0 ∨ table.HadTurn (calls ++ [call]) (ahead table.lastId step) :=
    (hpassed.hadTurn step hpositive hstep).imp_right fun hturn => hturn.append [call]
  cases hgranted : ((table.after calls).call call).1.granted? with
  | none =>
      refine ⟨0, ⟨?_, hearlier⟩, absurd rfl⟩
      rw [hafter, Nat.add_zero, ← hpassed.lastId]
      by_cases hregister : call = .register
      · subst hregister
        rcases call_register_cases (table.after calls) with ⟨id, next, -, hcall⟩ | ⟨-, hcall⟩
        · rw [hcall] at hgranted
          cases hgranted
        · rw [hcall]
      · exact lastId_call_of_ne_register _ hregister
  | some registered =>
      obtain ⟨rfl, hcall⟩ := call_of_granted hgranted
      obtain ⟨hlast, passed, hid, hbetween⟩ := exists_ahead_of_granted hcall
      rw [hpassed.lastId] at hid hbetween
      refine ⟨passed + 1, ⟨?_, ?_⟩, fun _ => Nat.succ_pos passed⟩
      · rw [hafter, hlast, hid, ← ahead_add]
      · intro step hpositive hstep
        rcases Nat.lt_or_ge distance step with hlt | hle
        · obtain ⟨later, rfl⟩ := Nat.exists_eq_add_of_lt hlt
          rw [Nat.add_assoc, ahead_add]
          rcases Nat.lt_or_ge later passed with hbefore | hend
          · refine (hbetween (later + 1) (Nat.succ_pos later) hbefore).imp_right fun hpending => ?_
            exact .inr ⟨calls, [], rfl, hpending⟩
          · obtain rfl : later = passed := by omega
            refine .inr (.inl ⟨registered, ?_, hid⟩)
            rw [granted_append, granted_cons, hgranted]
            simp
        · exact hearlier step hpositive hle

theorem exists_passed (table : PendingTable) (calls : List Call) :
    ∃ distance, table.Passed calls distance := by
  -- On the calls, the last of which goes on from where those before it have come.
  induction calls using List.reverseRecOn with
  | nil =>
      refine ⟨0, ?_, ?_⟩
      · exact (add_zero table.lastId).symm
      · intro step hpositive hnone
        omega
  | append_singleton calls call ih =>
      obtain ⟨distance, hpassed⟩ := ih
      obtain ⟨more, hnext, -⟩ := hpassed.call call
      exact ⟨distance + more, hnext⟩

theorem hadTurn_of_granted_again {table : PendingTable} {calls : List Call}
    {again : PendingAnswer} {last : PendingTable}
    (hagain : (table.after calls).call .register = (.granted again, last))
    (hsame : again.id = table.lastId) {id : UInt32} (hpositive : id ≠ 0)
    (hother : id ≠ table.lastId) : table.HadTurn (calls ++ [.register]) id := by
  obtain ⟨distance, hpassed⟩ := table.exists_passed calls
  obtain ⟨more, hnext, hsome⟩ := hpassed.call .register
  have hmore : 0 < more := hsome (by rw [hagain]; exact Option.some_ne_none _)
  have hback : ahead table.lastId (distance + more) = table.lastId := by
    rw [← hnext.lastId, after_append]
    change ((table.after calls).call .register).2.lastId = table.lastId
    rw [hagain, (exists_ahead_of_granted hagain).1, hsame]
  have hround : 2 ^ 32 ≤ distance + more :=
    cycle_le_of_ahead_eq (Nat.add_pos_right distance hmore) hback
  obtain ⟨step, hshort, rfl⟩ := exists_ahead_eq table.lastId id
  have hstep : 0 < step := by
    apply Nat.pos_of_ne_zero
    rintro rfl
    exact hother (add_zero table.lastId)
  exact (hnext.hadTurn step hstep (by omega)).resolve_left hpositive

/-- What holds of the ids that are given out on a table, whatever calls have been made on it. -/
structure RecyclesLate (first : PendingTable) : Prop where
  /-- Before an id is given out again, every other one is given out too, or it is in use at one of
  the later registrations, the last one included. -/
  between : ∀ {calls middle : List Call} {registered again : PendingAnswer}
      {next last : PendingTable},
    (first.after calls).call .register = (.granted registered, next) →
      (next.after middle).call .register = (.granted again, last) → again.id = registered.id →
        ∀ id, id ≠ 0 → id ≠ registered.id →
          (∃ other ∈ next.granted middle, other.id = id) ∨
            ∃ front back, middle ++ [.register] = front ++ .register :: back ∧
              (next.after front).isPending id = true
  /-- As long as there is an id that has not had its turn since a registration, an answer to that
  registration finds nobody once it has been cancelled. -/
  late : ∀ {calls middle more : List Call} {registered : PendingAnswer} {next : PendingTable},
    (first.after calls).call .register = (.granted registered, next) →
      (∃ id, id ≠ 0 ∧ id ≠ registered.id ∧
        ¬ next.HadTurn (middle ++ .cancel registered.id :: more) id) →
        ∀ answer : Message, answer.id = registered.id →
          ((next.after (middle ++ .cancel registered.id :: more)).resolve answer).1 = false

theorem exists_granted_of_isPending {table : PendingTable} {calls : List Call} {id : UInt32}
    (hunused : table.ticket? id = none) (hpending : (table.after calls).ticket? id ≠ none) :
    ∃ front back registered next, calls = front ++ .register :: back ∧
      (table.after front).call .register = (.granted registered, next) ∧ registered.id = id := by
  induction calls generalizing table with
  | nil => exact absurd hunused hpending
  | cons call rest ih =>
      by_cases hnow : ∃ registered, (table.call call).1.granted? = some registered ∧
          registered.id = id
      · obtain ⟨registered, hgranted, hid⟩ := hnow
        obtain ⟨rfl, hcall⟩ := call_of_granted hgranted
        exact ⟨[], rest, registered, _, rfl, hcall, hid⟩
      · have hlater := ticket?_call_eq_none hunused fun registered hgranted hid =>
          hnow ⟨registered, hgranted, hid⟩
        obtain ⟨front, back, registered, next, rfl, hgranted, hid⟩ := ih hlater hpending
        exact ⟨call :: front, back, registered, next, rfl, hgranted, hid⟩

/-- Ids are given out again as late as possible. -/
theorem after_recyclesLate (first : PendingTable) : RecyclesLate first := by
  constructor
  case between =>
    intro calls middle registered again next last hregistered hagain hsame id hpositive hother
    have hlast := (exists_ahead_of_granted hregistered).1
    rw [← hlast] at hsame hother
    have hturn := hadTurn_of_granted_again hagain hsame hpositive hother
    rcases hturn with ⟨other, hgranted, hid⟩ | hpending
    · refine .inl ⟨other, ?_, hid⟩
      rw [granted_append, granted_cons, hagain, List.mem_append] at hgranted
      rcases hgranted with hgranted | hgranted
      · exact hgranted
      · -- The last registration gives out the id itself, which is not the other one.
        obtain rfl : other = again := by simpa [granted, replies, Reply.granted?] using hgranted
        exact absurd (hid.symm.trans hsame) hother
    · exact .inr hpending
  case late =>
    rintro calls middle more registered next hregistered ⟨id, hpositive, hother, hnot⟩ answer hid
    have hlast := (exists_ahead_of_granted hregistered).1
    rw [fst_resolve, Option.isSome_eq_false_iff, Option.isNone_iff_eq_none]
    by_contra hpending
    have hcancelled :
        (next.after (middle ++ [.cancel registered.id])).ticket? registered.id = none := by
      rw [after_append]
      change ((next.after middle).cancel registered.id).2.ticket? registered.id = none
      rw [cancel, ticket?_without, if_pos rfl]
    rw [List.append_cons, after_append, hid] at hpending
    obtain ⟨front, back, again, last, rfl, hagain, hsame⟩ :=
      exists_granted_of_isPending hcancelled hpending
    rw [← after_append] at hagain
    rw [← hlast] at hsame hother
    have hturn := hadTurn_of_granted_again hagain hsame hpositive hother
    apply hnot
    have hall := hturn.append back
    simpa using hall

/-- Behind the last id comes the first one, and one that has been given up is not given out again
before the next. -/
example :
    (granted { lastId := 0xFFFFFFFF } [.register, .cancel 1, .register]).map (·.id) = [1, 2] := by
  decide

end RoutedSession.PendingTable
