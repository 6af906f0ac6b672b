import Mathlib.Data.List.Induction
import Mathlib.Data.Set.Card
import RoutedSession.RouteTable

namespace RoutedSession

/-- What has been registered since the last call of `clear`, if it was this before the call. -/
def RouteCall.registered (before : List (String × RouteCode)) :
    RouteCall → List (String × RouteCode)
  | register route code => before ++ [(route, code)]
  | extend pairs => before ++ pairs
  | clear => []

/-- A call leaves a pair where it is. -/
def RouteCall.Spares (route : String) (code : RouteCode) : RouteCall → Prop
  | register other otherCode => route ≠ other ∧ code ≠ otherCode
  | extend pairs => ∀ other ∈ pairs, route ≠ other.1 ∧ code ≠ other.2
  | clear => False

namespace RouteTable

/-- A pair has been registered, and nothing later pairs its route or its code with another. -/
def Stands (pairs : List (String × RouteCode)) (pair : String × RouteCode) : Prop :=
  ∃ front back, pairs = front ++ pair :: back ∧ ∀ later ∈ back, later.1 = pair.1 ↔ later.2 = pair.2

theorem stands_of_perm {pairs order : List (String × RouteCode)} (horder : order.Perm pairs)
    {pair : String × RouteCode} (hmem : pair ∈ pairs)
    (hapart : ∀ other ∈ pairs, other.1 = pair.1 ↔ other.2 = pair.2) : Stands order pair := by
  obtain ⟨front, back, rfl⟩ := List.append_of_mem (horder.mem_iff.mpr hmem)
  refine ⟨front, back, rfl, fun later hlater => hapart later (horder.mem_iff.mp ?_)⟩
  exact List.mem_append_right _ (List.mem_cons_of_mem _ hlater)

theorem stands_append_singleton {pairs : List (String × RouteCode)}
    {pair last : String × RouteCode} :
    Stands (pairs ++ [last]) pair ↔
      pair = last ∨ Stands pairs pair ∧ pair.1 ≠ last.1 ∧ pair.2 ≠ last.2 := by
  constructor
  · rintro ⟨front, back, hsplit, hlater⟩
    -- The pair is the last one itself, or one of those before it that the last one spares.
    rcases List.eq_nil_or_concat' back with rfl | ⟨back, newest, rfl⟩
    · exact .inl (List.singleton_inj.mp (List.append_inj_right' hsplit rfl)).symm
    · rw [← List.cons_append, ← List.append_assoc] at hsplit
      obtain ⟨rfl, hnewest⟩ := List.append_inj' hsplit rfl
      obtain rfl := List.singleton_inj.mp hnewest
      by_cases hsame : last.1 = pair.1
      · have hcode := (hlater last (by simp)).mp hsame
        exact .inl (Prod.ext hsame hcode).symm
      · have hcode : last.2 ≠ pair.2 := fun hcode => hsame ((hlater last (by simp)).mpr hcode)
        refine .inr ⟨⟨front, back, rfl, fun later hmem => ?_⟩, Ne.symm hsame, hcode.symm⟩
        exact hlater later (List.mem_append_left _ hmem)
  · rintro (rfl | ⟨⟨front, back, rfl, hlater⟩, hroute, hcode⟩)
    · exact ⟨pairs, [], rfl, by simp⟩
    · refine ⟨front, back ++ [last], by simp, fun later hmem => ?_⟩
      rcases List.mem_append.mp hmem with hmem | hmem
      · exact hlater later hmem
      · obtain rfl := List.mem_singleton.mp hmem
        exact iff_of_false hroute.symm hcode.symm

/-- The pairs of a table to which pairs have been added in turn: those of the new ones that stand,
and those of the old ones that no new one has displaced. -/
theorem mem_entries_extend {table : RouteTable} {pairs : List (String × RouteCode)}
    {pair : String × RouteCode} :
    pair ∈ (table.extend pairs).entries ↔
      Stands pairs pair ∨
        pair ∈ table.entries ∧ ∀ later ∈ pairs, pair.1 ≠ later.1 ∧ pair.2 ≠ later.2 := by
  induction pairs using List.reverseRecOn with
  | nil =>
      have hsame : table.extend [] = table := rfl
      simp [hsame, Stands]
  | append_singleton pairs last ih =>
      have hregister : table.extend (pairs ++ [last]) =
          (table.extend pairs).register last.1 last.2 := extend_append table pairs [last]
      rw [hregister, mem_entries_register, ih, stands_append_singleton, List.forall_mem_append,
        List.forall_mem_singleton]
      tauto

theorem mem_entries_of_spares {table : RouteTable} {calls : List RouteCall} {route : String}
    {code : RouteCode} (hspared : ∀ call ∈ calls, call.Spares route code)
    (hmem : (route, code) ∈ table.entries) :
    (route, code) ∈ (calls.foldl call table).entries := by
  induction calls generalizing table with
  | nil => exact hmem
  | cons call calls ih =>
      obtain ⟨hnow, hlater⟩ := List.forall_mem_cons.mp hspared
      refine ih hlater ?_
      cases call with
      | register other otherCode => exact mem_entries_register.mpr (.inr ⟨hmem, hnow.1, hnow.2⟩)
      | extend pairs => exact mem_entries_extend.mpr (.inr ⟨hmem, hnow⟩)
      | clear => cases hnow

theorem mem_entries_ofList {pairs : List (String × RouteCode)} {pair : String × RouteCode} :
    pair ∈ (ofList pairs).entries ↔ Stands pairs pair := by
  rw [ofList, mem_entries_extend, ← code?_eq_some_iff]
  simp [empty, RouteMaps.code?]

end RouteTable

namespace RouteMaps

def call (maps : RouteMaps) : RouteCall → RouteMaps
  | .register route code => maps.register route code
  | .extend pairs => maps.extend pairs
  | .clear => maps.clear

def after (calls : List RouteCall) : RouteMaps :=
  calls.foldl call {}

/-- What calls have registered since the last one of `clear`, in their order. -/
def registered (calls : List RouteCall) : List (String × RouteCode) :=
  calls.foldl RouteCall.registered []

/-- What calls have made of empty maps. -/
structure PairsLatest (calls : List RouteCall) : Prop where
  /-- These are the maps of the table on which the calls are made. -/
  toRouteMaps_eq : (calls.foldl RouteTable.call .empty).toRouteMaps = after calls
  sides_agree : ∀ route code,
    (after calls).code? route = some code ↔ (after calls).route? code = some route
  size_eq : { pair : String × RouteCode | (after calls).code? pair.1 = some pair.2 }.encard =
    (after calls).size
  isEmpty_iff : (after calls).isEmpty = true ↔ ∀ route code, (after calls).code? route ≠ some code
  /-- The newest registration wins on both sides. -/
  newest_wins : ∀ route code,
    (after calls).code? route = some code ↔ RouteTable.Stands (registered calls) (route, code)

theorem Agree.call {maps : RouteMaps} (hagree : maps.Agree) (call : RouteCall) :
    (maps.call call).Agree := by
  cases call with
  | register route code => exact hagree.register route code
  | extend pairs => exact hagree.extend pairs
  | clear => exact agree_empty

theorem after_append_singleton (calls : List RouteCall) (call : RouteCall) :
    after (calls ++ [call]) = (after calls).call call := by
  rw [after, List.foldl_append]
  rfl

theorem registered_append_singleton (calls : List RouteCall) (call : RouteCall) :
    registered (calls ++ [call]) = call.registered (registered calls) := by
  rw [registered, List.foldl_append]
  rfl

theorem agree_after (calls : List RouteCall) : (after calls).Agree := by
  induction calls using List.reverseRecOn with
  | nil => exact agree_empty
  | append_singleton calls call ih =>
      rw [after_append_singleton]
      exact ih.call call

theorem toRouteMaps_call (table : RouteTable) (call : RouteCall) :
    (table.call call).toRouteMaps = table.toRouteMaps.call call := by
  cases call <;> rfl

theorem toRouteMaps_foldl_call (calls : List RouteCall) :
    (calls.foldl RouteTable.call .empty).toRouteMaps = after calls := by
  induction calls using List.reverseRecOn with
  | nil => rfl
  | append_singleton calls call ih =>
      rw [List.foldl_append, List.foldl_cons, List.foldl_nil, toRouteMaps_call, ih,
        after_append_singleton]

theorem after_eq_extend (calls : List RouteCall) : after calls = extend {} (registered calls) := by
  induction calls using List.reverseRecOn with
  | nil => rfl
  | append_singleton calls call ih =>
      rw [after_append_singleton, ih, registered_append_singleton]
      cases call with
      | register route code => exact (extend_append {} _ [(route, code)]).symm
      | extend pairs => exact (extend_append {} _ pairs).symm
      | clear => rfl

theorem encard_code?_eq_some (maps : RouteMaps) :
    { pair : String × RouteCode | maps.code? pair.1 = some pair.2 }.encard = maps.size := by
  have hpairs : { pair : String × RouteCode | maps.code? pair.1 = some pair.2 } =
      (maps.routes.toList.toFinset : Set (String × RouteCode)) := by
    ext pair
    rw [List.coe_toFinset]
    exact Std.TreeMap.mem_toList_iff_getElem?_eq_some.symm
  have hdistinct : maps.routes.toList.Nodup := by
    refine maps.routes.distinct_keys_toList.imp fun hroute hsame => hroute ?_
    rw [hsame, Std.compare_eq_iff_eq]
  rw [hpairs, Set.encard_coe_eq_coe_finsetCard, List.toFinset_card_of_nodup hdistinct,
    Std.TreeMap.length_toList, size]

theorem isEmpty_iff_code?_ne_some {maps : RouteMaps} :
    maps.isEmpty = true ↔ ∀ route code, maps.code? route ≠ some code := by
  rw [isEmpty, ← Std.TreeMap.isEmpty_toList, List.isEmpty_iff, List.eq_nil_iff_forall_not_mem]
  simp only [ne_eq, Prod.forall, Std.TreeMap.mem_toList_iff_getElem?_eq_some, code?]

/-- Whatever is called on empty maps, they pair routes and codes one to one, as the newest
registrations have it. -/
theorem after_pairsLatest (calls : List RouteCall) : PairsLatest calls where
  toRouteMaps_eq := toRouteMaps_foldl_call calls
  sides_agree := agree_after calls
  size_eq := encard_code?_eq_some (after calls)
  isEmpty_iff := isEmpty_iff_code?_ne_some
  newest_wins route code := by
    rw [after_eq_extend]
    exact RouteTable.code?_eq_some_iff.trans RouteTable.mem_entries_ofList

/-- A route that is moved to the code of another leaves nothing behind. -/
example :
    let maps := after [.register "a" 1, .register "b" 2, .register "a" 2]
    maps.code? "a" = some 2 ∧ maps.code? "b" = none ∧ maps.route? 1 = none := by
  decide

end RouteMaps

end RoutedSession
