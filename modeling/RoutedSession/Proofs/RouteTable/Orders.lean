import Mathlib.Data.List.Perm.Basic
import RoutedSession.Proofs.RouteTable.History
import RoutedSession.Session.Connection

namespace RoutedSession.RouteTable

/-- A table has the two as a pair, whichever side is asked. -/
def Pairs (table : RouteTable) (route : String) (code : RouteCode) : Prop :=
  table.code? route = some code ∧ table.route? code = some route

/-- Two tables tell the same of every route and of every code. -/
def Alike (one other : RouteTable) : Prop :=
  (∀ route, one.code? route = other.code? route) ∧ ∀ code, one.route? code = other.route? code

/-- No two routes of a map share a code. -/
def CodesApart (map : List (String × RouteCode)) : Prop :=
  ∀ one ∈ map, ∀ other ∈ map, one.2 = other.2 → one.1 = other.1

/-- What registering the pairs of a map comes to, in whichever order it is done. -/
structure ExtendsByMap (table : RouteTable) (map : List (String × RouteCode)) : Prop where
  /-- All orders lead to the same exactly if no two routes share a code. -/
  alike_iff : (∀ one other : List (String × RouteCode), one.Perm map → other.Perm map →
    (table.extend one).Alike (table.extend other)) ↔ CodesApart map
  /-- If none do, every pair of the map is in the table afterwards. -/
  registered : CodesApart map → ∀ order : List (String × RouteCode), order.Perm map →
    ∀ route code, (route, code) ∈ map → (table.extend order).Pairs route code
  /-- Of the pairs that were there before, those stay that share neither side with the map, and
  those that are in it. -/
  survives_iff : CodesApart map → ∀ order : List (String × RouteCode), order.Perm map →
    ∀ route code, table.Pairs route code →
      ((table.extend order).Pairs route code ↔
        (∀ pair ∈ map, pair.1 ≠ route) ∧ (∀ pair ∈ map, pair.2 ≠ code) ∨ (route, code) ∈ map)
  /-- A session begins with the same table, in whichever order the server's codes come. -/
  established : CodesApart map → ∀ (first second : Settings) (one other : Accepted),
    first.routes = table → second.routes = table → one.response.server.routes.Perm map →
      other.response.server.routes.Perm map →
        (Connection.establish first one).session.routes.Alike
          (Connection.establish second other).session.routes

section

variable {table one other : RouteTable} {map order : List (String × RouteCode)}

theorem pairs_iff {route : String} {code : RouteCode} :
    table.Pairs route code ↔ (route, code) ∈ table.entries := by
  rw [Pairs, code?_eq_some_iff, route?_eq_some_iff, and_self]

theorem alike_of_mem_iff (hsame : ∀ pair, pair ∈ one.entries ↔ pair ∈ other.entries) :
    one.Alike other := by
  constructor
  · intro route
    refine Option.ext fun code => ?_
    rw [code?_eq_some_iff, code?_eq_some_iff, hsame]
  · intro code
    refine Option.ext fun route => ?_
    rw [route?_eq_some_iff, route?_eq_some_iff, hsame]

theorem stands_iff_mem (hroutes : map.Pairwise (·.1 ≠ ·.1)) (hcodes : CodesApart map)
    {pair : String × RouteCode} : Stands map pair ↔ pair ∈ map := by
  constructor
  · rintro ⟨front, back, rfl, -⟩
    exact List.mem_append_right _ List.mem_cons_self
  · intro hmem
    obtain ⟨front, back, rfl⟩ := List.append_of_mem hmem
    refine ⟨front, back, rfl, fun later hlater => ?_⟩
    rw [List.pairwise_append, List.pairwise_cons] at hroutes
    have hroute : later.1 ≠ pair.1 := (hroutes.2.1.1 later hlater).symm
    have hcode : later.2 ≠ pair.2 := by
      intro hsame
      refine hroute (hcodes later ?_ pair hmem hsame)
      exact List.mem_append_right _ (List.mem_cons_of_mem _ hlater)
    exact iff_of_false hroute hcode

theorem mem_entries_extend_map (hroutes : map.Pairwise (·.1 ≠ ·.1)) (hcodes : CodesApart map)
    (horder : order.Perm map) {pair : String × RouteCode} :
    pair ∈ (table.extend order).entries ↔
      pair ∈ map ∨ pair ∈ table.entries ∧ ∀ later ∈ map, pair.1 ≠ later.1 ∧ pair.2 ≠ later.2 := by
  have hroutes' : order.Pairwise (·.1 ≠ ·.1) :=
    (horder.pairwise_iff fun hne => hne.symm).mpr hroutes
  have hcodes' : CodesApart order := fun one hone other hother =>
    hcodes one (horder.mem_iff.mp hone) other (horder.mem_iff.mp hother)
  simp only [mem_entries_extend, stands_iff_mem hroutes' hcodes', horder.mem_iff]

theorem exists_order_of_mem (table : RouteTable) {pair : String × RouteCode} (hmem : pair ∈ map) :
    ∃ order, order.Perm map ∧ (table.extend order).route? pair.2 = some pair.1 := by
  obtain ⟨front, back, rfl⟩ := List.append_of_mem hmem
  refine ⟨front ++ back ++ [pair], ?_, ?_⟩
  · rw [List.append_assoc]
    exact (List.perm_append_singleton pair back).append_left front
  · have hlast : table.extend (front ++ back ++ [pair]) =
        (table.extend (front ++ back)).register pair.1 pair.2 :=
      extend_append table (front ++ back) [pair]
    rw [hlast, route?_eq_some_iff, mem_entries_register]
    exact .inl rfl

theorem codesApart_of_alike (halike : ∀ one other : List (String × RouteCode), one.Perm map →
    other.Perm map → (table.extend one).Alike (table.extend other)) : CodesApart map := by
  intro one hone other hother hcode
  obtain ⟨first, hfirst, hlastOne⟩ := exists_order_of_mem table hone
  obtain ⟨second, hsecond, hlastOther⟩ := exists_order_of_mem table hother
  rw [(halike first second hfirst hsecond).2, hcode, hlastOther] at hlastOne
  exact (Option.some.inj hlastOne).symm

end

/-- The order in which the pairs of a map are registered makes a difference exactly when two of its
routes share a code. -/
theorem extend_extendsByMap (table : RouteTable) (map : List (String × RouteCode))
    (hroutes : map.Pairwise (·.1 ≠ ·.1)) : ExtendsByMap table map := by
  have halike (hcodes : CodesApart map) (one other : List (String × RouteCode))
      (hone : one.Perm map) (hother : other.Perm map) :
      (table.extend one).Alike (table.extend other) := by
    refine alike_of_mem_iff fun pair => ?_
    rw [mem_entries_extend_map hroutes hcodes hone, mem_entries_extend_map hroutes hcodes hother]
  constructor
  case alike_iff => exact ⟨codesApart_of_alike, halike⟩
  case registered =>
    intro hcodes order horder route code hmem
    rw [pairs_iff, mem_entries_extend_map hroutes hcodes horder]
    exact .inl hmem
  case survives_iff =>
    intro hcodes order horder route code hbefore
    rw [pairs_iff] at hbefore ⊢
    rw [mem_entries_extend_map hroutes hcodes horder, or_comm, and_iff_right hbefore]
    refine or_congr_left ⟨fun hspared => ⟨?_, ?_⟩, fun hspared pair hmem => ⟨?_, ?_⟩⟩
    · exact fun pair hmem => (hspared pair hmem).1.symm
    · exact fun pair hmem => (hspared pair hmem).2.symm
    · exact (hspared.1 pair hmem).symm
    · exact (hspared.2 pair hmem).symm
  case established =>
    rintro hcodes first second one other rfl hsame hone hother
    have hfirst := (first.mapOrder.perm one.response.server.routes).trans hone
    have hsecond := (second.mapOrder.perm other.response.server.routes).trans hother
    change (first.routes.extend _).Alike (second.routes.extend _)
    rw [hsame]
    exact halike hcodes _ _ hfirst hsecond

/-- Of three pairs one loses its route to the map, one its code, and one is left. -/
theorem extend_extendsByMap_displacing :
    [("a", (1 : RouteCode)), ("b", 2)].Pairwise (·.1 ≠ ·.1) ∧
      ExtendsByMap (ofList [("a", 7), ("c", 2), ("d", 4)]) [("a", 1), ("b", 2)] ∧
      CodesApart [("a", 1), ("b", 2)] ∧
      ((ofList [("a", 7), ("c", 2), ("d", 4)]).extend [("b", 2), ("a", 1)]).entries =
        [("a", 1), ("b", 2), ("d", 4)] :=
  ⟨by decide, extend_extendsByMap _ _ (by decide), by simp [CodesApart], by decide⟩

/-- Of two routes with one code the one that is registered last has it. -/
example : (ofList [("a", 1), ("b", 1)]).route? 1 = some "b" ∧
    (ofList [("b", 1), ("a", 1)]).route? 1 = some "a" := by
  decide

end RoutedSession.RouteTable
