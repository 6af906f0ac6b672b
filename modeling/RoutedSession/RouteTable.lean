import Std.Data.TreeMap.Lemmas
import RoutedSession.Bytes

/-!
Short codes for routes. There is one map for each direction, and the newest registration wins in
both of them.
-/

namespace RoutedSession

/-- A route's short code. -/
abbrev RouteCode := UInt16

/-- The codes of routes, and the routes of codes. -/
structure RouteMaps where
  routes : Std.TreeMap String RouteCode := ∅
  codes : Std.TreeMap RouteCode String := ∅

namespace RouteMaps

def code? (maps : RouteMaps) (route : String) : Option RouteCode :=
  maps.routes[route]?

def route? (maps : RouteMaps) (code : RouteCode) : Option String :=
  maps.codes[code]?

def size (maps : RouteMaps) : Nat :=
  maps.routes.size

def isEmpty (maps : RouteMaps) : Bool :=
  maps.routes.isEmpty

def clear (_ : RouteMaps) : RouteMaps :=
  {}

/-- The routes of codes, without that of the code which a route has. -/
def codesWithout (maps : RouteMaps) (route : String) : Std.TreeMap RouteCode String :=
  match maps.routes[route]? with
  | some former => maps.codes.erase former
  | none => maps.codes

/-- Enters a route and its code in both maps. The code that the route had is left without a route,
and then another route that still has the code is left without one. -/
def register (maps : RouteMaps) (route : String) (code : RouteCode) : RouteMaps :=
  let routes := maps.routes.insert route code
  { codes := (maps.codesWithout route).insert code route
    routes :=
      match (maps.codesWithout route)[code]? with
      | some former => if former = route then routes else routes.erase former
      | none => routes }

/-- Registers pairs from first to last. -/
def extend (maps : RouteMaps) (pairs : List (String × RouteCode)) : RouteMaps :=
  pairs.foldl (fun maps pair => maps.register pair.1 pair.2) maps

theorem extend_append (maps : RouteMaps) (front back : List (String × RouteCode)) :
    maps.extend (front ++ back) = (maps.extend front).extend back :=
  List.foldl_append

/-- Either map tells the same as the other. -/
def Agree (maps : RouteMaps) : Prop :=
  ∀ route code, maps.code? route = some code ↔ maps.route? code = some route

variable {maps : RouteMaps}

theorem agree_empty : Agree {} := by
  intro route code
  simp [code?, route?]

theorem getElem?_codesWithout (maps : RouteMaps) (route : String) (wanted : RouteCode) :
    (maps.codesWithout route)[wanted]? =
      if maps.code? route = some wanted then none else maps.route? wanted := by
  unfold codesWithout code? route?
  split
  · rename_i former hformer
    simp [hformer, Std.TreeMap.getElem?_erase]
  · rename_i hnone
    simp [hnone]

theorem route?_register (maps : RouteMaps) (route : String) (code wanted : RouteCode) :
    (maps.register route code).route? wanted =
      if wanted = code then some route
      else if maps.code? route = some wanted then none
      else maps.route? wanted := by
  have hcodes : (maps.register route code).route? wanted =
      ((maps.codesWithout route).insert code route)[wanted]? := rfl
  rw [hcodes, Std.TreeMap.getElem?_insert, getElem?_codesWithout]
  simp only [Std.compare_eq_iff_eq, @eq_comm _ wanted]

/-- Where the maps agree, the route that had the new code before is the one that loses it. -/
theorem code?_register (hagree : maps.Agree) (route wanted : String) (code : RouteCode) :
    (maps.register route code).code? wanted =
      if wanted = route then some code
      else if maps.code? wanted = some code then none
      else maps.code? wanted := by
  have hroutes : (maps.routes.insert route code)[wanted]? =
      if wanted = route then some code else maps.code? wanted := by
    rw [Std.TreeMap.getElem?_insert]
    simp only [Std.compare_eq_iff_eq, @eq_comm _ wanted, code?]
  rw [code?, register]
  dsimp only
  rw [getElem?_codesWithout]
  split
  · -- Another route has the code, and is the only one.
    rename_i former hformer
    obtain ⟨hmoved, hcode⟩ : maps.code? route ≠ some code ∧ maps.route? code = some former := by
      simpa using hformer
    have hformer : ∀ wanted, maps.code? wanted = some code ↔ former = wanted := by
      intro wanted
      rw [hagree wanted code, hcode, Option.some.injEq]
    have hother : former ≠ route := fun hsame => hmoved ((hformer route).mpr hsame)
    rw [if_neg hother, Std.TreeMap.getElem?_erase, hroutes]
    simp only [Std.compare_eq_iff_eq, hformer]
    grind
  · -- No route has the code, or the one that is registered.
    rename_i hnone
    have hkept : maps.code? wanted = some code → wanted = route := by
      intro hwanted
      refine Classical.byContradiction fun hother => ?_
      rw [hagree wanted code] at hwanted
      have hmoved : maps.code? route ≠ some code := by
        rw [ne_eq, hagree route code, hwanted, Option.some.injEq]
        exact hother
      rw [if_neg hmoved, hwanted] at hnone
      contradiction
    rw [hroutes]
    grind

theorem code?_register_eq_some_iff (hagree : maps.Agree) {route wanted : String}
    {code wantedCode : RouteCode} :
    (maps.register route code).code? wanted = some wantedCode ↔
      (wanted, wantedCode) = (route, code) ∨
        maps.code? wanted = some wantedCode ∧ wanted ≠ route ∧ wantedCode ≠ code := by
  rw [code?_register hagree, Prod.mk.injEq]
  grind

theorem Agree.register (hagree : maps.Agree) (route : String) (code : RouteCode) :
    (maps.register route code).Agree := by
  intro wanted wantedCode
  rw [code?_register hagree, route?_register]
  have hroute := hagree wanted wantedCode
  have hnew := hagree route wantedCode
  have hold := hagree wanted code
  grind

theorem Agree.extend (hagree : maps.Agree) (pairs : List (String × RouteCode)) :
    (maps.extend pairs).Agree := by
  induction pairs generalizing maps with
  | nil => exact hagree
  | cons pair pairs ih => exact ih (hagree.register pair.1 pair.2)

end RouteMaps

/-- A call that changes which codes routes have. -/
inductive RouteCall where
  | register (route : String) (code : RouteCode)
  | extend (pairs : List (String × RouteCode))
  | clear

/-- Pairs of a route and its code. Each of the two tells the other. -/
@[ext]
structure RouteTable extends RouteMaps where
  agree : toRouteMaps.Agree

namespace RouteTable

def empty : RouteTable :=
  { agree := RouteMaps.agree_empty }

instance : Inhabited RouteTable := ⟨empty⟩

def clear (_ : RouteTable) : RouteTable :=
  empty

def register (table : RouteTable) (route : String) (code : RouteCode) : RouteTable :=
  { table.toRouteMaps.register route code with agree := table.agree.register route code }

/-- Registers pairs from first to last. -/
def extend (table : RouteTable) (pairs : List (String × RouteCode)) : RouteTable :=
  { table.toRouteMaps.extend pairs with agree := table.agree.extend pairs }

/-- The table that holds what registering the pairs in turn leaves. -/
def ofList (pairs : List (String × RouteCode)) : RouteTable :=
  empty.extend pairs

def call (table : RouteTable) : RouteCall → RouteTable
  | .register route code => table.register route code
  | .extend pairs => table.extend pairs
  | .clear => table.clear

/-- The pairs in the order of their routes. -/
def entries (table : RouteTable) : List (String × RouteCode) :=
  table.routes.toList

variable {table : RouteTable} {route : String} {code : RouteCode}

theorem extend_append (table : RouteTable) (front back : List (String × RouteCode)) :
    table.extend (front ++ back) = (table.extend front).extend back :=
  RouteTable.ext (congrArg RouteMaps.routes (RouteMaps.extend_append _ front back))
    (congrArg RouteMaps.codes (RouteMaps.extend_append _ front back))

theorem code?_eq_some_iff : table.code? route = some code ↔ (route, code) ∈ table.entries :=
  Std.TreeMap.mem_toList_iff_getElem?_eq_some.symm

theorem route?_eq_some_iff : table.route? code = some route ↔ (route, code) ∈ table.entries :=
  (table.agree route code).symm.trans code?_eq_some_iff

theorem mem_entries_register {pair : String × RouteCode} :
    pair ∈ (table.register route code).entries ↔
      pair = (route, code) ∨ pair ∈ table.entries ∧ pair.1 ≠ route ∧ pair.2 ≠ code := by
  rw [← code?_eq_some_iff, ← code?_eq_some_iff]
  exact RouteMaps.code?_register_eq_some_iff table.agree

end RouteTable

end RoutedSession
