import RoutedSession.Bytes
import RoutedSession.Decimal.Shortest

namespace RoutedSession

/-- A JSON number. -/
inductive JsonNumber where
  /-- An integer that fits 64 bits, with or without a sign. -/
  | int (value : Int)
  /-- Any other number, as a binary one of 64 bits. -/
  | float (bits : UInt64)
  deriving DecidableEq, Repr

/-- A JSON value. -/
inductive Json where
  | null
  | bool (value : Bool)
  | number (value : JsonNumber)
  | string (value : String)
  | array (items : List Json)
  | object (members : List (String × Json))
  deriving Repr

def insertSorted {α : Type} (key : String) (value : α) : List (String × α) → List (String × α)
  | [] => [(key, value)]
  | (other, kept) :: rest =>
      if key < other then (key, value) :: (other, kept) :: rest
      else if key = other then (key, value) :: rest
      else (other, kept) :: insertSorted key value rest

namespace Json

mutual

/-- The value with the members of every object in the order of their names. -/
def sorted : Json → Json
  | .array items => .array (sortedItems items)
  | .object members => .object (sortedMembers members)
  | other => other

/-- The items of an array, each of them sorted. -/
def sortedItems : List Json → List Json
  | [] => []
  | item :: rest => sorted item :: sortedItems rest

/-- The members of an object in the order of their names, with sorted values. -/
def sortedMembers : List (String × Json) → List (String × Json)
  | [] => []
  | (name, value) :: rest => insertSorted name (sorted value) (sortedMembers rest)

end

end Json

namespace JsonNumber

/-- The float with a sign and a magnitude. -/
def ofMagnitude (negative : Bool) (magnitude : Nat) : JsonNumber :=
  .float (magnitude + if negative then Nat.pow 2 63 else 0).toUInt64

end JsonNumber

end RoutedSession
