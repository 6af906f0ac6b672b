import RoutedSession.Json.Reader
import RoutedSession.Json.Value

namespace RoutedSession.Json

/-- A number as it is written, without its sign. -/
structure Numeral where
  whole : List Nat
  /-- The digits after the point, if there is one. -/
  places : Option (List Nat)
  /-- Whether the exponent is negative, and its digits. -/
  power : Option (Bool × List Nat)
  deriving DecidableEq, Repr

namespace Read

/-- Whether a byte is a decimal digit. -/
def isDigit (b : UInt8) : Bool :=
  Mark.zero ≤ b && b ≤ Mark.nine

def digitRun (bytes : Bytes) : List Nat × Left bytes :=
  ((bytes.takeWhile isDigit).map fun b => b.toNat - Mark.zero.toNat,
    ⟨bytes.dropWhile isDigit, (List.dropWhile_sublist _).length_le⟩)

def digits (bytes : Bytes) :
    Except ReadError (List Nat × Left bytes) :=
  match bytes with
  | [] => .error .unfinished
  | b :: rest => if isDigit b then .ok (digitRun (b :: rest)) else .error .malformed

/-- The digits before the point: a zero on its own, or digits that do not begin with one. -/
def wholeDigits : Reader (List Nat)
  | [] => .error .unfinished
  | b :: rest =>
      if b = Mark.zero then
        if rest.head?.any isDigit then .error .malformed else .ok ([0], .tail rest)
      else if isDigit b then
        let (more, after) := digitRun rest
        .ok ((b.toNat - Mark.zero.toNat) :: more, ⟨after.val, by
          have := after.property
          simp only [List.length_cons]
          omega⟩)
      else .error .malformed

/-- A point and the digits after it, if there is one. -/
def places (bytes : Bytes) : Except ReadError (Option (List Nat) × Left bytes) :=
  match bytes with
  | [] => .ok (none, .all [])
  | b :: rest =>
      if b = Mark.point then
        match digits rest with
        | .error e => .error e
        | .ok (found, after) => .ok (some found, after.pastFirst)
      else .ok (none, .all (b :: rest))

/-- The sign of an exponent. None counts as a plus. -/
def powerSign (bytes : Bytes) : Bool × Left bytes :=
  match bytes with
  | [] => (false, .all [])
  | b :: rest =>
      if b = Mark.plus ∨ b = Mark.minus then (b == Mark.minus, (Left.all rest).pastFirst)
      else (false, .all (b :: rest))

/-- A letter E and an exponent, if there is one. -/
def power (bytes : Bytes) : Except ReadError (Option (Bool × List Nat) × Left bytes) :=
  match bytes with
  | [] => .ok (none, .all [])
  | b :: rest =>
      if b = Mark.smallE ∨ b = Mark.capitalE then
        let (negative, afterSign) := powerSign rest
        match digits afterSign.val with
        | .error e => .error e
        | .ok (found, after) => .ok (some (negative, found), (afterSign.andThen after).pastFirst)
      else .ok (none, .all (b :: rest))

/-- A number without its sign. -/
def numeral : Reader Numeral := fun bytes => do
  let (whole, afterWhole) ← wholeDigits bytes
  let (places, afterPlaces) ← places afterWhole.val
  let (power, afterPower) ← power afterPlaces.val
  return (⟨whole, places, power⟩, ⟨afterPower.val,
    Nat.lt_of_le_of_lt (Nat.le_trans afterPower.property afterPlaces.property)
      afterWhole.property⟩)

end Read

namespace Numeral

/-- Takes digits into a number while it stays below `2 ^ 64`. Returns it and how many were left. -/
def absorb (significand : Nat) : List Nat → Nat × Nat
  | [] => (significand, 0)
  | d :: rest =>
      if 10 * significand + d < Nat.pow 2 64 then absorb (10 * significand + d) rest
      else (significand, rest.length + 1)

/-- The digits of a numeral that fit 64 bits as a number, and the exponent of ten that puts them in
their place. -/
def significand (numeral : Numeral) : Nat × Int :=
  let (whole, left) := absorb 0 numeral.whole
  let places := numeral.places.getD []
  let (all, unused) := absorb whole places
  (all, (left : Int) - (places.length - unused : Nat))

/-- The greatest exponent that is taken as it is written. -/
def maxPower : Nat := Nat.pow 2 31 - 1

/-- The written exponent as a number. -/
def powerValue (digits : List Nat) : Nat :=
  digits.foldl (fun n d => 10 * n + d) 0

/-- The greatest power of ten by which a number is multiplied or divided at once. -/
def greatestTens : Nat := 308

/-- The power of ten as a binary number. -/
def tenTo (tens : Nat) : Nat :=
  Binary64.ofNat (Nat.pow 10 tens)

/-- Divides by `10 ^ tens`, in steps of the greatest power while `tens` is above it. -/
def divideDown (magnitude tens : Nat) : Nat :=
  if magnitude = 0 then 0
  else if tens ≤ greatestTens then Binary64.div magnitude (tenTo tens)
  else divideDown (Binary64.div magnitude (tenTo greatestTens)) (tens - greatestTens)
termination_by tens
decreasing_by
  simp only [greatestTens] at *
  omega

/-- The magnitude of `significand * 10 ^ exponent`, unless it is too large. -/
def magnitude (significand : Nat) (exponent : Int) : Except ReadError Nat :=
  let start := Binary64.ofNat significand
  if exponent < 0 then .ok (divideDown start (-exponent).toNat)
  else if start = 0 then .ok 0
  else if (greatestTens : Int) < exponent then .error .malformed
  else
    let product := Binary64.mul start (tenTo exponent.toNat)
    if product < Binary64.infinity then .ok product else .error .malformed

def float (numeral : Numeral) (negative : Bool) : Except ReadError JsonNumber :=
  let (digits, exponent) := numeral.significand
  let found : Except ReadError Nat :=
    match numeral.power with
    | none => magnitude digits exponent
    | some (isNegative, written) =>
        let power := powerValue written
        if power ≤ maxPower then
          magnitude digits (exponent + if isNegative then -(power : Int) else power)
        else if digits ≠ 0 ∧ !isNegative then .error .malformed
        else .ok 0
  found.map (.ofMagnitude negative)

/-- The number that a numeral stands for. It is an integer if it has neither point nor exponent and
fits 64 bits; zero with a minus sign does not. -/
def value (numeral : Numeral) (negative : Bool) : Except ReadError JsonNumber :=
  match numeral.places, numeral.power, absorb 0 numeral.whole with
  | none, none, (whole, 0) =>
      if !negative then .ok (.int whole)
      else if whole ≠ 0 ∧ whole ≤ Nat.pow 2 63 then .ok (.int (-(whole : Int)))
      else .ok (.ofMagnitude true (Binary64.ofNat whole))
  | _, _, _ => numeral.float negative

end Numeral

end RoutedSession.Json
