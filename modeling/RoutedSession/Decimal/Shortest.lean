import RoutedSession.Decimal.Binary64

namespace RoutedSession.Decimal

/-- The digits of a decimal and the exponent of ten of the first of them. -/
structure Scientific where
  digits : List Nat
  exponent : Int
  deriving DecidableEq, Repr

/-- The numbers that round to a magnitude, as fractions over one denominator. The ends belong to
them when `closed` is set. -/
structure Interval where
  low : Nat
  value : Nat
  high : Nat
  denominator : Nat
  closed : Bool
  deriving DecidableEq, Repr

/-- The interval around a finite magnitude above zero. Below a power of two the neighbour is nearer
by half. -/
def Interval.ofMagnitude (magnitude : Nat) : Interval :=
  let (m, e) := Binary64.parts magnitude
  let below := if m = Nat.pow 2 52 ∧ Nat.pow 2 53 ≤ magnitude then 1 else 2
  let (unit, denominator) := Binary64.scale 1 1 (e - 2)
  { low := (4 * m - below) * unit
    value := 4 * m * unit
    high := (4 * m + 2) * unit
    denominator
    closed := m % 2 == 0 }

/-- Whether `num / den` lies in the interval. -/
def Interval.contains (interval : Interval) (num den : Nat) : Bool :=
  let point := num * interval.denominator
  let low := interval.low * den
  let high := interval.high * den
  if interval.closed then low ≤ point && point ≤ high else low < point && point < high

/-- The fraction `num / den * 10 ^ exponent`. -/
def scaleTen (num den : Nat) (exponent : Int) : Nat × Nat :=
  if 0 ≤ exponent then (num * Nat.pow 10 exponent.toNat, den)
  else (num, den * Nat.pow 10 (-exponent).toNat)

/-- The least `k`, counted from `from`, with `den ≤ num * 10 ^ k`, tried `fuel` times. -/
def zerosBefore (num den : Nat) : (fuel : Nat) → (k : Nat) → Nat
  | 0, k => k
  | fuel + 1, k => if den ≤ num * Nat.pow 10 k then k else zerosBefore num den fuel (k + 1)

/-- The digits of a number, at least one. -/
def digitsOf (n : Nat) : List Nat :=
  (Nat.toDigits 10 n).map fun c => c.toNat - '0'.toNat

/-- The exponent of ten of the first digit of `num / den`. No magnitude above zero needs more than
324 zeros. -/
def leadingExponent (num den : Nat) : Int :=
  if den ≤ num then ((digitsOf (num / den)).length : Int) - 1
  else -(zerosBefore num den 324 1 : Int)

/-- The multiple of `10 ^ exponent` in the interval that is nearest to its value, if there is one.
Of two equally near the even one is taken. -/
def nearestOnGrid? (interval : Interval) (exponent : Int) : Option Nat :=
  let (num, den) := scaleTen interval.value interval.denominator (-exponent)
  let below := num / den
  let twice := 2 * (num % den)
  let preferBelow := twice < den || (twice == den && below % 2 == 0)
  let fits (count : Nat) : Bool :=
    let (num, den) := scaleTen count 1 exponent
    interval.contains num den
  match fits below, fits (below + 1) with
  | true, true => some (if preferBelow then below else below + 1)
  | true, false => some below
  | false, true => some (below + 1)
  | false, false => none

/-- The first grid, from coarse to fine, that has a multiple in the interval, and that multiple. -/
def coarsest (interval : Interval) (leading : Int) : (grids : List Nat) → Nat × Int
  | [] => (0, leading)
  | places :: finer =>
      let exponent := leading - places
      match nearestOnGrid? interval exponent with
      | some count => (count, exponent)
      | none => coarsest interval leading finer

/-- A count of units of `10 ^ exponent`, without zeros at its end. -/
def Scientific.ofCount (count : Nat) (exponent : Int) : Scientific :=
  let digits := digitsOf count
  let kept := (digits.reverse.dropWhile (· == 0)).reverse
  ⟨if kept.isEmpty then [0] else kept, exponent + (digits.length - 1 : Nat)⟩

/-- The shortest decimal that reads back as a finite magnitude above zero. Seventeen digits are
always enough. -/
def shortest (magnitude : Nat) : Scientific :=
  let interval := Interval.ofMagnitude magnitude
  let leading := leadingExponent interval.value interval.denominator
  let (count, exponent) := coarsest interval leading (List.range 17)
  .ofCount count exponent

/-- How a decimal is written out. -/
structure Layout where
  /-- The least exponent written with places only. -/
  leastPlain : Int
  /-- The greatest exponent written with places only. -/
  greatestPlain : Int
  /-- What stands before an exponent that is not negative. -/
  plus : String
  deriving DecidableEq, Repr

def digitText (digits : List Nat) : String :=
  String.ofList (digits.map Nat.digitChar)

/-- A decimal written out. Without an exponent there is at least one digit on each side of the
point. -/
def Scientific.write (layout : Layout) (decimal : Scientific) : String :=
  let ⟨digits, exponent⟩ := decimal
  if layout.leastPlain ≤ exponent ∧ exponent ≤ layout.greatestPlain then
    if 0 ≤ exponent then
      let whole := exponent.toNat + 1
      let front := digits.take whole ++ List.replicate (whole - digits.length) 0
      let places := digits.drop whole
      digitText front ++ "." ++ digitText (if places.isEmpty then [0] else places)
    else "0." ++ digitText (List.replicate (-exponent - 1).toNat 0 ++ digits)
  else
    let places := digits.drop 1
    let mantissa :=
      digitText (digits.take 1) ++ if places.isEmpty then "" else "." ++ digitText places
    let power :=
      if exponent < 0 then "-" ++ toString (-exponent).toNat
      else layout.plus ++ toString exponent.toNat
    mantissa ++ "e" ++ power

end RoutedSession.Decimal
