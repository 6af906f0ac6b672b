namespace RoutedSession.Binary64

/-- The magnitude that stands for infinity. -/
def infinity : Nat := 2047 * Nat.pow 2 52

/-- The integer nearest to `num / den`, and the even one of two equally near. -/
def roundHalfEven (num den : Nat) : Nat :=
  let quotient := num / den
  let twice := 2 * (num % den)
  if twice < den then quotient
  else if den < twice then quotient + 1
  else quotient + quotient % 2

/-- The fraction `num / den * 2 ^ exponent`. -/
def scale (num den : Nat) (exponent : Int) : Nat × Nat :=
  if 0 ≤ exponent then (num * Nat.pow 2 exponent.toNat, den)
  else (num, den * Nat.pow 2 (-exponent).toNat)

/-- The greatest exponent of two that is at most `num / den`. -/
def topExponent (num den : Nat) : Int :=
  let guess : Int := Nat.log2 num - Nat.log2 den
  let (scaledNum, scaledDen) := scale num den (-guess)
  if scaledDen ≤ scaledNum then guess else guess - 1

/-- The magnitude nearest to `num / den`, or infinity when it is too large. -/
def ofRatio (num den : Nat) : Nat :=
  if num = 0 then 0
  else
    let unit := max (topExponent num den - 52) (-1074)
    let (scaledNum, scaledDen) := scale num den (-unit)
    min ((unit + 1074).toNat * Nat.pow 2 52 + roundHalfEven scaledNum scaledDen) infinity

/-- The integer `m` and the exponent `e` with value `m * 2 ^ e`, for a finite magnitude. -/
def parts (magnitude : Nat) : Nat × Int :=
  if magnitude < Nat.pow 2 52 then (magnitude, -1074)
  else
    (Nat.pow 2 52 + magnitude % Nat.pow 2 52, (magnitude / Nat.pow 2 52 : Nat) - 1075)

/-- The magnitude nearest to a natural number. -/
def ofNat (n : Nat) : Nat :=
  ofRatio n 1

/-- The rounded product of two finite magnitudes. -/
def mul (a b : Nat) : Nat :=
  let (m, d) := parts a
  let (n, e) := parts b
  let (num, den) := scale (m * n) 1 (d + e)
  ofRatio num den

/-- The rounded quotient of two finite magnitudes, the second not zero. -/
def div (a b : Nat) : Nat :=
  let (m, d) := parts a
  let (n, e) := parts b
  let (num, den) := scale m n (d - e)
  ofRatio num den

end RoutedSession.Binary64
