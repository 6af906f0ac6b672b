import RoutedSession.Json.Mark
import RoutedSession.Json.Value

namespace RoutedSession

namespace Json

/-- A byte of a text as it stands between quotes. -/
def escapeByte (b : UInt8) : Bytes :=
  if b = Mark.quote ∨ b = Mark.backslash then [Mark.backslash, b]
  else if b < Mark.space then
    match Mark.shortEscapes.find? (·.2 == b) with
    | some (letter, _) => [Mark.backslash, letter]
    | none => [Mark.backslash, Mark.smallU, 0x30, 0x30] ++ Bytes.ofString (Bytes.hexByte b)
  else [b]

def printText (text : String) : Bytes :=
  Mark.quote :: (Bytes.ofString text).flatMap escapeByte ++ [Mark.quote]

/-- The decimal digits of a natural number. -/
def printNat (n : Nat) : Bytes :=
  (Nat.toDigits 10 n).map fun c => c.toNat.toUInt8

/-- Floats from `1e-5` up to `1e16` are written without an exponent. -/
def floatLayout : Decimal.Layout :=
  { leastPlain := -5, greatestPlain := 15, plus := "+" }

/-- A float of a given magnitude. -/
def printMagnitude (magnitude : Nat) : String :=
  if magnitude = 0 then "0.0" else (Decimal.shortest magnitude).write floatLayout

/-- A number. A float that is not finite has no form of its own. -/
def printNumber : JsonNumber → Bytes
  | .int value =>
      if value < 0 then Mark.minus :: printNat value.natAbs else printNat value.natAbs
  | .float bits =>
      let magnitude := bits.toNat % Nat.pow 2 63
      if magnitude < Binary64.infinity then
        Bytes.ofString ((if bits.toNat < Nat.pow 2 63 then "" else "-") ++ printMagnitude magnitude)
      else Bytes.ofString "null"

/-- The parts of an array or object, with commas between them. -/
def separate : List Bytes → Bytes
  | [] => []
  | [part] => part
  | part :: rest => part ++ Mark.comma :: separate rest

/-- A member of an object with its value already written. -/
def printMember (name : String) (value : Bytes) : Bytes :=
  printText name ++ Mark.colon :: value

mutual

/-- The text of a value. -/
def print : Json → Bytes
  | .null => Bytes.ofString "null"
  | .bool true => Bytes.ofString "true"
  | .bool false => Bytes.ofString "false"
  | .number value => printNumber value
  | .string text => printText text
  | .array items => Mark.openArray :: separate (printItems items) ++ [Mark.closeArray]
  | .object members => Mark.openObject :: separate (printMembers members) ++ [Mark.closeObject]

/-- The texts of the items of an array. -/
def printItems : List Json → List Bytes
  | [] => []
  | item :: rest => print item :: printItems rest

/-- The texts of the members of an object. -/
def printMembers : List (String × Json) → List Bytes
  | [] => []
  | (name, value) :: rest => printMember name (print value) :: printMembers rest

end

end Json

end RoutedSession
