import RoutedSession.Json.Numeral

namespace RoutedSession.Json.Read

def number (first : UInt8) (rest : Bytes) : Except ReadError (JsonNumber × Rest (first :: rest)) :=
  if first = Mark.minus then do
    let (written, after) ← numeral rest
    let value ← written.value true
    return (value, after.widen (by simp))
  else do
    let (written, after) ← numeral (first :: rest)
    let value ← written.value false
    return (value, after)

/-- Whether a number can begin with a byte. -/
def startsNumber (b : UInt8) : Bool :=
  b == Mark.minus || isDigit b

/-- What is left of `bytes`, when reading began at its first byte that is no space. -/
def Rest.fromFirst {bytes : Bytes} {b : UInt8} (rest : Rest bytes) (after : Rest (b :: rest.val)) :
    Rest bytes :=
  after.widen (by
    have := rest.property
    simp only [List.length_cons]
    omega)

/-- What is left of `bytes` after the last bytes of a word that began there. -/
def Rest.upTo {bytes : Bytes} (rest : Rest bytes)
    (after : { after : Bytes // after.length ≤ rest.val.length }) : Rest bytes :=
  ⟨after.val, Nat.lt_of_le_of_lt after.property rest.property⟩

/-- A member of an object whose members are kept by name. Of two members of one name the last
counts. -/
def keptMember {α : Type} (value : Reader α) (gathered : List (String × α)) (name : String) :
    Reader (List (String × α)) := fun bytes =>
  (afterColon value bytes).map fun (value, rest) => (insertSorted name value gathered, rest)

def nullEnd : Bytes := Bytes.ofString "ull"

def trueEnd : Bytes := Bytes.ofString "rue"

def falseEnd : Bytes := Bytes.ofString "alse"

/-- A value in which arrays and objects nest at most `depth` deep. -/
def value (depth : Nat) : Reader Json := fun bytes => do
  let (b, rest) ← next bytes
  if b = Mark.smallN then
    let after ← word nullEnd rest.val
    return (.null, rest.upTo after)
  else if b = Mark.smallT then
    let after ← word trueEnd rest.val
    return (.bool true, rest.upTo after)
  else if b = Mark.smallF then
    let after ← word falseEnd rest.val
    return (.bool false, rest.upTo after)
  else if startsNumber b then
    let (found, after) ← number b rest.val
    return (.number found, rest.fromFirst after)
  else if b = Mark.quote then
    let (content, after) ← text rest.val
    return (.string content, rest.andThen after)
  else if b = Mark.openArray then
    match depth with
    | 0 => .error .malformed
    | depth + 1 =>
        let (found, after) ← items (value depth) rest.val [] rest.val (Nat.le_refl _)
        return (.array found, rest.andThen after)
  else if b = Mark.openObject then
    match depth with
    | 0 => .error .malformed
    | depth + 1 =>
        let (found, after) ←
          members (keptMember (value depth)) rest.val true [] rest.val (Nat.le_refl _)
        return (.object found, rest.andThen after)
  else .error .malformed

/-- What an opened array or object has to be closed with. -/
inductive Bracket where
  | array
  | object
  deriving DecidableEq, Repr

/-- The byte that closes it. -/
def Bracket.close : Bracket → UInt8
  | .array => Mark.closeArray
  | .object => Mark.closeObject

/-- Passes over a value, or over what opens an array or object. -/
def skipStart : Reader (Option Bracket) := fun bytes => do
  let (b, rest) ← next bytes
  if b = Mark.smallN then return (none, rest.upTo (← word nullEnd rest.val))
  else if b = Mark.smallT then return (none, rest.upTo (← word trueEnd rest.val))
  else if b = Mark.smallF then return (none, rest.upTo (← word falseEnd rest.val))
  else if b = Mark.minus then
    let (_, after) ← (numeral rest.val).mapError fun _ => .malformed
    return (none, rest.andThen after)
  else if isDigit b then
    let (_, after) ← (numeral (b :: rest.val)).mapError fun _ => .malformed
    return (none, rest.fromFirst after)
  else if b = Mark.quote then
    let after ← skipText rest.val rest.val (Nat.le_refl _)
    return (none, rest.andThen after)
  else if b = Mark.openArray then return (some .array, rest)
  else if b = Mark.openObject then return (some .object, rest)
  else .error .malformed

/-- Passes over the name of a member and the colon after it, where one is due. -/
def skipName (bracket : Bracket) (bytes : Bytes) :
    Except ReadError (Left bytes) :=
  match bracket with
  | .array => .ok (.all bytes)
  | .object => do
      let (b, rest) ← next bytes
      if b = Mark.quote then
        let after ← skipText rest.val rest.val rest.le_self
        let (b, last) ← next after.val
        if b = Mark.colon then return ((rest.andThen after).andThen last).left
        else .error .malformed
      else .error .malformed

/-- Where the next item begins, after any comma that is due. -/
def itemStart (isFirst : Bool) (first : UInt8) (rest : Bytes) :
    Except ReadError { start : Bytes // start.length ≤ rest.length + 1 } :=
  if isFirst then .ok ⟨first :: rest, by simp⟩
  else if first = Mark.comma then .ok ⟨rest, by simp⟩
  else .error .malformed

/-- Passes over everything up to the end of all opened arrays and objects, the innermost first. -/
def skipOpened (outer : Bytes) (isFirst : Bool) (opened : List Bracket) (bytes : Bytes)
    (hwithin : bytes.length < outer.length) : Except ReadError (Rest outer) :=
  match opened with
  | [] => .ok ⟨bytes, hwithin⟩
  | bracket :: enclosing =>
      match next bytes with
      | .error e => .error e
      | .ok (b, rest) =>
          if b = bracket.close then
            skipOpened outer false enclosing rest.val (Nat.lt_trans rest.property hwithin)
          else
            match itemStart isFirst b rest.val with
            | .error e => .error e
            | .ok start =>
                match skipName bracket start.val with
                | .error e => .error e
                | .ok named =>
                    match skipStart named.val with
                    | .error e => .error e
                    | .ok (more, after) =>
                        skipOpened outer more.isSome (more.toList ++ bracket :: enclosing)
                          after.val (by
                            have := rest.property
                            have := start.property
                            have := named.property
                            have := after.property
                            omega)
termination_by bytes.length
decreasing_by
  · exact rest.property
  · have := rest.property
    have := start.property
    have := named.property
    have := after.property
    omega

/-- Passes over a value of any depth. Its texts and numbers need not stand for anything. -/
def skipValue : Reader Unit := fun bytes => do
  let (opened, rest) ← skipStart bytes
  let after ← skipOpened bytes true opened.toList rest.val rest.lt
  return ((), after)

/-- Reads a whole text: nothing but space may follow what is read. -/
def whole {α : Type} (reader : Reader α) (bytes : Bytes) : Except ReadError α := do
  let (found, rest) ← reader bytes
  match first? rest.val with
  | none => return found
  | some _ => .error .malformed

/-- The deepest nesting of a value that is kept. -/
def maxDepth : Nat := 127

end RoutedSession.Json.Read

namespace RoutedSession.Json

/-- The value that a JSON text stands for. -/
def parse (bytes : Bytes) : Except ReadError Json :=
  Read.whole (Read.value Read.maxDepth) bytes

end RoutedSession.Json
