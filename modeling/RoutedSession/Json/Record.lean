import RoutedSession.Json.Parse

namespace RoutedSession.Json.Read

/-- Why a value that begins with `first` is not of the wanted kind. A word, number or text that is
not well formed is reported as such. -/
def otherKind (first : UInt8) (rest : Bytes) : ReadError :=
  let found : Except ReadError Unit :=
    if first = Mark.smallN then (word nullEnd rest).map fun _ => ()
    else if first = Mark.smallT then (word trueEnd rest).map fun _ => ()
    else if first = Mark.smallF then (word falseEnd rest).map fun _ => ()
    else if startsNumber first then (number first rest).map fun _ => ()
    else if first = Mark.quote then (text rest).map fun _ => ()
    else if first = Mark.openArray ∨ first = Mark.openObject then .ok ()
    else .error .malformed
  match found with
  | .error e => e
  | .ok () => .mismatch

def naturalBelow (bound : Nat) : Reader Nat := fun bytes => do
  let (b, rest) ← next bytes
  if startsNumber b then
    let (found, after) ← number b rest.val
    match found with
    | .int value =>
        if 0 ≤ value ∧ value < bound then return (value.toNat, rest.fromFirst after)
        else .error .mismatch
    | .float _ => .error .mismatch
  else .error (otherKind b rest.val)

/-- A text. -/
def quoted : Reader String := fun bytes => do
  let (b, rest) ← next bytes
  if b = Mark.quote then
    let (content, after) ← text rest.val
    return (content, rest.andThen after)
  else .error (otherKind b rest.val)

/-- An object with any names and values of one kind. -/
def map {α : Type} (depth : Nat) (value : Nat → Reader α) : Reader (List (String × α)) :=
  fun bytes => do
    let (b, rest) ← next bytes
    if b = Mark.openObject then
      match depth with
      | 0 => .error .malformed
      | depth + 1 =>
          let (found, after) ←
            members (keptMember (value depth)) rest.val true [] rest.val rest.le_self
          return (found, rest.andThen after)
    else .error (otherKind b rest.val)

/-- A field of a record that is gathered as `σ`. -/
structure RecordField (σ : Type) where
  name : String
  /-- Whether the field has been read. -/
  isRead : σ → Bool
  /-- Reads the field's value, up to a limit on nesting. -/
  read : (depth : Nat) → σ → Reader σ

def RecordField.keep {σ α : Type} (name : String) (kept : σ → Option α) (put : σ → α → σ)
    (value : (depth : Nat) → Reader α) : RecordField σ where
  name
  isRead gathered := (kept gathered).isSome
  read depth gathered := fun bytes =>
    (value depth bytes).map fun (value, rest) => (put gathered value, rest)

/-- The member of a record with a given name. No field may be given twice. -/
def recordMember {σ : Type} (fields : List (RecordField σ)) (depth : Nat) (gathered : σ)
    (name : String) : Reader σ := fun bytes =>
  match fields.find? (·.name == name) with
  | none => (afterColon skipValue bytes).map fun ((), rest) => (gathered, rest)
  | some field =>
      if field.isRead gathered then .error .mismatch
      else afterColon (field.read depth gathered) bytes

/-- The fields of a record in their order, up to the end of the array. The last ones may be left
out. -/
def orderedFields {σ : Type} (depth : Nat) (outer : Bytes) :
    (fields : List (RecordField σ)) → (isFirst : Bool) → (gathered : σ) → (bytes : Bytes) →
    bytes.length ≤ outer.length → Except ReadError (σ × Rest outer)
  | [], _, gathered, bytes, hwithin =>
      match closeArray bytes with
      | .error e => .error e
      | .ok rest => .ok (gathered, rest.widen hwithin)
  | field :: later, isFirst, gathered, bytes, hwithin =>
      match nextItem isFirst bytes with
      | .error e => .error e
      | .ok (.close rest) => .ok (gathered, rest.widen hwithin)
      | .ok (.item start) =>
          match field.read depth gathered start.val with
          | .error e => .error e
          | .ok (gathered, rest) =>
              orderedFields depth outer later false gathered rest.val (by
                have := start.property
                have := rest.property
                omega)

/-- A record. What is gathered from its fields is judged at its end. -/
def record {σ α : Type} (fields : List (RecordField σ)) (start : σ)
    (finish : σ → Except ReadError α) (depth : Nat) : Reader α := fun bytes => do
  let (b, rest) ← next bytes
  if b = Mark.openArray then
    match depth with
    | 0 => .error .malformed
    | depth + 1 =>
        let (gathered, after) ←
          orderedFields depth rest.val fields true start rest.val rest.le_self
        let value ← finish gathered
        return (value, rest.andThen after)
  else if b = Mark.openObject then
    match depth with
    | 0 => .error .malformed
    | depth + 1 =>
        let (gathered, after) ←
          members (recordMember fields depth) rest.val true start rest.val rest.le_self
        let value ← finish gathered
        return (value, rest.andThen after)
  else .error (otherKind b rest.val)

/-- A field that must be there. -/
def required {α : Type} : Option α → Except ReadError α
  | none => .error .mismatch
  | some value => .ok value

end RoutedSession.Json.Read
