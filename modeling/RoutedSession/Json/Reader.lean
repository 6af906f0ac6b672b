import RoutedSession.Json.Mark

/-!
The parts that all readers of JSON text share. A reader returns what it read and the bytes after it,
which are fewer than it was given; so loops over readers end.
-/

namespace RoutedSession

/-- Why a JSON text cannot be read. -/
inductive Json.ReadError where
  /-- The text ends too early. -/
  | unfinished
  /-- The text is no JSON, or a part of it is beyond a limit. -/
  | malformed
  /-- The text is JSON up to here and not of the wanted form. -/
  | mismatch
  deriving DecidableEq, Repr

namespace Json.Read

/-- The bytes after something that was read off the front of `bytes`. -/
abbrev Rest (bytes : Bytes) := { rest : Bytes // rest.length < bytes.length }

/-- Reads something off the front of any bytes. -/
abbrev Reader (α : Type) := (bytes : Bytes) → Except ReadError (α × Rest bytes)

/-- What is left after the first byte. -/
def Rest.tail {b : UInt8} (bytes : Bytes) : Rest (b :: bytes) :=
  ⟨bytes, by simp⟩

/-- What is left after reading on. -/
def Rest.andThen {bytes : Bytes} (first : Rest bytes) (second : Rest first.val) : Rest bytes :=
  ⟨second.val, Nat.lt_trans second.property first.property⟩

/-- What is left of `outer`, when reading began at its end part `inner`. -/
def Rest.widen {inner outer : Bytes} (hwithin : inner.length ≤ outer.length) (rest : Rest inner) :
    Rest outer :=
  ⟨rest.val, Nat.lt_of_lt_of_le rest.property hwithin⟩

theorem Rest.lt {bytes : Bytes} (rest : Rest bytes) : rest.val.length < bytes.length :=
  rest.property

theorem Rest.le_self {bytes : Bytes} (rest : Rest bytes) : rest.val.length ≤ rest.val.length :=
  Nat.le_refl _

/-- The bytes after something that may be empty. -/
abbrev Left (bytes : Bytes) := { rest : Bytes // rest.length ≤ bytes.length }

/-- Nothing was read. -/
def Left.all (bytes : Bytes) : Left bytes :=
  ⟨bytes, Nat.le_refl _⟩

/-- What is left if reading began behind the first byte. -/
def Left.pastFirst {b : UInt8} {bytes : Bytes} (left : Left bytes) : Left (b :: bytes) :=
  ⟨left.val, Nat.le_succ_of_le left.property⟩

/-- What is left after reading on. -/
def Left.andThen {bytes : Bytes} (first : Left bytes) (second : Left first.val) : Left bytes :=
  ⟨second.val, Nat.le_trans second.property first.property⟩

/-- What is left after something that is not empty. -/
def Rest.left {bytes : Bytes} (rest : Rest bytes) : Left bytes :=
  ⟨rest.val, Nat.le_of_lt rest.property⟩

/-- Space, line feed, carriage return and tab may stand between the parts of a text. -/
def isSpace (b : UInt8) : Bool :=
  b == 0x20 || b == 0x0a || b == 0x0d || b == 0x09

def skipSpace (bytes : Bytes) : Bytes :=
  bytes.dropWhile isSpace

theorem length_skipSpace (bytes : Bytes) : (skipSpace bytes).length ≤ bytes.length :=
  (List.dropWhile_sublist _).length_le

/-- The first byte that is no space, and the bytes after it. -/
def first? (bytes : Bytes) : Option (UInt8 × Rest bytes) :=
  match found : skipSpace bytes with
  | [] => none
  | b :: rest => some (b, ⟨rest, by
      have := length_skipSpace bytes
      simp only [found, List.length_cons] at this
      omega⟩)

/-- The first byte that is no space. -/
def next (bytes : Bytes) : Except ReadError (UInt8 × Rest bytes) :=
  match first? bytes with
  | none => .error .unfinished
  | some found => .ok found

/-- The last bytes of a word such as `null`. -/
def word : (expected : Bytes) → (bytes : Bytes) → Except ReadError (Left bytes)
  | [], bytes => .ok (.all bytes)
  | _ :: _, [] => .error .unfinished
  | e :: expected, b :: bytes =>
      if b = e then
        match word expected bytes with
        | .error e => .error e
        | .ok left => .ok left.pastFirst
      else .error .malformed

/-- The value of a hexadecimal digit. -/
def hexDigit? (b : UInt8) : Option Nat :=
  if 0x30 ≤ b ∧ b ≤ 0x39 then some (b.toNat - 0x30)
  else if 0x61 ≤ b ∧ b ≤ 0x66 then some (b.toNat - 0x61 + 10)
  else if 0x41 ≤ b ∧ b ≤ 0x46 then some (b.toNat - 0x41 + 10)
  else none

/-- Four hexadecimal digits. All four must be there before they are judged. -/
def hexCode : Reader Nat
  | a :: b :: c :: d :: rest =>
      match hexDigit? a, hexDigit? b, hexDigit? c, hexDigit? d with
      | some a, some b, some c, some d =>
          .ok (((a * 16 + b) * 16 + c) * 16 + d, ⟨rest, by simp only [List.length_cons]; omega⟩)
      | _, _, _, _ => .error .malformed
  | _ => .error .unfinished

/-- The byte that a letter after a backslash stands for. -/
def plainEscape? (b : UInt8) : Option UInt8 :=
  Mark.shortEscapes.lookup b

/-- The UTF-8 form of a character. -/
def charBytes (code : Nat) : Bytes :=
  String.utf8EncodeChar (Char.ofNat code)

/-- The first half of a pair that stands for a character above `0xFFFF`. -/
def isHighHalf (code : Nat) : Bool :=
  0xD800 ≤ code && code < 0xDC00

/-- The second half of such a pair. -/
def isLowHalf (code : Nat) : Bool :=
  0xDC00 ≤ code && code < 0xE000

/-- Reads one given byte. -/
def exactly (expected : UInt8) : Reader Unit
  | [] => .error .unfinished
  | b :: rest => if b = expected then .ok ((), .tail rest) else .error .malformed

/-- A character given by its code: four digits, or two halves of four digits each. -/
def codedChar (bytes : Bytes) : Except ReadError (Bytes × Rest bytes) := do
  let (code, rest) ← hexCode bytes
  if isLowHalf code then .error .malformed
  else if isHighHalf code then
    let ((), second) ← exactly Mark.backslash rest.val
    let ((), third) ← exactly Mark.smallU second.val
    let (low, fourth) ← hexCode third.val
    if isLowHalf low then
      let char := 0x10000 + (code - 0xD800) * 0x400 + (low - 0xDC00)
      return (charBytes char, rest.andThen (second.andThen (third.andThen fourth)))
    else .error .malformed
  else return (charBytes code, rest)

/-- What follows a backslash. -/
def escape : Reader Bytes
  | [] => .error .unfinished
  | b :: rest =>
      if b = Mark.smallU then
        (codedChar rest).map fun (char, after) => (char, after.widen (by simp))
      else
        match plainEscape? b with
        | some plain => .ok ([plain], .tail rest)
        | none => .error .malformed

/-- The bytes of a text up to the closing quote, with its escapes replaced. -/
def textBytes (outer : Bytes) (taken : List Bytes) (bytes : Bytes)
    (hwithin : bytes.length ≤ outer.length) : Except ReadError (Bytes × Rest outer) :=
  match bytes with
  | [] => .error .unfinished
  | b :: rest =>
      have hshorter : rest.length < outer.length := by
        simp only [List.length_cons] at hwithin; omega
      if b = Mark.quote then .ok (taken.reverse.flatten, ⟨rest, hshorter⟩)
      else if b = Mark.backslash then
        match escape rest with
        | .error e => .error e
        | .ok (char, after) =>
            textBytes outer (char :: taken) after.val
              (Nat.le_of_lt (Nat.lt_trans after.property hshorter))
      else if b < Mark.space then .error .malformed
      else textBytes outer ([b] :: taken) rest (Nat.le_of_lt hshorter)
termination_by bytes.length
decreasing_by
  · have := after.property
    simp only [List.length_cons]
    omega
  · simp

/-- A text whose opening quote has been read. Its bytes must be UTF-8. -/
def text (bytes : Bytes) : Except ReadError (String × Rest bytes) :=
  match textBytes bytes [] bytes (Nat.le_refl _) with
  | .error e => .error e
  | .ok (content, rest) =>
      match Bytes.toString? content with
      | none => .error .malformed
      | some content => .ok (content, rest)

/-- Passes over an escape without asking for whole characters. -/
def skipEscape : Reader Unit
  | [] => .error .unfinished
  | b :: rest =>
      if b = Mark.smallU then (hexCode rest).map fun (_, after) => ((), after.widen (by simp))
      else if (plainEscape? b).isSome then .ok ((), .tail rest)
      else .error .malformed

/-- Passes over a text whose opening quote has been read. -/
def skipText (outer : Bytes) (bytes : Bytes) (hwithin : bytes.length ≤ outer.length) :
    Except ReadError (Rest outer) :=
  match bytes with
  | [] => .error .unfinished
  | b :: rest =>
      have hshorter : rest.length < outer.length := by
        simp only [List.length_cons] at hwithin; omega
      if b = Mark.quote then .ok ⟨rest, hshorter⟩
      else if b = Mark.backslash then
        match skipEscape rest with
        | .error e => .error e
        | .ok ((), after) =>
            skipText outer after.val (Nat.le_of_lt (Nat.lt_trans after.property hshorter))
      else if b < Mark.space then .error .malformed
      else skipText outer rest (Nat.le_of_lt hshorter)
termination_by bytes.length
decreasing_by
  · have := after.property
    simp only [List.length_cons]
    omega
  · simp

/-- What comes next in an array or object: its end, or an item that begins at some bytes. -/
inductive Next (bytes : Bytes) where
  | close (rest : Rest bytes)
  | item (rest : { rest : Bytes // rest.length ≤ bytes.length })

/-- Looks for the next item of an array. A comma stands between items and nowhere else. -/
def nextItem (isFirst : Bool) (bytes : Bytes) : Except ReadError (Next bytes) := do
  let (b, rest) ← next bytes
  if b = Mark.closeArray then return .close rest
  else if isFirst then
    return .item ⟨b :: rest.val, rest.property⟩
  else if b = Mark.comma then
    let (b, more) ← next rest.val
    if b = Mark.closeArray then .error .malformed
    else return .item ⟨b :: more.val, Nat.le_of_lt (Nat.lt_of_le_of_lt more.property rest.property)⟩
  else .error .malformed

/-- Looks for the next name in an object. What is returned begins after its opening quote. -/
def nextName (isFirst : Bool) (bytes : Bytes) : Except ReadError (Next bytes) := do
  let (b, rest) ← next bytes
  if b = Mark.closeObject then return .close rest
  else if isFirst then
    if b = Mark.quote then return .item ⟨rest.val, Nat.le_of_lt rest.property⟩
    else .error .malformed
  else if b = Mark.comma then
    let (b, more) ← next rest.val
    if b = Mark.quote then
      return .item ⟨more.val, Nat.le_of_lt (Nat.lt_trans more.property rest.property)⟩
    else .error .malformed
  else .error .malformed

/-- The end of an array after its last item. -/
def closeArray (bytes : Bytes) : Except ReadError (Rest bytes) := do
  let (b, rest) ← next bytes
  if b = Mark.closeArray then return rest else .error .malformed

def afterColon {α : Type} (reader : Reader α) : Reader α := fun bytes => do
  let (b, rest) ← next bytes
  if b = Mark.colon then
    let (value, after) ← reader rest.val
    return (value, rest.andThen after)
  else .error .malformed

/-- Reads the items of an array up to its end. -/
def items {α : Type} (item : Reader α) (outer : Bytes) (taken : List α) (bytes : Bytes)
    (hwithin : bytes.length ≤ outer.length) : Except ReadError (List α × Rest outer) :=
  match nextItem taken.isEmpty bytes with
  | .error e => .error e
  | .ok (.close rest) => .ok (taken.reverse, rest.widen hwithin)
  | .ok (.item start) =>
      match item start.val with
      | .error e => .error e
      | .ok (value, rest) =>
          items item outer (value :: taken) rest.val (by
            have := start.property
            have := rest.property
            omega)
termination_by bytes.length
decreasing_by
  have := start.property
  have := rest.property
  omega

/-- Reads the members of an object up to its end. `member` is given what has been gathered and a
name, and reads from the colon on. -/
def members {σ : Type} (member : σ → String → Reader σ) (outer : Bytes) (isFirst : Bool)
    (gathered : σ) (bytes : Bytes) (hwithin : bytes.length ≤ outer.length) :
    Except ReadError (σ × Rest outer) :=
  match nextName isFirst bytes with
  | .error e => .error e
  | .ok (.close rest) => .ok (gathered, rest.widen hwithin)
  | .ok (.item start) =>
      match text start.val with
      | .error e => .error e
      | .ok (name, colon) =>
          match member gathered name colon.val with
          | .error e => .error e
          | .ok (gathered, rest) =>
              members member outer false gathered rest.val (by
                have := start.property
                have := colon.property
                have := rest.property
                omega)
termination_by bytes.length
decreasing_by
  have := start.property
  have := colon.property
  have := rest.property
  omega

end Json.Read

end RoutedSession
