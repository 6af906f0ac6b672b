import Mathlib.Data.List.TakeWhile
import RoutedSession.Proofs.Json.Values

/-!
JSON texts as syntax trees. A form says how a value is written token by token; the space between the
tokens belongs to the text alone. What a form's names stand for is told without reading it.
-/

namespace RoutedSession.Json

/-- A hexadecimal digit and its value. -/
structure HexDigit where
  byte : UInt8
  value : Nat
  means : Read.hexDigit? byte = some value

/-- What stands between quotes for a byte, a character or half of one. -/
inductive Stroke where
  /-- A byte that stands for itself. -/
  | plain (b : UInt8) (hplain : b ≠ Mark.quote ∧ b ≠ Mark.backslash ∧ ¬b < Mark.space)
  /-- A backslash and a letter. -/
  | short (letter byte : UInt8) (hshort : (letter, byte) ∈ Mark.shortEscapes)
  /-- A backslash, the letter U and the four digits of a code. -/
  | coded (a b c d : HexDigit)

namespace Stroke

/-- How it is written. -/
def bytes : Stroke → Bytes
  | plain b _ => [b]
  | short letter _ _ => [Mark.backslash, letter]
  | coded a b c d => [Mark.backslash, Mark.smallU, a.byte, b.byte, c.byte, d.byte]

/-- The number with four hexadecimal digits. -/
def code (a b c d : HexDigit) : Nat :=
  ((a.value * 16 + b.value) * 16 + c.value) * 16 + d.value

/-- The code of a character that is written in two halves. -/
def joined (high low : Nat) : Nat :=
  0x10000 + (high - 0xD800) * 0x400 + (low - 0xDC00)

open Read in
/-- The bytes that strokes stand for. Half a character stands for nothing, but for one of its own
with the other half behind it. -/
def content? : List Stroke → Option Bytes
  | [] => some []
  | plain b _ :: rest => (content? rest).map ([b] ++ ·)
  | short _ byte _ :: rest => (content? rest).map ([byte] ++ ·)
  | coded a b c d :: rest =>
      if isLowHalf (code a b c d) then none
      else if isHighHalf (code a b c d) then
        match rest with
        | coded a' b' c' d' :: rest =>
            if isLowHalf (code a' b' c' d') then
              (content? rest).map (charBytes (joined (code a b c d) (code a' b' c' d')) ++ ·)
            else none
        | _ => none
      else (content? rest).map (charBytes (code a b c d) ++ ·)

/-- The text that strokes stand for, if they stand for one. -/
def string? (strokes : List Stroke) : Option String :=
  (content? strokes).bind Bytes.toString?

/-- The strokes up to the quote that closes them. -/
def closed (strokes : List Stroke) : Bytes :=
  strokes.flatMap bytes ++ [Mark.quote]

/-- How bytes are written that need no escapes. -/
def plainly (content : Bytes) : List Stroke :=
  content.filterMap fun b =>
    if hplain : b ≠ Mark.quote ∧ b ≠ Mark.backslash ∧ ¬b < Mark.space then some (plain b hplain)
    else none

end Stroke

/-- At least one decimal digit. -/
structure Digits where
  bytes : Bytes
  nonempty : bytes ≠ []
  digits : ∀ b ∈ bytes, Read.isDigit b = true

def Digits.ofAll (bytes : Bytes) (hsome : bytes ≠ []) (hall : bytes.all Read.isDigit = true) :
    Digits :=
  ⟨bytes, hsome, List.all_eq_true.mp hall⟩

def Digits.values (digits : Digits) : List Nat :=
  digits.bytes.map digitValue

/-- A power of ten as it is written behind a number. -/
structure WrittenPower where
  letter : UInt8
  sign : Bytes
  digits : Digits
  letter_mem : letter = Mark.smallE ∨ letter = Mark.capitalE
  sign_mem : sign = [] ∨ sign = [Mark.plus] ∨ sign = [Mark.minus]

/-- A number as it is written. Only zero begins with a zero. -/
structure WrittenNumber where
  isNegative : Bool
  whole : Digits
  places : Option Digits
  power : Option WrittenPower
  zero_first : whole.bytes.head? = some Mark.zero → whole.bytes = [Mark.zero]

namespace WrittenNumber

def placesBytes : Option Digits → Bytes
  | none => []
  | some places => Mark.point :: places.bytes

def powerBytes : Option WrittenPower → Bytes
  | none => []
  | some power => power.letter :: (power.sign ++ power.digits.bytes)

def unsigned (number : WrittenNumber) : Bytes :=
  number.whole.bytes ++ (placesBytes number.places ++ powerBytes number.power)

def bytes (number : WrittenNumber) : Bytes :=
  if number.isNegative then Mark.minus :: number.unsigned else number.unsigned

def numeral (number : WrittenNumber) : Numeral where
  whole := number.whole.values
  places := number.places.map Digits.values
  power := number.power.map fun power => (power.sign == [Mark.minus], power.digits.values)

def zero : WrittenNumber where
  isNegative := false
  whole := .ofAll [Mark.zero] (by decide) (by decide)
  places := none
  power := none
  zero_first _ := rfl

end WrittenNumber

/-- A JSON value as it is written, but for the space between its tokens. -/
inductive Form where
  | null
  | bool (b : Bool)
  | number (number : WrittenNumber)
  | text (strokes : List Stroke)
  | array (items : List Form)
  | object (members : List (List Stroke × Form))

namespace Form

/-- A member of an object: its name and its value. -/
abbrev Member := List Stroke × Form

/-- The comma in front of an item or member, unless it is the first. -/
def lead (isFirst : Bool) : List Bytes :=
  if isFirst then [] else [[Mark.comma]]

mutual

/-- The tokens that a value is written with. -/
def tokens : Form → List Bytes
  | null => [Mark.smallN :: Read.nullEnd]
  | bool true => [Mark.smallT :: Read.trueEnd]
  | bool false => [Mark.smallF :: Read.falseEnd]
  | number written => [written.bytes]
  | text strokes => [Mark.quote :: Stroke.closed strokes]
  | array items => [Mark.openArray] :: itemsTokens true items
  | object members => [Mark.openObject] :: membersTokens true members

/-- The tokens of the items of an array, up to its end. -/
def itemsTokens : (isFirst : Bool) → List Form → List Bytes
  | _, [] => [[Mark.closeArray]]
  | isFirst, item :: rest => lead isFirst ++ (tokens item ++ itemsTokens false rest)

/-- The tokens of the members of an object, up to its end. -/
def membersTokens : (isFirst : Bool) → List Member → List Bytes
  | _, [] => [[Mark.closeObject]]
  | isFirst, (name, value) :: rest =>
      lead isFirst ++ ((Mark.quote :: Stroke.closed name) :: [Mark.colon] ::
        (tokens value ++ membersTokens false rest))

end

/-- The byte that a value begins with. -/
def first : Form → UInt8
  | null => Mark.smallN
  | bool true => Mark.smallT
  | bool false => Mark.smallF
  | number written => written.bytes.headD Mark.zero
  | text _ => Mark.quote
  | array _ => Mark.openArray
  | object _ => Mark.openObject

end Form

theorem Stroke.string?_plainly {content : String}
    (hplain : ∀ b ∈ Bytes.ofString content,
      b ≠ Mark.quote ∧ b ≠ Mark.backslash ∧ ¬b < Mark.space) :
    string? (plainly (Bytes.ofString content)) = some content := by
  have hcontent : ∀ {bytes : Bytes},
      (∀ b ∈ bytes, b ≠ Mark.quote ∧ b ≠ Mark.backslash ∧ ¬b < Mark.space) →
        content? (plainly bytes) = some bytes := by
    intro bytes hbytes
    induction bytes with
    | nil => rfl
    | cons b bytes ih =>
        rw [List.forall_mem_cons] at hbytes
        rw [plainly, List.filterMap_cons, dif_pos hbytes.1]
        show content? (plain b hbytes.1 :: plainly bytes) = _
        rw [content?, ih hbytes.2]
        rfl
  rw [string?, hcontent hplain, Option.bind_some, Bytes.toString?_ofString]

/-- Nothing but space. -/
def IsSpaces (bytes : Bytes) : Prop :=
  ∀ b ∈ bytes, Read.isSpace b = true

instance (bytes : Bytes) : Decidable (IsSpaces bytes) :=
  decidable_of_iff (bytes.all Read.isSpace = true) List.all_eq_true

/-- Bytes begin with given tokens, each of which may have space before it, and go on with others. -/
inductive Spaced : (tokens : List Bytes) → (bytes after : Bytes) → Prop where
  | nil (after : Bytes) : Spaced [] after after
  | cons (space token : Bytes) {tokens : List Bytes} {rest after : Bytes} (hspace : IsSpaces space)
      (hrest : Spaced tokens rest after) : Spaced (token :: tokens) (space ++ (token ++ rest)) after

/-- A text is written in a given form, with any space before, between and behind its tokens. -/
def Form.Spells (form : Form) (text : Bytes) : Prop :=
  ∃ after, Spaced form.tokens text after ∧ IsSpaces after

theorem Spaced.append {front back : List Bytes} {bytes mid after : Bytes}
    (hfront : Spaced front bytes mid) (hback : Spaced back mid after) :
    Spaced (front ++ back) bytes after := by
  induction hfront with
  | nil => exact hback
  | cons space token hspace _ ih => exact .cons space token hspace (ih hback)

theorem Spaced.of_append {front back : List Bytes} {bytes after : Bytes}
    (hspaced : Spaced (front ++ back) bytes after) :
    ∃ mid, Spaced front bytes mid ∧ Spaced back mid after := by
  induction front generalizing bytes with
  | nil => exact ⟨bytes, .nil bytes, hspaced⟩
  | cons token front ih =>
      rw [List.cons_append] at hspaced
      cases hspaced with
      | cons space _ hspace hrest =>
          obtain ⟨mid, hfront, hback⟩ := ih hrest
          exact ⟨mid, .cons space token hspace hfront, hback⟩

theorem Spaced.length_le {tokens : List Bytes} {bytes after : Bytes}
    (hspaced : Spaced tokens bytes after) : after.length ≤ bytes.length := by
  induction hspaced with
  | nil => exact Nat.le_refl _
  | cons space token _ _ ih =>
      rw [List.length_append, List.length_append]
      omega

theorem spaced_flatten (tokens : List Bytes) (after : Bytes) :
    Spaced tokens (tokens.flatten ++ after) after := by
  induction tokens with
  | nil => exact .nil after
  | cons token tokens ih =>
      rw [List.flatten_cons, List.append_assoc]
      exact .cons [] token nofun ih

/-- The bytes behind tokens that may have space before them. -/
def afterTokens? : List Bytes → Bytes → Option Bytes
  | [], bytes => some bytes
  | token :: tokens, bytes =>
      if token <+: Read.skipSpace bytes then
        afterTokens? tokens ((Read.skipSpace bytes).drop token.length)
      else none

theorem spaced_of_afterTokens? {tokens : List Bytes} {bytes after : Bytes}
    (hafter : afterTokens? tokens bytes = some after) : Spaced tokens bytes after := by
  induction tokens generalizing bytes with
  | nil =>
      obtain rfl := Option.some.inj hafter
      exact .nil _
  | cons token tokens ih =>
      rw [afterTokens?] at hafter
      split at hafter
      · rename_i hprefix
        have hbytes : bytes = bytes.takeWhile Read.isSpace ++
            (token ++ (Read.skipSpace bytes).drop token.length) := by
          rw [List.prefix_iff_eq_append.mp hprefix]
          exact List.takeWhile_append_dropWhile.symm
        rw [hbytes]
        exact .cons _ token (fun _ hb => List.mem_takeWhile_imp hb) (ih hafter)
      · nomatch hafter

theorem Form.spells_of_afterTokens? {form : Form} {text after : Bytes}
    (hafter : afterTokens? form.tokens text = some after) (hspaces : IsSpaces after) :
    form.Spells text :=
  ⟨after, spaced_of_afterTokens? hafter, hspaces⟩

theorem WrittenNumber.exists_unsigned (number : WrittenNumber) :
    ∃ b rest, number.unsigned = b :: rest ∧ Read.isDigit b = true := by
  obtain ⟨b, rest, hwhole⟩ := List.exists_cons_of_ne_nil number.whole.nonempty
  have hdigit := number.whole.digits b (by rw [hwhole]; exact List.mem_cons_self)
  exact ⟨b, _, by rw [unsigned, hwhole, List.cons_append], hdigit⟩

theorem WrittenNumber.exists_bytes (number : WrittenNumber) :
    ∃ b rest, number.bytes = b :: rest ∧ Read.startsNumber b = true := by
  unfold bytes
  split
  · exact ⟨_, _, rfl, by decide⟩
  · obtain ⟨b, rest, hunsigned, hdigit⟩ := number.exists_unsigned
    exact ⟨b, rest, hunsigned, by rw [Read.startsNumber, hdigit, Bool.or_true]⟩

theorem WrittenNumber.bytes_cases {number : WrittenNumber} {b : UInt8} {tail : Bytes}
    (hbytes : number.bytes = b :: tail) :
    (number.isNegative = true ∧ b = Mark.minus ∧ number.unsigned = tail) ∨
      (number.isNegative = false ∧ b ≠ Mark.minus ∧ Read.isDigit b = true ∧
        number.unsigned = b :: tail) := by
  unfold bytes at hbytes
  split at hbytes
  · rename_i hsign
    obtain ⟨rfl, rfl⟩ := List.cons.inj hbytes
    exact .inl ⟨hsign, rfl, rfl⟩
  · rename_i hsign
    obtain ⟨b', tail', hunsigned, hdigit⟩ := number.exists_unsigned
    obtain ⟨rfl, rfl⟩ := List.cons.inj (hunsigned.symm.trans hbytes)
    refine .inr ⟨Bool.eq_false_iff.mpr hsign, ?_, hdigit, hbytes⟩
    rintro rfl
    exact absurd hdigit (by decide)

theorem Form.first_number_ne (written : WrittenNumber) {b : UInt8}
    (hb : Read.startsNumber b = false) : (Form.number written).first ≠ b := by
  obtain ⟨b', rest, hbytes, hstarts⟩ := written.exists_bytes
  rw [Form.first, hbytes, List.headD_cons]
  rintro rfl
  exact absurd hstarts (Bool.eq_false_iff.mp hb)

namespace Form

theorem exists_tokens (form : Form) :
    ∃ tail more, form.tokens = (form.first :: tail) :: more ∧ Read.isSpace form.first = false ∧
      form.first ≠ Mark.closeArray := by
  match form with
  | null => exact ⟨_, _, by rw [tokens, first], by decide⟩
  | bool true => exact ⟨_, _, by rw [tokens, first], by decide⟩
  | bool false => exact ⟨_, _, by rw [tokens, first], by decide⟩
  | text strokes => exact ⟨_, _, by rw [tokens, first], rfl, (by decide : Mark.quote ≠ _)⟩
  | array items => exact ⟨_, _, by rw [tokens, first], rfl, (by decide : Mark.openArray ≠ _)⟩
  | object members => exact ⟨_, _, by rw [tokens, first], rfl, (by decide : Mark.openObject ≠ _)⟩
  | number written =>
      obtain ⟨b, rest, hbytes, hstarts⟩ := written.exists_bytes
      have hfirst : (number written).first = b := by rw [first, hbytes, List.headD_cons]
      obtain ⟨hspace, hclose, -⟩ := Read.startsNumber_ne hstarts
      rw [hfirst]
      exact ⟨rest, [], by rw [tokens, hbytes], hspace, hclose⟩

end Form

namespace Read

theorem skipSpace_spaces {space : Bytes} (hspace : IsSpaces space) (bytes : Bytes) :
    skipSpace (space ++ bytes) = skipSpace bytes := by
  induction space with
  | nil => rfl
  | cons b space ih =>
      rw [IsSpaces, List.forall_mem_cons] at hspace
      rw [List.cons_append, skipSpace, List.dropWhile_cons_of_pos hspace.1]
      exact ih hspace.2

theorem first?_eq_none_iff {bytes : Bytes} : first? bytes = none ↔ IsSpaces bytes := by
  have hskip : skipSpace bytes = [] ↔ IsSpaces bytes := List.dropWhile_eq_nil_iff
  rw [← hskip]
  unfold first?
  split
  · rename_i hnone
    exact ⟨fun _ => hnone, fun _ => rfl⟩
  · rename_i hsome
    exact ⟨nofun, fun hnone => nomatch hsome.symm.trans hnone⟩

theorem finds_next_of_spaced {b : UInt8} {tail bytes after : Bytes} {more : List Bytes}
    (hspaced : Spaced ((b :: tail) :: more) bytes after) (hb : isSpace b = false) :
    ∃ mid, Spaced more mid after ∧ Finds next bytes b (tail ++ mid) := by
  cases hspaced with
  | @cons space _ _ mid _ hspace hrest =>
      refine ⟨mid, hrest, finds_next_of_skipSpace ?_⟩
      rw [skipSpace_spaces hspace, List.cons_append]
      exact List.dropWhile_cons_of_neg (by simp [hb])

theorem next_mark {b : UInt8} {bytes after : Bytes} {more : List Bytes}
    (hspaced : Spaced ([b] :: more) bytes after) (hb : isSpace b = false) :
    ∃ rest : Rest bytes, next bytes = .ok (b, rest) ∧ Spaced more rest.val after := by
  obtain ⟨mid, hmore, rest, hnext, hrest⟩ := finds_next_of_spaced hspaced hb
  exact ⟨rest, hnext, by rw [hrest]; exact hmore⟩

theorem next_token {b : UInt8} {tail bytes after : Bytes} {more : List Bytes}
    (hspaced : Spaced ((b :: tail) :: more) bytes after) (hb : isSpace b = false) :
    ∃ rest : Rest bytes, next bytes = .ok (b, rest) ∧
      Spaced ((b :: tail) :: more) (b :: rest.val) after := by
  obtain ⟨mid, hmore, rest, hnext, hrest⟩ := finds_next_of_spaced hspaced hb
  refine ⟨rest, hnext, ?_⟩
  rw [hrest, ← List.cons_append]
  exact .cons [] _ nofun hmore

theorem ends_of_spaced {b : UInt8} {tail bytes after : Bytes} {more : List Bytes}
    (hspaced : Spaced ((b :: tail) :: more) bytes after) (hdigit : isDigit b = false)
    (hmark : b ≠ Mark.point ∧ b ≠ Mark.smallE ∧ b ≠ Mark.capitalE) : Ends bytes := by
  cases hspaced with
  | cons space _ hspace _ =>
      cases space with
      | nil => exact ends_cons hdigit hmark
      | cons b space => exact ends_space (hspace b List.mem_cons_self) _

theorem ends_items {items : List Form} {bytes after : Bytes}
    (hspaced : Spaced (Form.itemsTokens false items) bytes after) : Ends bytes := by
  cases items with
  | nil => exact ends_of_spaced hspaced (by decide) (by decide)
  | cons item items => exact ends_of_spaced hspaced (by decide) (by decide)

theorem ends_members {members : List Form.Member} {bytes after : Bytes}
    (hspaced : Spaced (Form.membersTokens false members) bytes after) : Ends bytes := by
  cases members with
  | nil => exact ends_of_spaced hspaced (by decide) (by decide)
  | cons member members => exact ends_of_spaced hspaced (by decide) (by decide)

/-- What was read, and the bytes behind it. -/
def found {α : Type} {bytes : Bytes} :
    Except ReadError (α × Rest bytes) → Option (α × Bytes)
  | .error _ => none
  | .ok (value, rest) => some (value, rest.val)

/-- A reader makes one and the same thing of given tokens, or of them nothing at all: however they
are spaced, and whatever follows them. -/
def Reads {α : Type} (reader : Reader α) (tokens : List Bytes) (value? : Option α) : Prop :=
  ∀ bytes after : Bytes, Spaced tokens bytes after → Ends after →
    found (reader bytes) = value?.map (·, after)

/-- What a reader makes of tokens that stand alone. -/
def told {α : Type} (reader : Reader α) (tokens : List Bytes) : Option α :=
  (found (reader tokens.flatten)).map (·.1)

theorem found_eq_some_iff {α : Type} {bytes after : Bytes} {value : α}
    {result : Except ReadError (α × Rest bytes)} :
    found result = some (value, after) ↔
      ∃ rest, result = .ok (value, rest) ∧ rest.val = after := by
  cases result with
  | error e => simp [found]
  | ok result => simp [found, Prod.ext_iff, and_assoc]

theorem found_eq_none_iff {α : Type} {bytes : Bytes} {result : Except ReadError (α × Rest bytes)} :
    found result = none ↔ ∃ e, result = .error e := by
  cases result with
  | error e => simp [found]
  | ok result => simp [found]

theorem Reads.told_eq {α : Type} {reader : Reader α} {tokens : List Bytes} {value? : Option α}
    (hreads : Reads reader tokens value?) : told reader tokens = value? := by
  have hfound := hreads _ _ (spaced_flatten tokens []) nofun
  rw [List.append_nil] at hfound
  rw [told, hfound, Option.map_map]
  exact Option.map_id'

theorem Reads.told {α : Type} {reader : Reader α} {tokens : List Bytes} {value? : Option α}
    (hreads : Reads reader tokens value?) : Reads reader tokens (told reader tokens) := by
  rw [hreads.told_eq]
  exact hreads

end Read

end RoutedSession.Json
