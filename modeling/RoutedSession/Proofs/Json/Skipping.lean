import RoutedSession.Proofs.Json.Tokens

namespace RoutedSession.Json

open Read

/-- What a value opens, if it is an array or object. -/
def Form.bracket? : Form → Option Bracket
  | array _ => some .array
  | object _ => some .object
  | null | bool _ | number _ | text _ => none

/-- The tokens behind what a value opens. -/
def Form.inner : Form → List Bytes
  | array items => itemsTokens true items
  | object members => membersTokens true members
  | null | bool _ | number _ | text _ => []

namespace Read

variable {bytes after : Bytes}

theorem exists_word_of_spaced {b : UInt8} {expected : Bytes}
    (hspaced : Spaced [b :: expected] bytes after) (hb : isSpace b = false) :
    ∃ (rest : Rest bytes) (left : Left rest.val), next bytes = .ok (b, rest) ∧
      word expected rest.val = .ok left ∧ left.val = after := by
  obtain ⟨mid, hmid, rest, hnext, hrest⟩ := finds_next_of_spaced hspaced hb
  cases hmid
  have hword := word_append expected after
  rw [← hrest] at hword
  obtain ⟨left, hread, hleft⟩ := hword
  exact ⟨rest, left, hnext, hread, hleft⟩

theorem skipStart_null (hspaced : Spaced [Mark.smallN :: nullEnd] bytes after) :
    Finds skipStart bytes none after := by
  obtain ⟨rest, left, hnext, hword, hleft⟩ := exists_word_of_spaced hspaced (by decide)
  refine ⟨rest.upTo left, ?_, hleft⟩
  simp only [skipStart, hnext, bind, Except.bind, if_true, hword]
  rfl

theorem skipStart_true (hspaced : Spaced [Mark.smallT :: trueEnd] bytes after) :
    Finds skipStart bytes none after := by
  obtain ⟨rest, left, hnext, hword, hleft⟩ := exists_word_of_spaced hspaced (by decide)
  refine ⟨rest.upTo left, ?_, hleft⟩
  simp only [skipStart, hnext, bind, Except.bind]
  rw [if_neg (by decide), if_true]
  simp only [hword]
  rfl

theorem skipStart_false (hspaced : Spaced [Mark.smallF :: falseEnd] bytes after) :
    Finds skipStart bytes none after := by
  obtain ⟨rest, left, hnext, hword, hleft⟩ := exists_word_of_spaced hspaced (by decide)
  refine ⟨rest.upTo left, ?_, hleft⟩
  simp only [skipStart, hnext, bind, Except.bind]
  rw [if_neg (by decide), if_neg (by decide), if_true]
  simp only [hword]
  rfl

theorem skipStart_text {strokes : List Stroke}
    (hspaced : Spaced [Mark.quote :: Stroke.closed strokes] bytes after) :
    Finds skipStart bytes none after := by
  obtain ⟨mid, hmid, rest, hnext, hrest⟩ := finds_next_of_spaced hspaced (by decide)
  cases hmid
  obtain ⟨left, hskip, hleft⟩ :=
    exists_skipText rest.val strokes after rest.val (Nat.le_refl _) hrest
  refine ⟨rest.andThen left, ?_, hleft⟩
  simp only [skipStart, hnext, bind, Except.bind]
  rw [if_neg (by decide), if_neg (by decide), if_neg (by decide), if_neg (by decide),
    if_neg (by decide), if_true]
  simp only [hskip]
  rfl

theorem skipStart_number {written : WrittenNumber}
    (hspaced : Spaced [written.bytes] bytes after) (hafter : Ends after) :
    Finds skipStart bytes none after := by
  obtain ⟨b, tail, hbytes, hstarts⟩ := written.exists_bytes
  obtain ⟨hspace, -, hnull, htrue, hfalse⟩ := startsNumber_ne hstarts
  rw [hbytes] at hspaced
  obtain ⟨mid, hmid, rest, hnext, hrest⟩ := finds_next_of_spaced hspaced hspace
  cases hmid
  have hread := finds_unsigned written hafter
  rcases WrittenNumber.bytes_cases hbytes with ⟨-, rfl, hunsigned⟩ |
    ⟨-, hminus, hdigit, hunsigned⟩
  · rw [hunsigned, ← hrest] at hread
    obtain ⟨left, hread, hleft⟩ := hread
    refine ⟨rest.andThen left, ?_, hleft⟩
    simp only [skipStart, hnext, bind, Except.bind]
    rw [if_neg hnull, if_neg htrue, if_neg hfalse, if_true]
    simp only [hread, Except.mapError]
    rfl
  · rw [hunsigned, List.cons_append, ← hrest] at hread
    obtain ⟨left, hread, hleft⟩ := hread
    refine ⟨rest.fromFirst left, ?_, hleft⟩
    simp only [skipStart, hnext, bind, Except.bind]
    rw [if_neg hnull, if_neg htrue, if_neg hfalse, if_neg hminus, if_pos hdigit]
    simp only [hread, Except.mapError]
    rfl

theorem exists_skipStart (form : Form) (hspaced : Spaced form.tokens bytes after)
    (hafter : Ends after) :
    ∃ rest : Rest bytes, skipStart bytes = .ok (form.bracket?, rest) ∧
      Spaced form.inner rest.val after := by
  have hwhole : Finds skipStart bytes none after → ∃ rest : Rest bytes,
      skipStart bytes = .ok (none, rest) ∧ Spaced [] rest.val after := by
    rintro ⟨rest, hskip, rfl⟩
    exact ⟨rest, hskip, .nil _⟩
  cases form with
  | null => exact hwhole (skipStart_null hspaced)
  | bool b =>
      cases b with
      | true => exact hwhole (skipStart_true hspaced)
      | false => exact hwhole (skipStart_false hspaced)
  | number written => exact hwhole (skipStart_number hspaced hafter)
  | text strokes => exact hwhole (skipStart_text hspaced)
  | array items =>
      obtain ⟨rest, hnext, hrest⟩ := next_mark hspaced (by decide)
      refine ⟨rest, ?_, hrest⟩
      simp only [skipStart, hnext, bind, Except.bind]
      rw [if_neg (by decide), if_neg (by decide), if_neg (by decide), if_neg (by decide),
        if_neg (by decide), if_neg (by decide), if_true]
      rfl
  | object members =>
      obtain ⟨rest, hnext, hrest⟩ := next_mark hspaced (by decide)
      refine ⟨rest, ?_, hrest⟩
      simp only [skipStart, hnext, bind, Except.bind]
      rw [if_neg (by decide), if_neg (by decide), if_neg (by decide), if_neg (by decide),
        if_neg (by decide), if_neg (by decide), if_neg (by decide), if_true]
      rfl

theorem exists_itemStart (bracket : Bracket) {isFirst : Bool} {b : UInt8} {tail : Bytes}
    {more : List Bytes} (hspaced : Spaced (Form.lead isFirst ++ (b :: tail) :: more) bytes after)
    (hspace : isSpace b = false) (hclose : b ≠ bracket.close) :
    ∃ (c : UInt8) (rest : Rest bytes)
        (start : { start : Bytes // start.length ≤ rest.val.length + 1 }),
      next bytes = .ok (c, rest) ∧ c ≠ bracket.close ∧ itemStart isFirst c rest.val = .ok start ∧
        Spaced ((b :: tail) :: more) start.val after := by
  cases isFirst with
  | true =>
      obtain ⟨rest, hnext, hrest⟩ := next_token hspaced hspace
      exact ⟨b, rest, ⟨b :: rest.val, by simp⟩, hnext, hclose, rfl, hrest⟩
  | false =>
      have hcomma : Mark.comma ≠ bracket.close := by cases bracket <;> decide
      obtain ⟨rest, hnext, hrest⟩ := next_mark hspaced (by decide)
      exact ⟨Mark.comma, rest, ⟨rest.val, by simp⟩, hnext, hcomma, rfl, hrest⟩

theorem exists_skipName {name : List Stroke} {more : List Bytes}
    (hspaced : Spaced ((Mark.quote :: Stroke.closed name) :: [Mark.colon] :: more) bytes after) :
    ∃ left : Left bytes, skipName .object bytes = .ok left ∧ Spaced more left.val after := by
  obtain ⟨mid, hmid, rest, hnext, hrest⟩ := finds_next_of_spaced hspaced (by decide)
  obtain ⟨closed, hskip, hclosed⟩ := exists_skipText rest.val name mid rest.val rest.le_self hrest
  rw [← hclosed] at hmid
  obtain ⟨last, hcolon, hlast⟩ := next_mark hmid (by decide)
  refine ⟨((rest.andThen closed).andThen last).left, ?_, hlast⟩
  simp only [skipName, hnext, bind, Except.bind, if_true, hskip, hcolon]
  rfl

theorem skipOpened_close (bracket : Bracket) {outer : Bytes} {isFirst : Bool}
    {enclosing : List Bracket} (hspaced : Spaced [[bracket.close]] bytes after)
    (hwithin : bytes.length < outer.length) (hwithin' : after.length < outer.length) :
    skipOpened outer isFirst (bracket :: enclosing) bytes hwithin =
      skipOpened outer false enclosing after hwithin' := by
  have hspace : isSpace bracket.close = false := by cases bracket <;> decide
  obtain ⟨rest, hnext, hrest⟩ := next_mark hspaced hspace
  rw [skipOpened]
  simp only [hnext, if_true]
  cases hrest
  rfl

end Read

open Read

variable {outer bytes after : Bytes} {isFirst : Bool} {enclosing : List Bracket}

mutual

theorem exists_skipOpened : (form : Form) → {bytes after : Bytes} →
    Spaced form.tokens bytes after → Ends after → (enclosing : List Bracket) →
      ∃ rest : Rest bytes, skipStart bytes = .ok (form.bracket?, rest) ∧
        ∀ (hwithin : rest.val.length < outer.length) (hwithin' : after.length < outer.length),
          skipOpened outer form.bracket?.isSome (form.bracket?.toList ++ enclosing) rest.val
              hwithin =
            skipOpened outer false enclosing after hwithin'
  | .array items, _, _, hspaced, hafter, _ => by
      obtain ⟨rest, hskip, hinner⟩ := exists_skipStart _ hspaced hafter
      exact ⟨rest, hskip, skipOpened_items items hinner⟩
  | .object members, _, _, hspaced, hafter, _ => by
      obtain ⟨rest, hskip, hinner⟩ := exists_skipStart _ hspaced hafter
      exact ⟨rest, hskip, skipOpened_members members hinner⟩
  | .null, _, _, hspaced, hafter, _ => by
      obtain ⟨rest, hskip, hinner⟩ := exists_skipStart _ hspaced hafter
      cases hinner
      exact ⟨rest, hskip, fun _ _ => rfl⟩
  | .bool _, _, _, hspaced, hafter, _ => by
      obtain ⟨rest, hskip, hinner⟩ := exists_skipStart _ hspaced hafter
      cases hinner
      exact ⟨rest, hskip, fun _ _ => rfl⟩
  | .number _, _, _, hspaced, hafter, _ => by
      obtain ⟨rest, hskip, hinner⟩ := exists_skipStart _ hspaced hafter
      cases hinner
      exact ⟨rest, hskip, fun _ _ => rfl⟩
  | .text _, _, _, hspaced, hafter, _ => by
      obtain ⟨rest, hskip, hinner⟩ := exists_skipStart _ hspaced hafter
      cases hinner
      exact ⟨rest, hskip, fun _ _ => rfl⟩

theorem skipOpened_items : (items : List Form) → {bytes after : Bytes} → {isFirst : Bool} →
    Spaced (Form.itemsTokens isFirst items) bytes after → {enclosing : List Bracket} →
      ∀ (hwithin : bytes.length < outer.length) (hwithin' : after.length < outer.length),
        skipOpened outer isFirst (.array :: enclosing) bytes hwithin =
          skipOpened outer false enclosing after hwithin'
  | [], _, _, _, hspaced, _, hwithin, hwithin' => skipOpened_close .array hspaced hwithin hwithin'
  | item :: items, bytes, after, isFirst, hspaced, enclosing, hwithin, hwithin' => by
      obtain ⟨tail, more, htokens, hspace, hclose⟩ := item.exists_tokens
      rw [Form.itemsTokens, htokens, List.cons_append] at hspaced
      obtain ⟨c, rest, start, hnext, hother, hstart, hitem⟩ :=
        exists_itemStart .array hspaced hspace hclose
      rw [← List.cons_append, ← htokens] at hitem
      obtain ⟨mid, hitem, hitems⟩ := hitem.of_append
      obtain ⟨named, hskip, hnamed⟩ :=
        exists_skipOpened item hitem (ends_items hitems) (.array :: enclosing)
      have hlength := hitem.length_le
      have hmid : mid.length < outer.length := by
        have := rest.property
        have := start.property
        omega
      rw [skipOpened]
      simp only [hnext, if_neg hother, hstart, skipName, Left.all, hskip]
      exact (hnamed _ hmid).trans (skipOpened_items items hitems hmid hwithin')

theorem skipOpened_members : (members : List Form.Member) → {bytes after : Bytes} →
    {isFirst : Bool} → Spaced (Form.membersTokens isFirst members) bytes after →
      {enclosing : List Bracket} →
        ∀ (hwithin : bytes.length < outer.length) (hwithin' : after.length < outer.length),
          skipOpened outer isFirst (.object :: enclosing) bytes hwithin =
            skipOpened outer false enclosing after hwithin'
  | [], _, _, _, hspaced, _, hwithin, hwithin' => skipOpened_close .object hspaced hwithin hwithin'
  | (name, value) :: members, bytes, after, isFirst, hspaced, enclosing, hwithin, hwithin' => by
      rw [Form.membersTokens] at hspaced
      obtain ⟨c, rest, start, hnext, hother, hstart, hmember⟩ :=
        exists_itemStart .object hspaced (by decide) (by decide)
      obtain ⟨named, hname, hvalue⟩ := exists_skipName hmember
      obtain ⟨mid, hvalue, hmembers⟩ := hvalue.of_append
      obtain ⟨begun, hskip, hbegun⟩ :=
        exists_skipOpened value hvalue (ends_members hmembers) (.object :: enclosing)
      have hlength := hvalue.length_le
      have hmid : mid.length < outer.length := by
        have := rest.property
        have := start.property
        have := named.property
        omega
      rw [skipOpened]
      simp only [hnext, if_neg hother, hstart, hname, hskip]
      exact (hbegun _ hmid).trans (skipOpened_members members hmembers hmid hwithin')

end

/-- A value of any form and depth is passed over, and nothing behind it. -/
theorem reads_skipValue (form : Form) : Reads skipValue form.tokens (some ()) := by
  intro bytes after hspaced hafter
  have hshort : after.length < bytes.length := by
    obtain ⟨tail, more, htokens, hspace, -⟩ := form.exists_tokens
    rw [htokens] at hspaced
    obtain ⟨mid, hmid, rest, -, hrest⟩ := finds_next_of_spaced hspaced hspace
    have hlength := hmid.length_le
    have := rest.property
    rw [hrest, List.length_append] at this
    omega
  obtain ⟨rest, hskip, hopened⟩ := exists_skipOpened form hspaced hafter []
  have hread := hopened rest.lt hshort
  have hend : skipOpened bytes true form.bracket?.toList rest.val rest.lt =
      .ok ⟨after, hshort⟩ := by
    have hnil : skipOpened bytes false [] after hshort = .ok ⟨after, hshort⟩ := by rw [skipOpened]
    rw [List.append_nil, hnil] at hread
    cases hbracket : form.bracket? with
    | none =>
        rw [hbracket, Option.toList_none, skipOpened] at hread
        rw [Option.toList_none, skipOpened, hread]
    | some bracket =>
        rw [hbracket] at hread
        exact hread
  simp only [skipValue, hskip, hend, bind, Except.bind]
  rfl

end RoutedSession.Json
