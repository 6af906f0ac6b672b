import RoutedSession.Proofs.Json.Forms

namespace RoutedSession.Json.Read

variable {α σ : Type} {bytes after : Bytes}

/-- A reader accepts nothing but values of some form. -/
def Sound (reader : Reader α) : Prop :=
  ∀ (bytes : Bytes) (value : α) (rest : Rest bytes), reader bytes = .ok (value, rest) →
    ∃ form : Form, Spaced form.tokens bytes rest.val

theorem exists_of_bind {β : Type} {first : Except ReadError α} {next : α → Except ReadError β}
    {value : β} (hread : (first >>= next) = .ok value) :
    ∃ begun, first = .ok begun ∧ next begun = .ok value := by
  cases first with
  | error e => cases hread
  | ok begun => exact ⟨begun, rfl, hread⟩

theorem exists_space_of_next {b : UInt8} {rest : Rest bytes} (hnext : next bytes = .ok (b, rest)) :
    ∃ space, IsSpaces space ∧ bytes = space ++ b :: rest.val := by
  have hskip : skipSpace bytes = b :: rest.val := by
    unfold next first? at hnext
    split at hnext
    · cases hnext
    · rename_i found hfound
      obtain rfl := Except.ok.inj hnext
      split at hfound
      · cases hfound
      · rename_i hskip
        obtain ⟨rfl, rfl⟩ := Prod.mk.inj (Option.some.inj hfound)
        exact hskip
  refine ⟨bytes.takeWhile isSpace, fun b hb => List.mem_takeWhile_imp hb, ?_⟩
  rw [← hskip]
  exact List.takeWhile_append_dropWhile.symm

theorem spaced_of_next {b : UInt8} {rest : Rest bytes} {tail mid : Bytes} {more : List Bytes}
    (hnext : next bytes = .ok (b, rest)) (hrest : rest.val = tail ++ mid)
    (hmore : Spaced more mid after) : Spaced ((b :: tail) :: more) bytes after := by
  obtain ⟨space, hspace, hbytes⟩ := exists_space_of_next hnext
  rw [hbytes, hrest]
  exact .cons space (b :: tail) hspace hmore

theorem spaced_of_next_token {b : UInt8} {rest : Rest bytes} {token : Bytes} {more : List Bytes}
    (hnext : next bytes = .ok (b, rest)) (hspaced : Spaced (token :: more) (b :: rest.val) after) :
    Spaced (token :: more) bytes after := by
  obtain ⟨space, hspace, hbytes⟩ := exists_space_of_next hnext
  rw [hbytes]
  generalize b :: rest.val = begun at hspaced
  cases hspaced with
  | cons space' _ hspace' hmore =>
      rw [← List.append_assoc]
      refine .cons (space ++ space') token ?_ hmore
      exact List.forall_mem_append.mpr ⟨hspace, hspace'⟩

theorem eq_append_of_word {expected : Bytes} {left : Left bytes}
    (hword : word expected bytes = .ok left) : bytes = expected ++ left.val := by
  induction expected generalizing bytes with
  | nil =>
      obtain rfl := Except.ok.inj hword
      rfl
  | cons e expected ih =>
      cases bytes with
      | nil => cases hword
      | cons b bytes =>
          rw [word] at hword
          split at hword
          · rename_i hb
            split at hword
            · cases hword
            · rename_i left' hleft
              obtain rfl := Except.ok.inj hword
              rw [hb]
              exact congrArg (e :: ·) (ih hleft)
          · cases hword

theorem exists_hexCode {code : Nat} {rest : Rest bytes} (hread : hexCode bytes = .ok (code, rest)) :
    ∃ a b c d : HexDigit, bytes = a.byte :: b.byte :: c.byte :: d.byte :: rest.val := by
  unfold hexCode at hread
  split at hread
  · split at hread
    · rename_i ha hb hc hd
      obtain ⟨-, rfl⟩ := Prod.mk.inj (Except.ok.inj hread)
      exact ⟨⟨_, _, ha⟩, ⟨_, _, hb⟩, ⟨_, _, hc⟩, ⟨_, _, hd⟩, rfl⟩
    · cases hread
  · cases hread

theorem mem_shortEscapes {letter byte : UInt8} (hplain : plainEscape? letter = some byte) :
    (letter, byte) ∈ Mark.shortEscapes := by
  obtain ⟨front, back, hlist, -⟩ := List.lookup_eq_some_iff.mp hplain
  rw [hlist]
  exact List.mem_append_right front List.mem_cons_self

theorem exists_stroke {rest : Rest bytes} (hskip : skipEscape bytes = .ok ((), rest)) :
    ∃ stroke : Stroke, Mark.backslash :: bytes = stroke.bytes ++ rest.val := by
  cases bytes with
  | nil => cases hskip
  | cons b bytes =>
      rw [skipEscape] at hskip
      split at hskip
      · rename_i hb
        cases hcode : hexCode bytes with
        | error e =>
            rw [hcode] at hskip
            cases hskip
        | ok result =>
            obtain ⟨code, behind⟩ := result
            rw [hcode] at hskip
            obtain ⟨-, rfl⟩ := Prod.mk.inj (Except.ok.inj hskip)
            obtain ⟨a, b', c, d, hbytes⟩ := exists_hexCode hcode
            exact ⟨.coded a b' c d, by rw [hb, Stroke.bytes]; exact congrArg (_ :: _ :: ·) hbytes⟩
      · split at hskip
        · rename_i hplain
          obtain ⟨byte, hbyte⟩ := Option.isSome_iff_exists.mp hplain
          obtain ⟨-, rfl⟩ := Prod.mk.inj (Except.ok.inj hskip)
          exact ⟨.short b byte (mem_shortEscapes hbyte), rfl⟩
        · cases hskip

theorem eq_cons_of_exactly {expected : UInt8} {rest : Rest bytes}
    (hread : exactly expected bytes = .ok ((), rest)) : bytes = expected :: rest.val := by
  cases bytes with
  | nil => cases hread
  | cons b bytes =>
      rw [exactly] at hread
      split at hread
      · rename_i hb
        obtain ⟨-, rfl⟩ := Prod.mk.inj (Except.ok.inj hread)
        exact congrArg (· :: bytes) hb
      · cases hread

theorem exists_coded {char : Bytes} {rest : Rest bytes}
    (hread : codedChar bytes = .ok (char, rest)) :
    ∃ strokes : List Stroke,
      Mark.backslash :: Mark.smallU :: bytes = strokes.flatMap Stroke.bytes ++ rest.val := by
  obtain ⟨⟨code, first⟩, hfirst, hread⟩ := exists_of_bind hread
  obtain ⟨a, b, c, d, hdigits⟩ := exists_hexCode hfirst
  dsimp only at hread
  split at hread
  · cases hread
  · split at hread
    · obtain ⟨⟨⟨⟩, second⟩, hslash, hread⟩ := exists_of_bind hread
      obtain ⟨⟨⟨⟩, third⟩, hletter, hread⟩ := exists_of_bind hread
      obtain ⟨⟨low, fourth⟩, hcode, hread⟩ := exists_of_bind hread
      obtain ⟨a', b', c', d', hdigits'⟩ := exists_hexCode hcode
      dsimp only at hread
      split at hread
      · obtain ⟨-, rfl⟩ := Prod.mk.inj (Except.ok.inj hread)
        refine ⟨[.coded a b c d, .coded a' b' c' d'], ?_⟩
        have hsecond := eq_cons_of_exactly hslash
        have hthird := eq_cons_of_exactly hletter
        dsimp only at hthird hdigits'
        show Mark.backslash :: Mark.smallU :: bytes = _ :: _ :: _ :: _ :: _ :: _ ::
          Mark.backslash :: Mark.smallU :: _ :: _ :: _ :: _ :: fourth.val
        rw [← hdigits', ← hthird, ← hsecond, ← hdigits]
      · cases hread
    · obtain ⟨-, rfl⟩ := Prod.mk.inj (Except.ok.inj hread)
      exact ⟨[.coded a b c d], congrArg (_ :: _ :: ·) hdigits⟩

theorem exists_strokes {char : Bytes} {rest : Rest bytes}
    (hread : escape bytes = .ok (char, rest)) :
    ∃ strokes : List Stroke,
      Mark.backslash :: bytes = strokes.flatMap Stroke.bytes ++ rest.val := by
  cases bytes with
  | nil => cases hread
  | cons b bytes =>
      rw [escape] at hread
      split at hread
      · rename_i hb
        cases hcoded : codedChar bytes with
        | error e =>
            rw [hcoded] at hread
            cases hread
        | ok result =>
            rw [hcoded] at hread
            obtain ⟨-, rfl⟩ := Prod.mk.inj (Except.ok.inj hread)
            obtain ⟨strokes, hbytes⟩ := exists_coded hcoded
            exact ⟨strokes, by rw [hb]; exact hbytes⟩
      · split at hread
        · rename_i byte hplain
          obtain ⟨-, rfl⟩ := Prod.mk.inj (Except.ok.inj hread)
          exact ⟨[.short b byte (mem_shortEscapes hplain)], rfl⟩
        · cases hread

theorem append_closed (front back : List Stroke) (after : Bytes) :
    front.flatMap Stroke.bytes ++ (Stroke.closed back ++ after) =
      Stroke.closed (front ++ back) ++ after := by
  simp [Stroke.closed]

theorem exists_closed_of_skipText {outer : Bytes} {hwithin : bytes.length ≤ outer.length}
    {rest : Rest outer} (hskip : skipText outer bytes hwithin = .ok rest) :
    ∃ strokes, bytes = Stroke.closed strokes ++ rest.val := by
  fun_induction skipText outer bytes hwithin with
  | case1 => cases hskip
  | case2 =>
      obtain rfl := Except.ok.inj hskip
      exact ⟨[], rfl⟩
  | case3 => cases hskip
  | case4 bytes after hescape _ _ _ _ ih =>
      obtain ⟨stroke, hstroke⟩ := exists_stroke hescape
      obtain ⟨strokes, hafter⟩ := ih hskip
      refine ⟨stroke :: strokes, ?_⟩
      rw [hstroke, hafter]
      simp [Stroke.closed]
  | case5 => cases hskip
  | case6 b bytes _ _ hquote hslash hspace _ ih =>
      obtain ⟨strokes, hafter⟩ := ih hskip
      exact ⟨.plain b ⟨hquote, hslash, hspace⟩ :: strokes, congrArg (b :: ·) hafter⟩

theorem exists_closed_of_textBytes {outer content : Bytes} {taken : List Bytes}
    {hwithin : bytes.length ≤ outer.length} {rest : Rest outer}
    (hread : textBytes outer taken bytes hwithin = .ok (content, rest)) :
    ∃ strokes, bytes = Stroke.closed strokes ++ rest.val := by
  fun_induction textBytes outer taken bytes hwithin with
  | case1 => cases hread
  | case2 =>
      obtain ⟨-, rfl⟩ := Prod.mk.inj (Except.ok.inj hread)
      exact ⟨[], rfl⟩
  | case3 => cases hread
  | case4 _ bytes char after hescape _ _ _ _ ih =>
      obtain ⟨front, hfront⟩ := exists_strokes hescape
      obtain ⟨strokes, hafter⟩ := ih hread
      refine ⟨front ++ strokes, ?_⟩
      rw [hfront, hafter]
      exact append_closed front strokes rest.val
  | case5 => cases hread
  | case6 _ b bytes _ _ hquote hslash hspace _ ih =>
      obtain ⟨strokes, hafter⟩ := ih hread
      exact ⟨.plain b ⟨hquote, hslash, hspace⟩ :: strokes, congrArg (b :: ·) hafter⟩

theorem exists_closed_of_text {content : String} {rest : Rest bytes}
    (hread : text bytes = .ok (content, rest)) :
    ∃ strokes, bytes = Stroke.closed strokes ++ rest.val := by
  unfold text at hread
  split at hread
  · cases hread
  · rename_i hbytes
    split at hread
    · cases hread
    · obtain ⟨-, rfl⟩ := Prod.mk.inj (Except.ok.inj hread)
      exact exists_closed_of_textBytes hbytes

theorem digits_digitRun (bytes : Bytes) :
    (∀ b ∈ bytes.takeWhile isDigit, isDigit b = true) ∧
      bytes = bytes.takeWhile isDigit ++ (digitRun bytes).2.val :=
  ⟨fun _ hb => List.mem_takeWhile_imp hb, List.takeWhile_append_dropWhile.symm⟩

theorem exists_digits_of_digits {found : List Nat} {left : Left bytes}
    (hread : digits bytes = .ok (found, left)) :
    ∃ written : Digits, bytes = written.bytes ++ left.val := by
  cases bytes with
  | nil => cases hread
  | cons b bytes =>
      rw [digits] at hread
      split at hread
      · rename_i hb
        obtain ⟨hdigits, hbytes⟩ := digits_digitRun (b :: bytes)
        have hleft : (digitRun (b :: bytes)).2 = left :=
          congrArg Prod.snd (Except.ok.inj hread)
        rw [hleft] at hbytes
        exact ⟨⟨_, by simp [hb], hdigits⟩, hbytes⟩
      · cases hread

theorem exists_whole {found : List Nat} {rest : Rest bytes}
    (hread : wholeDigits bytes = .ok (found, rest)) :
    ∃ whole : Digits, (whole.bytes.head? = some Mark.zero → whole.bytes = [Mark.zero]) ∧
      bytes = whole.bytes ++ rest.val := by
  cases bytes with
  | nil => cases hread
  | cons b bytes =>
      rw [wholeDigits] at hread
      split at hread
      · rename_i hb
        split at hread
        · cases hread
        · obtain ⟨-, rfl⟩ := Prod.mk.inj (Except.ok.inj hread)
          refine ⟨.ofAll [Mark.zero] (by decide) (by decide), fun _ => rfl, ?_⟩
          exact congrArg (· :: bytes) hb
      · rename_i hb
        split at hread
        · rename_i hdigit
          obtain ⟨-, rfl⟩ := Prod.mk.inj (Except.ok.inj hread)
          obtain ⟨hdigits, hbytes⟩ := digits_digitRun bytes
          refine ⟨⟨b :: bytes.takeWhile isDigit, List.cons_ne_nil _ _,
            List.forall_mem_cons.mpr ⟨hdigit, hdigits⟩⟩,
            fun hhead => absurd (Option.some.inj hhead) hb, congrArg (b :: ·) hbytes⟩
        · cases hread

theorem exists_places_of_places {found : Option (List Nat)} {left : Left bytes}
    (hread : places bytes = .ok (found, left)) :
    ∃ places?, bytes = WrittenNumber.placesBytes places? ++ left.val := by
  cases bytes with
  | nil =>
      obtain ⟨-, rfl⟩ := Prod.mk.inj (Except.ok.inj hread)
      exact ⟨none, rfl⟩
  | cons b bytes =>
      rw [places] at hread
      split at hread
      · rename_i hb
        split at hread
        · cases hread
        · rename_i after hdigits
          obtain ⟨-, rfl⟩ := Prod.mk.inj (Except.ok.inj hread)
          obtain ⟨written, hbytes⟩ := exists_digits_of_digits hdigits
          refine ⟨some written, ?_⟩
          rw [hb]
          exact congrArg (Mark.point :: ·) hbytes
      · obtain ⟨-, rfl⟩ := Prod.mk.inj (Except.ok.inj hread)
        exact ⟨none, rfl⟩

theorem exists_sign (bytes : Bytes) :
    ∃ sign, (sign = [] ∨ sign = [Mark.plus] ∨ sign = [Mark.minus]) ∧
      bytes = sign ++ (powerSign bytes).2.val := by
  cases bytes with
  | nil => exact ⟨[], .inl rfl, rfl⟩
  | cons b bytes =>
      rw [powerSign]
      split
      · rename_i hb
        refine ⟨[b], .inr ?_, rfl⟩
        rcases hb with rfl | rfl
        · exact .inl rfl
        · exact .inr rfl
      · exact ⟨[], .inl rfl, rfl⟩

theorem exists_power_of_power {found : Option (Bool × List Nat)} {left : Left bytes}
    (hread : power bytes = .ok (found, left)) :
    ∃ power?, bytes = WrittenNumber.powerBytes power? ++ left.val := by
  cases bytes with
  | nil =>
      obtain ⟨-, rfl⟩ := Prod.mk.inj (Except.ok.inj hread)
      exact ⟨none, rfl⟩
  | cons b bytes =>
      rw [power] at hread
      split at hread
      · rename_i hb
        obtain ⟨sign, hsign, hbytes⟩ := exists_sign bytes
        dsimp only at hread
        split at hread
        · cases hread
        · rename_i after hdigits
          obtain ⟨-, rfl⟩ := Prod.mk.inj (Except.ok.inj hread)
          obtain ⟨written, hafter⟩ := exists_digits_of_digits hdigits
          refine ⟨some ⟨b, sign, written, hb, hsign⟩, ?_⟩
          show b :: bytes = b :: (sign ++ written.bytes ++ after.val)
          rw [List.append_assoc, ← hafter, ← hbytes]
      · obtain ⟨-, rfl⟩ := Prod.mk.inj (Except.ok.inj hread)
        exact ⟨none, rfl⟩

theorem exists_unsigned_of_numeral {found : Numeral} {rest : Rest bytes}
    (hread : numeral bytes = .ok (found, rest)) (isNegative : Bool) :
    ∃ written : WrittenNumber, written.isNegative = isNegative ∧
      bytes = written.unsigned ++ rest.val := by
  obtain ⟨⟨_, first⟩, hwhole, hread⟩ := exists_of_bind hread
  obtain ⟨⟨_, second⟩, hplaces, hread⟩ := exists_of_bind hread
  obtain ⟨⟨_, third⟩, hpower, hread⟩ := exists_of_bind hread
  obtain ⟨-, rfl⟩ := Prod.mk.inj (Except.ok.inj hread)
  obtain ⟨whole, hzero, hfirst⟩ := exists_whole hwhole
  obtain ⟨places?, hsecond⟩ := exists_places_of_places hplaces
  obtain ⟨power?, hthird⟩ := exists_power_of_power hpower
  refine ⟨⟨isNegative, whole, places?, power?, hzero⟩, rfl, ?_⟩
  show bytes = whole.bytes ++ (WrittenNumber.placesBytes places? ++
    WrittenNumber.powerBytes power?) ++ third.val
  rw [List.append_assoc, List.append_assoc, ← hthird, ← hsecond, ← hfirst]

theorem spaced_of_eq {token : Bytes} (hbytes : bytes = token ++ after) :
    Spaced [token] bytes after := by
  rw [hbytes]
  exact .cons [] token nofun (.nil after)

section First

variable {found : Numeral} {b : UInt8} {rest : Rest bytes}

theorem exists_negative (hnext : next bytes = .ok (Mark.minus, rest)) {behind : Rest rest.val}
    (hread : numeral rest.val = .ok (found, behind)) :
    ∃ written, Spaced (Form.number written).tokens bytes behind.val := by
  obtain ⟨written, hsign, hunsigned⟩ := exists_unsigned_of_numeral hread true
  refine ⟨written, ?_⟩
  rw [Form.tokens, WrittenNumber.bytes, if_pos hsign]
  exact spaced_of_next hnext hunsigned (.nil _)

theorem exists_positive (hnext : next bytes = .ok (b, rest)) {behind : Rest (b :: rest.val)}
    (hread : numeral (b :: rest.val) = .ok (found, behind)) :
    ∃ written, Spaced (Form.number written).tokens bytes behind.val := by
  obtain ⟨written, hsign, hunsigned⟩ := exists_unsigned_of_numeral hread false
  refine ⟨written, spaced_of_next_token hnext (spaced_of_eq ?_)⟩
  rw [WrittenNumber.bytes, hsign]
  exact hunsigned

theorem exists_number_of_number {value : JsonNumber} {behind : Rest (b :: rest.val)}
    (hnext : next bytes = .ok (b, rest)) (hread : number b rest.val = .ok (value, behind)) :
    ∃ form : Form, Spaced form.tokens bytes behind.val := by
  unfold number at hread
  split at hread
  · rename_i hb
    subst hb
    obtain ⟨⟨_, after⟩, hnumeral, hread⟩ := exists_of_bind hread
    obtain ⟨_, -, hread⟩ := exists_of_bind hread
    obtain ⟨-, rfl⟩ := Prod.mk.inj (Except.ok.inj hread)
    obtain ⟨written, hspaced⟩ := exists_negative hnext hnumeral
    exact ⟨.number written, hspaced⟩
  · obtain ⟨⟨_, after⟩, hnumeral, hread⟩ := exists_of_bind hread
    obtain ⟨_, -, hread⟩ := exists_of_bind hread
    obtain ⟨-, rfl⟩ := Prod.mk.inj (Except.ok.inj hread)
    obtain ⟨written, hspaced⟩ := exists_positive hnext hnumeral
    exact ⟨.number written, hspaced⟩

end First

theorem sound_naturalBelow (bound : Nat) : Sound (naturalBelow bound) := by
  intro bytes value rest hread
  obtain ⟨⟨b, begun⟩, hnext, hread⟩ := exists_of_bind hread
  dsimp only at hread
  split at hread
  · obtain ⟨⟨found, after⟩, hnumber, hread⟩ := exists_of_bind hread
    obtain ⟨form, hspaced⟩ := exists_number_of_number hnext hnumber
    refine ⟨form, ?_⟩
    cases found with
    | float _ => cases hread
    | int value =>
        dsimp only at hread
        split at hread
        · obtain ⟨-, rfl⟩ := Prod.mk.inj (Except.ok.inj hread)
          exact hspaced
        · cases hread
  · cases hread

theorem sound_quoted : Sound quoted := by
  intro bytes value rest hread
  obtain ⟨⟨b, begun⟩, hnext, hread⟩ := exists_of_bind hread
  dsimp only at hread
  split at hread
  · rename_i hb
    subst hb
    obtain ⟨⟨content, after⟩, htext, hread⟩ := exists_of_bind hread
    obtain ⟨-, rfl⟩ := Prod.mk.inj (Except.ok.inj hread)
    obtain ⟨strokes, hclosed⟩ := exists_closed_of_text htext
    exact ⟨.text strokes, spaced_of_next hnext hclosed (.nil _)⟩
  · cases hread

/-- The byte that opens an array or object. -/
def Bracket.openMark : Bracket → UInt8
  | .array => Mark.openArray
  | .object => Mark.openObject

theorem eq_ok_of_mapError {β : Type} {result : Except ReadError β} {f : ReadError → ReadError}
    {value : β} (hread : result.mapError f = .ok value) : result = .ok value := by
  cases result with
  | error e => cases hread
  | ok value' => exact congrArg Except.ok (Except.ok.inj hread)

theorem spaced_of_word {b : UInt8} {expected : Bytes} {begun rest : Rest bytes}
    {opened : Option Bracket} (hnext : next bytes = .ok (b, begun))
    (hskip : (do return (none, begun.upTo (← word expected begun.val))) =
      (.ok (opened, rest) : Except ReadError _)) :
    opened = none ∧ Spaced [b :: expected] bytes rest.val := by
  obtain ⟨left, hword, hskip⟩ := exists_of_bind hskip
  obtain ⟨rfl, rfl⟩ := Prod.mk.inj (Except.ok.inj hskip)
  exact ⟨rfl, spaced_of_next hnext (eq_append_of_word hword) (.nil _)⟩

theorem spaced_of_skipStart {opened : Option Bracket} {rest : Rest bytes}
    (hskip : skipStart bytes = .ok (opened, rest)) :
    match opened with
    | none => ∃ form : Form, Spaced form.tokens bytes rest.val
    | some bracket => Spaced [[bracket.openMark]] bytes rest.val := by
  obtain ⟨⟨b, begun⟩, hnext, hskip⟩ := exists_of_bind hskip
  dsimp only at hskip
  split at hskip
  case isTrue hb =>
    subst hb
    obtain ⟨rfl, hspaced⟩ := spaced_of_word hnext hskip
    exact ⟨.null, hspaced⟩
  split at hskip
  case isTrue hb =>
    subst hb
    obtain ⟨rfl, hspaced⟩ := spaced_of_word hnext hskip
    exact ⟨.bool true, hspaced⟩
  split at hskip
  case isTrue hb =>
    subst hb
    obtain ⟨rfl, hspaced⟩ := spaced_of_word hnext hskip
    exact ⟨.bool false, hspaced⟩
  split at hskip
  case isTrue hb =>
    subst hb
    obtain ⟨⟨found, after⟩, hnumeral, hskip⟩ := exists_of_bind hskip
    obtain ⟨rfl, rfl⟩ := Prod.mk.inj (Except.ok.inj hskip)
    obtain ⟨written, hspaced⟩ := exists_negative hnext (eq_ok_of_mapError hnumeral)
    exact ⟨.number written, hspaced⟩
  split at hskip
  case isTrue hb =>
    obtain ⟨⟨found, after⟩, hnumeral, hskip⟩ := exists_of_bind hskip
    obtain ⟨rfl, rfl⟩ := Prod.mk.inj (Except.ok.inj hskip)
    obtain ⟨written, hspaced⟩ := exists_positive hnext (eq_ok_of_mapError hnumeral)
    exact ⟨.number written, hspaced⟩
  split at hskip
  case isTrue hb =>
    subst hb
    obtain ⟨after, htext, hskip⟩ := exists_of_bind hskip
    obtain ⟨rfl, rfl⟩ := Prod.mk.inj (Except.ok.inj hskip)
    obtain ⟨strokes, hclosed⟩ := exists_closed_of_skipText htext
    exact ⟨.text strokes, spaced_of_next hnext hclosed (.nil _)⟩
  split at hskip
  case isTrue hb =>
    subst hb
    obtain ⟨rfl, rfl⟩ := Prod.mk.inj (Except.ok.inj hskip)
    exact spaced_of_next hnext rfl (.nil _)
  split at hskip
  case isTrue hb =>
    subst hb
    obtain ⟨rfl, rfl⟩ := Prod.mk.inj (Except.ok.inj hskip)
    exact spaced_of_next hnext rfl (.nil _)
  cases hskip

/-- Tokens that close what was opened, the innermost first. -/
inductive Closes : (isFirst : Bool) → List Bracket → List Bytes → Prop where
  | nil (isFirst : Bool) : Closes isFirst [] []
  | array {isFirst : Bool} (items : List Form) {enclosing : List Bracket} {more : List Bytes}
      (hmore : Closes false enclosing more) :
      Closes isFirst (.array :: enclosing) (Form.itemsTokens isFirst items ++ more)
  | object {isFirst : Bool} (entries : List Form.Member) {enclosing : List Bracket}
      {more : List Bytes} (hmore : Closes false enclosing more) :
      Closes isFirst (.object :: enclosing) (Form.membersTokens isFirst entries ++ more)

theorem exists_form_of_skipStart {opened : Option Bracket} {enclosing : List Bracket}
    {rest : Rest bytes} {tokens : List Bytes} (hskip : skipStart bytes = .ok (opened, rest))
    (hcloses : Closes opened.isSome (opened.toList ++ enclosing) tokens)
    (hspaced : Spaced tokens rest.val after) :
    ∃ (form : Form) (more : List Bytes), Closes false enclosing more ∧
      Spaced (form.tokens ++ more) bytes after := by
  have hbegun := spaced_of_skipStart hskip
  cases opened with
  | none =>
      obtain ⟨form, hform⟩ := hbegun
      exact ⟨form, tokens, hcloses, hform.append hspaced⟩
  | some bracket =>
      cases hcloses with
      | array items hmore => exact ⟨.array items, _, hmore, hbegun.append hspaced⟩
      | object entries hmore => exact ⟨.object entries, _, hmore, hbegun.append hspaced⟩

theorem spaced_of_itemStart {isFirst : Bool} {b : UInt8} {rest : Rest bytes}
    {start : { start : Bytes // start.length ≤ rest.val.length + 1 }} {token : Bytes}
    {more : List Bytes} (hnext : next bytes = .ok (b, rest))
    (hstart : itemStart isFirst b rest.val = .ok start)
    (hspaced : Spaced (token :: more) start.val after) :
    Spaced (Form.lead isFirst ++ token :: more) bytes after := by
  unfold itemStart at hstart
  split at hstart
  · rename_i hfirst
    obtain rfl := Except.ok.inj hstart
    rw [hfirst]
    exact spaced_of_next_token hnext hspaced
  · rename_i hlater
    split at hstart
    · rename_i hcomma
      obtain rfl := Except.ok.inj hstart
      subst hcomma
      rw [Bool.eq_false_iff.mpr hlater]
      exact spaced_of_next hnext rfl hspaced
    · cases hstart

theorem exists_name_of_skipName {left : Left bytes}
    (hskip : skipName .object bytes = .ok left) :
    ∃ name, ∀ more, Spaced more left.val after →
      Spaced ((Mark.quote :: Stroke.closed name) :: [Mark.colon] :: more) bytes after := by
  obtain ⟨⟨b, rest⟩, hnext, hskip⟩ := exists_of_bind hskip
  dsimp only at hskip
  split at hskip
  case isFalse => cases hskip
  rename_i hb
  subst hb
  obtain ⟨closed, htext, hskip⟩ := exists_of_bind hskip
  obtain ⟨⟨b, last⟩, hcolon, hskip⟩ := exists_of_bind hskip
  dsimp only at hskip
  split at hskip
  case isFalse => cases hskip
  rename_i hb
  subst hb
  obtain rfl := Except.ok.inj hskip
  obtain ⟨name, hname⟩ := exists_closed_of_skipText htext
  exact ⟨name, fun more hmore => spaced_of_next hnext hname (spaced_of_next hcolon rfl hmore)⟩

theorem exists_closes {outer : Bytes} {isFirst : Bool} {opened : List Bracket}
    {hwithin : bytes.length < outer.length} {rest : Rest outer}
    (hskip : skipOpened outer isFirst opened bytes hwithin = .ok rest) :
    ∃ tokens, Closes isFirst opened tokens ∧ Spaced tokens bytes rest.val := by
  fun_induction skipOpened outer isFirst opened bytes hwithin with
  | case1 =>
      obtain rfl := Except.ok.inj hskip
      exact ⟨[], .nil _, .nil _⟩
  | case2 => cases hskip
  | case3 isFirst bytes hwithin bracket enclosing begun hnext ih =>
      obtain ⟨tokens, hcloses, hspaced⟩ := ih hskip
      refine ⟨[bracket.close] :: tokens, ?_, spaced_of_next hnext rfl hspaced⟩
      cases bracket with
      | array => exact .array [] hcloses
      | object => exact .object [] hcloses
  | case4 => cases hskip
  | case5 => cases hskip
  | case6 => cases hskip
  | case7 isFirst bytes hwithin bracket enclosing b begun hnext hother start hstart named hnamed
      more after hvalue ih =>
      obtain ⟨tokens, hcloses, hspaced⟩ := ih hskip
      obtain ⟨form, tokens, hcloses, hspaced⟩ := exists_form_of_skipStart hvalue hcloses hspaced
      cases hcloses with
      | @array _ items _ more hmore =>
          obtain rfl := Except.ok.inj hnamed
          obtain ⟨tail, behind, htokens, -⟩ := form.exists_tokens
          rw [htokens, List.cons_append] at hspaced
          have hitem := spaced_of_itemStart hnext hstart hspaced
          rw [← List.cons_append, ← htokens] at hitem
          refine ⟨_, .array (form :: items) hmore, ?_⟩
          rw [Form.itemsTokens, List.append_assoc, List.append_assoc]
          exact hitem
      | @object _ entries _ more hmore =>
          obtain ⟨name, hname⟩ := exists_name_of_skipName hnamed
          refine ⟨_, .object ((name, form) :: entries) hmore, ?_⟩
          rw [Form.membersTokens, List.append_assoc, List.cons_append, List.cons_append,
            List.append_assoc]
          exact spaced_of_itemStart hnext hstart (hname _ hspaced)

theorem sound_skipValue : Sound skipValue := by
  intro bytes value rest hskip
  obtain ⟨⟨opened, begun⟩, hstart, hskip⟩ := exists_of_bind hskip
  obtain ⟨after, hopened, hskip⟩ := exists_of_bind hskip
  obtain ⟨-, rfl⟩ := Prod.mk.inj (Except.ok.inj hskip)
  obtain ⟨tokens, hcloses, hspaced⟩ := exists_closes hopened
  have hbegun : Closes opened.isSome (opened.toList ++ []) tokens := by
    cases opened with
    | none =>
        cases hcloses
        exact .nil _
    | some bracket => exact hcloses
  obtain ⟨form, more, hmore, hform⟩ := exists_form_of_skipStart hstart hbegun hspaced
  cases hmore
  exact ⟨form, by rw [← List.append_nil form.tokens]; exact hform⟩

theorem exists_of_map {β : Type} {result : Except ReadError (α × Rest bytes)}
    {f : α × Rest bytes → β × Rest bytes} {value : β} {rest : Rest bytes}
    (hread : result.map f = .ok (value, rest)) (hf : ∀ found, (f found).2 = found.2) :
    ∃ begun, result = .ok (begun, rest) := by
  cases result with
  | error e => cases hread
  | ok found =>
      have hsame : (f found).2 = rest := congrArg Prod.snd (Except.ok.inj hread)
      rw [hf] at hsame
      exact ⟨found.1, by rw [← hsame]⟩

theorem Sound.map {β : Type} {reader : Reader α} (hsound : Sound reader) (f : α → β) :
    Sound fun bytes => (reader bytes).map fun (value, rest) => (f value, rest) := by
  intro bytes value rest hread
  obtain ⟨begun, hread⟩ := exists_of_map hread fun _ => rfl
  exact hsound _ _ _ hread

theorem sound_keep {name : String} {kept : σ → Option α} {put : σ → α → σ}
    {value : Nat → Reader α} {depth : Nat} (hsound : Sound (value depth)) (gathered : σ) :
    Sound ((RecordField.keep name kept put value).read depth gathered) :=
  hsound.map (put gathered)

/-- A reader of members accepts nothing but a colon and a value of some form. -/
def MembersSound (member : σ → String → Reader σ) : Prop :=
  ∀ (gathered : σ) (name : String) (bytes : Bytes) (next : σ) (rest : Rest bytes),
    member gathered name bytes = .ok (next, rest) →
      ∃ form : Form, Spaced ([Mark.colon] :: form.tokens) bytes rest.val

theorem exists_colon {reader : Reader α} (hsound : Sound reader) {value : α} {rest : Rest bytes}
    (hread : afterColon reader bytes = .ok (value, rest)) :
    ∃ form : Form, Spaced ([Mark.colon] :: form.tokens) bytes rest.val := by
  obtain ⟨⟨b, begun⟩, hnext, hread⟩ := exists_of_bind hread
  dsimp only at hread
  split at hread
  · rename_i hb
    subst hb
    obtain ⟨⟨_, after⟩, hvalue, hread⟩ := exists_of_bind hread
    obtain ⟨-, rfl⟩ := Prod.mk.inj (Except.ok.inj hread)
    obtain ⟨form, hspaced⟩ := hsound _ _ _ hvalue
    exact ⟨form, spaced_of_next hnext rfl hspaced⟩
  · cases hread

theorem membersSound_keptMember {reader : Reader α} (hsound : Sound reader) :
    MembersSound (keptMember reader) := by
  intro gathered name bytes next rest hread
  obtain ⟨_, hread⟩ := exists_of_map hread fun _ => rfl
  exact exists_colon hsound hread

theorem membersSound_recordMember {fields : List (RecordField σ)} {depth : Nat}
    (hsound : ∀ field ∈ fields, ∀ gathered, Sound (field.read depth gathered)) :
    MembersSound (recordMember fields depth) := by
  intro gathered name bytes next rest hread
  unfold recordMember at hread
  split at hread
  · obtain ⟨_, hread⟩ := exists_of_map hread fun _ => rfl
    exact exists_colon sound_skipValue hread
  · rename_i field hfield
    split at hread
    · cases hread
    · exact exists_colon (hsound field (List.mem_of_find?_eq_some hfield) gathered) hread

theorem spaced_of_closeName {isFirst : Bool} {rest : Rest bytes}
    (hread : nextName isFirst bytes = .ok (.close rest)) :
    Spaced [[Mark.closeObject]] bytes rest.val := by
  obtain ⟨⟨b, begun⟩, hnext, hread⟩ := exists_of_bind hread
  dsimp only at hread
  split at hread
  case isTrue hb =>
    subst hb
    obtain rfl := Next.close.inj (Except.ok.inj hread)
    exact spaced_of_next hnext rfl (.nil _)
  split at hread
  case isTrue =>
    split at hread <;> cases hread
  split at hread
  case isTrue =>
    obtain ⟨⟨b, more⟩, -, hread⟩ := exists_of_bind hread
    dsimp only at hread
    split at hread <;> cases hread
  cases hread

theorem spaced_of_nextName {isFirst : Bool}
    {start : { start : Bytes // start.length ≤ bytes.length }} {name : List Stroke} {mid : Bytes}
    {more : List Bytes} (hread : nextName isFirst bytes = .ok (.item start))
    (hname : start.val = Stroke.closed name ++ mid) (hmore : Spaced more mid after) :
    Spaced (Form.lead isFirst ++ (Mark.quote :: Stroke.closed name) :: more) bytes after := by
  obtain ⟨⟨b, begun⟩, hnext, hread⟩ := exists_of_bind hread
  dsimp only at hread
  split at hread
  case isTrue => cases hread
  split at hread
  case isTrue hfirst =>
    split at hread
    case isFalse => cases hread
    case isTrue hb =>
      subst hb
      obtain rfl := Next.item.inj (Except.ok.inj hread)
      rw [hfirst]
      exact spaced_of_next hnext hname hmore
  case isFalse hlater =>
    split at hread
    case isFalse => cases hread
    case isTrue hcomma =>
      subst hcomma
      obtain ⟨⟨b, quoted⟩, hquote, hread⟩ := exists_of_bind hread
      dsimp only at hread
      split at hread
      case isFalse => cases hread
      case isTrue hb =>
        subst hb
        obtain rfl := Next.item.inj (Except.ok.inj hread)
        rw [Bool.eq_false_iff.mpr hlater]
        exact spaced_of_next hnext rfl (spaced_of_next hquote hname hmore)

theorem exists_members_of_members {member : σ → String → Reader σ} (hsound : MembersSound member)
    {outer : Bytes} {isFirst : Bool} {gathered last : σ} {hwithin : bytes.length ≤ outer.length}
    {rest : Rest outer}
    (hread : members member outer isFirst gathered bytes hwithin = .ok (last, rest)) :
    ∃ entries, Spaced (Form.membersTokens isFirst entries) bytes rest.val := by
  fun_induction members member outer isFirst gathered bytes hwithin with
  | case1 => cases hread
  | case2 isFirst gathered bytes hwithin behind hnext =>
      obtain ⟨-, rfl⟩ := Prod.mk.inj (Except.ok.inj hread)
      exact ⟨[], spaced_of_closeName hnext⟩
  | case3 => cases hread
  | case4 => cases hread
  | case5 isFirst gathered bytes hwithin start hnext name colon htext next behind hmember ih =>
      obtain ⟨entries, hentries⟩ := ih hread
      obtain ⟨form, hform⟩ := hsound _ _ _ _ _ hmember
      obtain ⟨strokes, hstrokes⟩ := exists_closed_of_text htext
      exact ⟨(strokes, form) :: entries,
        spaced_of_nextName hnext hstrokes (hform.append hentries)⟩

theorem spaced_of_closeItem {isFirst : Bool} {rest : Rest bytes}
    (hread : nextItem isFirst bytes = .ok (.close rest)) :
    Spaced [[Mark.closeArray]] bytes rest.val := by
  obtain ⟨⟨b, begun⟩, hnext, hread⟩ := exists_of_bind hread
  dsimp only at hread
  split at hread
  case isTrue hb =>
    subst hb
    obtain rfl := Next.close.inj (Except.ok.inj hread)
    exact spaced_of_next hnext rfl (.nil _)
  split at hread
  case isTrue => cases hread
  split at hread
  case isTrue =>
    obtain ⟨⟨b, more⟩, -, hread⟩ := exists_of_bind hread
    dsimp only at hread
    split at hread <;> cases hread
  cases hread

theorem spaced_of_nextItem {isFirst : Bool}
    {start : { start : Bytes // start.length ≤ bytes.length }} {token : Bytes} {more : List Bytes}
    (hread : nextItem isFirst bytes = .ok (.item start))
    (hspaced : Spaced (token :: more) start.val after) :
    Spaced (Form.lead isFirst ++ token :: more) bytes after := by
  obtain ⟨⟨b, begun⟩, hnext, hread⟩ := exists_of_bind hread
  dsimp only at hread
  split at hread
  case isTrue => cases hread
  split at hread
  case isTrue hfirst =>
    obtain rfl := Next.item.inj (Except.ok.inj hread)
    rw [hfirst]
    exact spaced_of_next_token hnext hspaced
  case isFalse hlater =>
    split at hread
    case isFalse => cases hread
    case isTrue hcomma =>
      subst hcomma
      obtain ⟨⟨b, last⟩, hitem, hread⟩ := exists_of_bind hread
      dsimp only at hread
      split at hread
      case isTrue => cases hread
      case isFalse =>
        obtain rfl := Next.item.inj (Except.ok.inj hread)
        rw [Bool.eq_false_iff.mpr hlater]
        exact spaced_of_next hnext rfl (spaced_of_next_token hitem hspaced)

theorem spaced_of_closeArray {rest : Rest bytes} (hread : closeArray bytes = .ok rest) :
    Spaced [[Mark.closeArray]] bytes rest.val := by
  obtain ⟨⟨b, begun⟩, hnext, hread⟩ := exists_of_bind hread
  dsimp only at hread
  split at hread
  · rename_i hb
    subst hb
    obtain rfl := Except.ok.inj hread
    exact spaced_of_next hnext rfl (.nil _)
  · cases hread

theorem exists_items_of_orderedFields {depth : Nat} {fields : List (RecordField σ)}
    (hsound : ∀ field ∈ fields, ∀ gathered, Sound (field.read depth gathered)) {outer : Bytes}
    {isFirst : Bool} {gathered last : σ} {hwithin : bytes.length ≤ outer.length} {rest : Rest outer}
    (hread : orderedFields depth outer fields isFirst gathered bytes hwithin = .ok (last, rest)) :
    ∃ items, Spaced (Form.itemsTokens isFirst items) bytes rest.val := by
  induction fields generalizing isFirst gathered bytes with
  | nil =>
      rw [orderedFields_nil] at hread
      split at hread
      · cases hread
      · rename_i hclose
        obtain ⟨-, rfl⟩ := Prod.mk.inj (Except.ok.inj hread)
        exact ⟨[], spaced_of_closeArray hclose⟩
  | cons field fields ih =>
      rw [List.forall_mem_cons] at hsound
      rw [orderedFields_cons] at hread
      split at hread
      · cases hread
      · rename_i hclose
        obtain ⟨-, rfl⟩ := Prod.mk.inj (Except.ok.inj hread)
        exact ⟨[], spaced_of_closeItem hclose⟩
      · rename_i start hitem
        split at hread
        · cases hread
        · rename_i next behind hvalue
          obtain ⟨items, hitems⟩ := ih hsound.2 hread
          obtain ⟨form, hform⟩ := hsound.1 gathered _ _ _ hvalue
          have hspaced := hform.append hitems
          obtain ⟨tail, more, htokens, -⟩ := form.exists_tokens
          rw [htokens, List.cons_append] at hspaced
          have hfirst := spaced_of_nextItem hitem hspaced
          rw [← List.cons_append, ← htokens] at hfirst
          exact ⟨form :: items, hfirst⟩

theorem sound_map {reader : Nat → Reader α} {depth : Nat} (hsound : Sound (reader depth)) :
    Sound (map (depth + 1) reader) := by
  intro bytes value rest hread
  obtain ⟨⟨b, begun⟩, hnext, hread⟩ := exists_of_bind hread
  dsimp only at hread
  split at hread
  case isFalse => cases hread
  case isTrue hb =>
    subst hb
    obtain ⟨⟨found, after⟩, hmembers, hread⟩ := exists_of_bind hread
    obtain ⟨-, rfl⟩ := Prod.mk.inj (Except.ok.inj hread)
    obtain ⟨entries, hentries⟩ :=
      exists_members_of_members (membersSound_keptMember hsound) hmembers
    exact ⟨.object entries, spaced_of_next hnext rfl hentries⟩

theorem sound_record {fields : List (RecordField σ)} {start : σ} {finish : σ → Except ReadError α}
    {depth : Nat} (hsound : ∀ field ∈ fields, ∀ gathered, Sound (field.read depth gathered)) :
    Sound (record fields start finish (depth + 1)) := by
  intro bytes value rest hread
  obtain ⟨⟨b, begun⟩, hnext, hread⟩ := exists_of_bind hread
  dsimp only at hread
  split at hread
  case isTrue hb =>
    subst hb
    obtain ⟨⟨gathered, after⟩, hitems, hread⟩ := exists_of_bind hread
    obtain ⟨_, -, hread⟩ := exists_of_bind hread
    obtain ⟨-, rfl⟩ := Prod.mk.inj (Except.ok.inj hread)
    obtain ⟨items, hspaced⟩ := exists_items_of_orderedFields hsound hitems
    exact ⟨.array items, spaced_of_next hnext rfl hspaced⟩
  split at hread
  case isTrue hb =>
    subst hb
    obtain ⟨⟨gathered, after⟩, hmembers, hread⟩ := exists_of_bind hread
    obtain ⟨_, -, hread⟩ := exists_of_bind hread
    obtain ⟨-, rfl⟩ := Prod.mk.inj (Except.ok.inj hread)
    obtain ⟨entries, hentries⟩ :=
      exists_members_of_members (membersSound_recordMember hsound) hmembers
    exact ⟨.object entries, spaced_of_next hnext rfl hentries⟩
  cases hread

/-- A text that is read as a whole is one value. -/
theorem exists_spells_of_whole {reader : Reader α} (hsound : Sound reader) {text : Bytes}
    {value : α} (hread : whole reader text = .ok value) : ∃ form : Form, form.Spells text := by
  obtain ⟨⟨found, rest⟩, hfound, hread⟩ := exists_of_bind hread
  obtain ⟨form, hspaced⟩ := hsound _ _ _ hfound
  refine ⟨form, rest.val, hspaced, first?_eq_none_iff.mp ?_⟩
  dsimp only at hread
  split at hread
  · assumption
  · cases hread

end RoutedSession.Json.Read
