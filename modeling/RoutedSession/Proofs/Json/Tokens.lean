import RoutedSession.Proofs.Json.Forms

namespace RoutedSession.Json.Read

section Texts

variable {a b c d a' b' c' d' : HexDigit}

theorem finds_hexCode (a b c d : HexDigit) (rest : Bytes) :
    Finds hexCode (a.byte :: b.byte :: c.byte :: d.byte :: rest) (Stroke.code a b c d) rest := by
  refine ⟨⟨rest, by simp only [List.length_cons]; omega⟩, ?_, rfl⟩
  simp only [hexCode, a.means, b.means, c.means, d.means]
  rfl

theorem isLowHalf_of_isHighHalf {code : Nat} (hhigh : isHighHalf code = true) :
    isLowHalf code = false := by
  simp only [isHighHalf, Bool.and_eq_true, decide_eq_true_eq] at hhigh
  simp only [isLowHalf, Bool.and_eq_false_iff, decide_eq_false_iff_not]
  omega

theorem finds_codedChar (hlow : isLowHalf (Stroke.code a b c d) = false)
    (hhigh : isHighHalf (Stroke.code a b c d) = false) (rest : Bytes) :
    Finds codedChar (a.byte :: b.byte :: c.byte :: d.byte :: rest)
      (charBytes (Stroke.code a b c d)) rest := by
  obtain ⟨behind, hread, hbehind⟩ := finds_hexCode a b c d rest
  refine ⟨behind, ?_, hbehind⟩
  simp only [codedChar, hread, bind, Except.bind, hlow, hhigh, Bool.false_eq_true, if_false]
  rfl

theorem codedChar_of_isLowHalf (hlow : isLowHalf (Stroke.code a b c d) = true) (rest : Bytes) :
    codedChar (a.byte :: b.byte :: c.byte :: d.byte :: rest) = .error .malformed := by
  obtain ⟨behind, hread, -⟩ := finds_hexCode a b c d rest
  simp only [codedChar, hread, bind, Except.bind, hlow, if_true]

theorem finds_exactly (b : UInt8) (rest : Bytes) : Finds (exactly b) (b :: rest) () rest :=
  ⟨.tail rest, by rw [exactly, if_pos rfl], rfl⟩

theorem exactly_of_ne {b expected : UInt8} {bytes rest : Bytes} (hbytes : bytes = b :: rest)
    (hb : b ≠ expected) : exactly expected bytes = .error .malformed := by
  rw [hbytes, exactly, if_neg hb]

theorem found_codedChar_of_isHighHalf (hhigh : isHighHalf (Stroke.code a b c d) = true)
    (strokes : List Stroke) (after : Bytes) :
    found (codedChar (a.byte :: b.byte :: c.byte :: d.byte ::
      (strokes.flatMap Stroke.bytes ++ Mark.quote :: after))) =
        match strokes with
        | .coded a' b' c' d' :: rest =>
            if isLowHalf (Stroke.code a' b' c' d') then
              some (charBytes (Stroke.joined (Stroke.code a b c d) (Stroke.code a' b' c' d')),
                rest.flatMap Stroke.bytes ++ Mark.quote :: after)
            else none
        | _ => none := by
  obtain ⟨first, hfirst, hbehind⟩ := finds_hexCode a b c d
    (strokes.flatMap Stroke.bytes ++ Mark.quote :: after)
  have hlow := isLowHalf_of_isHighHalf hhigh
  simp only [codedChar, hfirst, bind, Except.bind, hlow, hhigh, Bool.false_eq_true, if_false,
    if_true]
  cases strokes with
  | nil =>
      rw [exactly_of_ne hbehind (by decide)]
      rfl
  | cons stroke rest =>
      cases stroke with
      | plain b hplain =>
          rw [exactly_of_ne hbehind hplain.2.1]
          rfl
      | short letter byte hshort =>
          have hslash := finds_exactly Mark.backslash
            (letter :: (rest.flatMap Stroke.bytes ++ Mark.quote :: after))
          rw [show Mark.backslash :: letter :: (rest.flatMap Stroke.bytes ++ Mark.quote :: after) =
            first.val from hbehind.symm] at hslash
          obtain ⟨second, hsecond, hletter⟩ := hslash
          simp only [hsecond]
          rw [exactly_of_ne hletter (plainEscape_of_mem hshort).1]
          rfl
      | coded a' b' c' d' =>
          have hslash := finds_exactly Mark.backslash (Mark.smallU :: a'.byte :: b'.byte ::
            c'.byte :: d'.byte :: (rest.flatMap Stroke.bytes ++ Mark.quote :: after))
          rw [show Mark.backslash :: Mark.smallU :: a'.byte :: b'.byte :: c'.byte :: d'.byte ::
            (rest.flatMap Stroke.bytes ++ Mark.quote :: after) =
            first.val from hbehind.symm] at hslash
          obtain ⟨second, hsecond, hletter⟩ := hslash
          have hsmallU := finds_exactly Mark.smallU (a'.byte :: b'.byte :: c'.byte :: d'.byte ::
            (rest.flatMap Stroke.bytes ++ Mark.quote :: after))
          rw [← hletter] at hsmallU
          obtain ⟨third, hthird, hdigits⟩ := hsmallU
          have hcode := finds_hexCode a' b' c' d'
            (rest.flatMap Stroke.bytes ++ Mark.quote :: after)
          rw [← hdigits] at hcode
          obtain ⟨fourth, hfourth, hlast⟩ := hcode
          simp only [hsecond, hthird, hfourth]
          split
          · rw [← hlast]
            rfl
          · rfl

theorem textBytes_of_escape {outer rest char after : Bytes} (taken : List Bytes)
    (hwithin : (Mark.backslash :: rest).length ≤ outer.length)
    (hescape : Finds escape rest char after) :
    ∃ hwithin' : after.length ≤ outer.length,
      textBytes outer taken (Mark.backslash :: rest) hwithin =
        textBytes outer (char :: taken) after hwithin' := by
  obtain ⟨behind, hread, rfl⟩ := hescape
  have hshort := behind.property
  simp only [List.length_cons] at hwithin
  refine ⟨by omega, ?_⟩
  rw [textBytes, if_neg (by decide), if_pos rfl]
  simp only [hread]

theorem found_textBytes_append {outer rest char behind after : Bytes} {taken : List Bytes}
    {content? : Option Bytes} (hwithin : (Mark.backslash :: rest).length ≤ outer.length)
    (hescape : Finds escape rest char behind)
    (hbehind : ∀ hwithin', found (textBytes outer (char :: taken) behind hwithin') =
      content?.map fun content => ((char :: taken).reverse.flatten ++ content, after)) :
    found (textBytes outer taken (Mark.backslash :: rest) hwithin) =
      (content?.map (char ++ ·)).map fun content => (taken.reverse.flatten ++ content, after) := by
  obtain ⟨hwithin', hread⟩ := textBytes_of_escape taken hwithin hescape
  rw [hread, hbehind, Option.map_map]
  simp [Function.comp_def]

theorem found_textBytes_of_escape {outer rest : Bytes} {taken : List Bytes}
    (hwithin : (Mark.backslash :: rest).length ≤ outer.length)
    (hescape : found (escape rest) = none) :
    found (textBytes outer taken (Mark.backslash :: rest) hwithin) = none := by
  rw [textBytes, if_neg (by decide), if_pos rfl]
  cases hread : escape rest with
  | error e => rfl
  | ok result =>
      rw [hread] at hescape
      cases hescape

theorem found_escape_smallU (bytes : Bytes) :
    found (escape (Mark.smallU :: bytes)) = found (codedChar bytes) := by
  rw [escape, if_pos rfl]
  cases codedChar bytes <;> rfl

theorem content?_coded {rest : List Stroke} (hlow : ¬isLowHalf (Stroke.code a b c d) = true)
    (hhigh : ¬isHighHalf (Stroke.code a b c d) = true) :
    Stroke.content? (.coded a b c d :: rest) =
      (Stroke.content? rest).map (charBytes (Stroke.code a b c d) ++ ·) := by
  rw [Stroke.content?.eq_def]
  dsimp only
  rw [if_neg hlow, if_neg hhigh]

/-- Strokes up to the closing quote are read as what they stand for. -/
theorem found_textBytes (outer : Bytes) (strokes : List Stroke) (after : Bytes)
    (taken : List Bytes) (bytes : Bytes) (hwithin : bytes.length ≤ outer.length)
    (hbytes : bytes = strokes.flatMap Stroke.bytes ++ Mark.quote :: after) :
    found (textBytes outer taken bytes hwithin) =
      (Stroke.content? strokes).map fun content => (taken.reverse.flatten ++ content, after) := by
  induction strokes using Stroke.content?.induct generalizing taken bytes with
  | case1 =>
      obtain rfl : bytes = Mark.quote :: after := hbytes
      rw [textBytes, if_pos rfl, Stroke.content?, Option.map_some, List.append_nil]
      rfl
  | case2 b hplain rest ih =>
      obtain rfl : bytes = b :: (rest.flatMap Stroke.bytes ++ Mark.quote :: after) := hbytes
      rw [textBytes, if_neg hplain.1, if_neg hplain.2.1, if_neg hplain.2.2, ih _ _ _ rfl,
        Stroke.content?, Option.map_map]
      simp [Function.comp_def]
  | case3 letter byte hshort rest ih =>
      subst hbytes
      have hescape := finds_plainEscape hshort (rest.flatMap Stroke.bytes ++ Mark.quote :: after)
      rw [Stroke.content?]
      exact found_textBytes_append hwithin hescape fun hwithin' => ih _ _ hwithin' rfl
  | case4 a b c d rest hlow =>
      subst hbytes
      refine (found_textBytes_of_escape hwithin ?_).trans ?_
      · exact (found_escape_smallU _).trans (congrArg found (codedChar_of_isLowHalf hlow _))
      · rw [Stroke.content?.eq_def]
        dsimp only
        rw [if_pos hlow]
        rfl
  | case5 a b c d hlow hhigh a' b' c' d' rest hlow' ih =>
      subst hbytes
      have hescape := (found_escape_smallU _).trans
        (found_codedChar_of_isHighHalf hhigh (.coded a' b' c' d' :: rest) after)
      dsimp only at hescape
      rw [if_pos hlow'] at hescape
      rw [Stroke.content?, if_neg hlow, if_pos hhigh, if_pos hlow']
      exact found_textBytes_append hwithin (found_eq_some_iff.mp hescape)
        fun hwithin' => ih _ _ hwithin' rfl
  | case6 a b c d hlow hhigh a' b' c' d' rest hlow' =>
      subst hbytes
      refine (found_textBytes_of_escape hwithin ?_).trans ?_
      · refine (found_escape_smallU _).trans
          ((found_codedChar_of_isHighHalf hhigh (.coded a' b' c' d' :: rest) after).trans ?_)
        exact if_neg hlow'
      · rw [Stroke.content?, if_neg hlow, if_pos hhigh, if_neg hlow']
        rfl
  | case7 a b c d rest hlow hhigh hother =>
      subst hbytes
      refine (found_textBytes_of_escape hwithin ?_).trans ?_
      · refine (found_escape_smallU _).trans
          ((found_codedChar_of_isHighHalf hhigh rest after).trans ?_)
        split
        · rename_i hrest
          exact (hother _ _ _ _ _ rfl).elim
        · rfl
      · rw [Stroke.content?.eq_5 _ _ _ _ _ hother, if_neg hlow, if_pos hhigh]
        rfl
  | case8 a b c d rest hlow hhigh ih =>
      subst hbytes
      have hescape := finds_smallU (finds_codedChar (by simpa using hlow) (by simpa using hhigh)
        (rest.flatMap Stroke.bytes ++ Mark.quote :: after))
      rw [content?_coded hlow hhigh]
      exact found_textBytes_append hwithin hescape fun hwithin' => ih _ _ hwithin' rfl

theorem found_text (strokes : List Stroke) (after : Bytes) :
    found (text (Stroke.closed strokes ++ after)) = (Stroke.string? strokes).map (·, after) := by
  have hbytes : Stroke.closed strokes ++ after =
      strokes.flatMap Stroke.bytes ++ Mark.quote :: after := by simp [Stroke.closed]
  have hread := found_textBytes _ strokes after [] _ (Nat.le_refl _) hbytes
  rw [text, Stroke.string?]
  cases hcontent : Stroke.content? strokes with
  | none =>
      rw [hcontent] at hread
      obtain ⟨e, herror⟩ := found_eq_none_iff.mp hread
      rw [herror]
      rfl
  | some content =>
      rw [hcontent] at hread
      obtain ⟨rest, hok, hrest⟩ := found_eq_some_iff.mp hread
      rw [hok, List.reverse_nil, List.flatten_nil, List.nil_append]
      cases hstring : Bytes.toString? content with
      | none => simp [hstring, found]
      | some string => simp [hstring, found, hrest]

theorem exists_skipText (outer : Bytes) (strokes : List Stroke) (after bytes : Bytes)
    (hwithin : bytes.length ≤ outer.length) (hbytes : bytes = Stroke.closed strokes ++ after) :
    ∃ rest : Rest outer, skipText outer bytes hwithin = .ok rest ∧ rest.val = after := by
  induction strokes generalizing bytes with
  | nil =>
      obtain rfl : bytes = Mark.quote :: after := hbytes
      rw [skipText, if_pos rfl]
      exact ⟨_, rfl, rfl⟩
  | cons stroke strokes ih =>
      rw [Stroke.closed, List.flatMap_cons, List.append_assoc, List.append_assoc] at hbytes
      rw [Stroke.closed] at ih
      cases stroke with
      | plain b hplain =>
          obtain rfl : bytes = b :: (strokes.flatMap Stroke.bytes ++ ([Mark.quote] ++ after)) :=
            hbytes
          rw [skipText, if_neg hplain.1, if_neg hplain.2.1, if_neg hplain.2.2]
          exact ih _ _ (List.append_assoc _ _ _).symm
      | short letter byte hshort =>
          obtain ⟨hletter, hplain⟩ := plainEscape_of_mem hshort
          obtain rfl : bytes = Mark.backslash :: letter ::
            (strokes.flatMap Stroke.bytes ++ ([Mark.quote] ++ after)) := hbytes
          rw [skipText, if_neg (by decide), if_pos rfl]
          dsimp only at hletter hplain
          simp only [skipEscape, if_neg hletter, hplain, Option.isSome_some, if_true]
          exact ih _ _ (List.append_assoc _ _ _).symm
      | coded a b c d =>
          obtain rfl : bytes = Mark.backslash :: Mark.smallU :: a.byte :: b.byte :: c.byte ::
            d.byte :: (strokes.flatMap Stroke.bytes ++ ([Mark.quote] ++ after)) := hbytes
          obtain ⟨rest, hcode, hrest⟩ := finds_hexCode a b c d
            (strokes.flatMap Stroke.bytes ++ ([Mark.quote] ++ after))
          rw [skipText, if_neg (by decide), if_pos rfl]
          simp only [skipEscape, if_true, hcode, Except.map]
          exact ih _ _ (hrest.trans (List.append_assoc _ _ _).symm)

end Texts

section Numbers

variable {after : Bytes}

theorem exists_digits (written : Digits) (hafter : EndsDigits after) :
    ∃ left, digits (written.bytes ++ after) = .ok (written.values, left) ∧ left.val = after := by
  obtain ⟨b, rest, hbytes⟩ := List.exists_cons_of_ne_nil written.nonempty
  have hdigit := written.digits b (by rw [hbytes]; exact List.mem_cons_self)
  obtain ⟨hrun, hleft⟩ := digitRun_append written.digits hafter
  refine ⟨(digitRun (written.bytes ++ after)).2, ?_, hleft⟩
  have hread : digits (written.bytes ++ after) = .ok (digitRun (written.bytes ++ after)) := by
    rw [hbytes, List.cons_append, digits, if_pos hdigit]
  rw [hread, Digits.values, ← hrun]

theorem exists_places (places? : Option Digits) (hdigits : EndsDigits after)
    (hpoint : ∀ b ∈ after.head?, b ≠ Mark.point) :
    ∃ left, places (WrittenNumber.placesBytes places? ++ after) =
      .ok (places?.map Digits.values, left) ∧ left.val = after := by
  cases places? with
  | none =>
      refine ⟨.all after, ?_, rfl⟩
      cases after with
      | nil => rfl
      | cons b after => exact if_neg (hpoint b rfl)
  | some written =>
      obtain ⟨left, hread, hleft⟩ := exists_digits written hdigits
      refine ⟨left.pastFirst, ?_, hleft⟩
      show places (Mark.point :: (written.bytes ++ after)) = _
      simp only [places, if_true, hread]
      rfl

theorem powerSign_append (power : WrittenPower) (after : Bytes) :
    (powerSign (power.sign ++ (power.digits.bytes ++ after))).1 = (power.sign == [Mark.minus]) ∧
      (powerSign (power.sign ++ (power.digits.bytes ++ after))).2.val =
        power.digits.bytes ++ after := by
  rcases power.sign_mem with hsign | hsign | hsign
  · obtain ⟨b, rest, hbytes⟩ := List.exists_cons_of_ne_nil power.digits.nonempty
    have hdigit := power.digits.digits b (by rw [hbytes]; exact List.mem_cons_self)
    have hmark : ¬(b = Mark.plus ∨ b = Mark.minus) := by
      rintro (rfl | rfl) <;> exact absurd hdigit (by decide)
    rw [hsign, hbytes, List.nil_append, List.cons_append, powerSign, if_neg hmark]
    exact ⟨rfl, rfl⟩
  · rw [hsign]
    exact ⟨rfl, rfl⟩
  · rw [hsign]
    exact ⟨rfl, rfl⟩

theorem exists_power (power? : Option WrittenPower) (hafter : Ends after) {bytes : Bytes}
    (hbytes : bytes = WrittenNumber.powerBytes power? ++ after) :
    ∃ left, power bytes =
      .ok (power?.map fun power => (power.sign == [Mark.minus], power.digits.values), left) ∧
        left.val = after := by
  cases power? with
  | none =>
      obtain rfl : bytes = after := hbytes
      exact ⟨.all bytes, power_of_ends hafter, rfl⟩
  | some written =>
      obtain rfl : bytes = written.letter :: (written.sign ++ (written.digits.bytes ++ after)) := by
        simpa [WrittenNumber.powerBytes] using hbytes
      obtain ⟨hsign, hdigits⟩ := powerSign_append written after
      have hread := exists_digits written.digits hafter.endsDigits
      rw [← hdigits] at hread
      obtain ⟨left, hread, hleft⟩ := hread
      refine ⟨(Left.andThen _ left).pastFirst, ?_, hleft⟩
      simp only [power, if_pos written.letter_mem, hsign, hread]
      rfl

theorem finds_unsigned (number : WrittenNumber) (hafter : Ends after) :
    Finds numeral (number.unsigned ++ after) number.numeral after := by
  have hpower : ∀ b ∈ (WrittenNumber.powerBytes number.power ++ after).head?,
      isDigit b = false ∧ b ≠ Mark.point := by
    intro b hb
    cases hwritten : number.power with
    | none =>
        rw [hwritten] at hb
        exact ⟨(hafter b hb).1, (hafter b hb).2.1⟩
    | some power =>
        rw [hwritten] at hb
        obtain rfl : power.letter = b := by simpa [WrittenNumber.powerBytes] using hb
        rcases power.letter_mem with hletter | hletter <;> rw [hletter] <;> decide
  have hplaces : EndsDigits (WrittenNumber.placesBytes number.places ++
      (WrittenNumber.powerBytes number.power ++ after)) := by
    cases hwritten : number.places with
    | none => exact fun b hb => (hpower b hb).1
    | some places =>
        intro b hb
        obtain rfl : Mark.point = b := by simpa [WrittenNumber.placesBytes] using hb
        decide
  have hbytes : number.unsigned ++ after = number.whole.bytes ++
      (WrittenNumber.placesBytes number.places ++
        (WrittenNumber.powerBytes number.power ++ after)) := by
    simp [WrittenNumber.unsigned]
  rw [hbytes]
  obtain ⟨first, hfirst, hsecond⟩ := finds_wholeDigits number.whole.digits number.whole.nonempty
    number.zero_first hplaces
  have hread := exists_places number.places (fun b hb => (hpower b hb).1)
    fun b hb => (hpower b hb).2
  rw [← hsecond] at hread
  obtain ⟨second, hread, hthird⟩ := hread
  obtain ⟨third, hlast, hend⟩ := exists_power number.power hafter hthird
  have hshort := Nat.lt_of_le_of_lt (Nat.le_trans third.property second.property) first.property
  refine ⟨⟨third.val, hshort⟩, ?_, hend⟩
  simp only [numeral, hfirst, hread, hlast, bind, Except.bind]
  rfl

theorem found_number (written : WrittenNumber) (hafter : Ends after) {b : UInt8} {tail : Bytes}
    (hbytes : written.bytes = b :: tail) :
    found (number b (tail ++ after)) =
      (written.numeral.value written.isNegative).toOption.map (·, after) := by
  have hread := finds_unsigned written hafter
  rcases WrittenNumber.bytes_cases hbytes with ⟨hsign, rfl, hunsigned⟩ |
    ⟨hsign, hminus, -, hunsigned⟩
  · rw [hunsigned] at hread
    obtain ⟨rest, hread, hrest⟩ := hread
    rw [hsign]
    simp only [number, if_true, hread, bind, Except.bind]
    cases written.numeral.value true with
    | error e => rfl
    | ok value => exact congrArg (fun after => some (value, after)) hrest
  · rw [hunsigned, List.cons_append] at hread
    obtain ⟨rest, hread, hrest⟩ := hread
    rw [hsign]
    simp only [number, if_neg hminus, hread, bind, Except.bind]
    cases written.numeral.value false with
    | error e => rfl
    | ok value => exact congrArg (fun after => some (value, after)) hrest

end Numbers

end RoutedSession.Json.Read
