import RoutedSession.Json.Printer
import RoutedSession.Json.Reader

namespace RoutedSession.Json.Read

/-- A reader finds a value at the start of some bytes, and leaves those behind it. -/
def Finds {α : Type} (reader : Reader α) (bytes : Bytes) (value : α) (after : Bytes) : Prop :=
  ∃ rest : Rest bytes, reader bytes = .ok (value, rest) ∧ rest.val = after

theorem plainEscape_of_mem {entry : UInt8 × UInt8} (hentry : entry ∈ Mark.shortEscapes) :
    entry.1 ≠ Mark.smallU ∧ plainEscape? entry.1 = some entry.2 := by
  have hall : Mark.shortEscapes.all (fun entry =>
      decide (entry.1 ≠ Mark.smallU ∧ plainEscape? entry.1 = some entry.2)) = true := by decide
  exact of_decide_eq_true (List.all_eq_true.mp hall entry hentry)

theorem finds_plainEscape {entry : UInt8 × UInt8} (hentry : entry ∈ Mark.shortEscapes)
    (after : Bytes) : Finds escape (entry.1 :: after) [entry.2] after := by
  obtain ⟨hletter, hplain⟩ := plainEscape_of_mem hentry
  exact ⟨.tail after, by rw [escape, if_neg hletter, hplain], rfl⟩

/-- The lower of the two digits of a control character's code. -/
def lowDigit (n : Nat) : UInt8 :=
  (if n % 16 < 10 then 0x30 + n % 16 else 0x57 + n % 16).toUInt8

theorem control_of_lt {b : UInt8} (hb : b < Mark.space) :
    ∃ high low, Bytes.ofString (Bytes.hexByte b) = [high, low] ∧
      hexDigit? high = some (b.toNat / 16) ∧ hexDigit? low = some (b.toNat % 16) ∧
      isLowHalf b.toNat = false ∧ isHighHalf b.toNat = false ∧ charBytes b.toNat = [b] := by
  have hall : ∀ n < 32,
      Bytes.ofString (Bytes.hexByte n.toUInt8) = [(0x30 + n / 16).toUInt8, lowDigit n] ∧
        hexDigit? (0x30 + n / 16).toUInt8 = some (n / 16) ∧
        hexDigit? (lowDigit n) = some (n % 16) ∧
        isLowHalf n = false ∧ isHighHalf n = false ∧ charBytes n = [n.toUInt8] := by
    decide +kernel
  have hbyte := hall b.toNat hb
  rw [show b.toNat.toUInt8 = b from UInt8.ofNat_toNat] at hbyte
  exact ⟨_, _, hbyte⟩

theorem finds_smallU {bytes char after : Bytes} (hchar : Finds codedChar bytes char after) :
    Finds escape (Mark.smallU :: bytes) char after := by
  obtain ⟨rest, hread, hrest⟩ := hchar
  exact ⟨_, by rw [escape, if_pos rfl, hread, Except.map], hrest⟩

theorem finds_codedEscape {b : UInt8} (hb : b < Mark.space) (after : Bytes) :
    Finds escape (Mark.smallU :: 0x30 :: 0x30 :: (Bytes.ofString (Bytes.hexByte b) ++ after)) [b]
      after := by
  obtain ⟨high, low, hdigits, hhigh, hlow, hlowHalf, hhighHalf, hchar⟩ := control_of_lt hb
  have hzero : hexDigit? 0x30 = some 0 := by decide
  have hcode : ((0 * 16 + 0) * 16 + b.toNat / 16) * 16 + b.toNat % 16 = b.toNat := by omega
  have hshort : after.length < (0x30 :: 0x30 :: high :: low :: after : Bytes).length := by
    simp only [List.length_cons]
    omega
  have hread : codedChar (0x30 :: 0x30 :: high :: low :: after) = .ok ([b], ⟨after, hshort⟩) := by
    simp only [codedChar, hexCode, hzero, hhigh, hlow, hcode, bind, Except.bind, hlowHalf,
      hhighHalf, hchar]
    rfl
  rw [hdigits]
  exact finds_smallU ⟨_, hread, rfl⟩

theorem escapeByte_cases (b : UInt8) :
    (escapeByte b = [b] ∧ b ≠ Mark.quote ∧ b ≠ Mark.backslash ∧ ¬b < Mark.space) ∨
      ∃ code, escapeByte b = Mark.backslash :: code ∧
        ∀ after, Finds escape (code ++ after) [b] after := by
  unfold escapeByte
  split
  · rename_i hmark
    refine .inr ⟨[b], rfl, fun after => ?_⟩
    have hself : (b, b) ∈ Mark.shortEscapes := by
      rcases hmark with rfl | rfl <;> decide
    exact finds_plainEscape hself after
  · rename_i hmark
    rw [not_or] at hmark
    split
    · rename_i hcontrol
      split
      · rename_i letter byte hfound
        obtain rfl : byte = b := by simpa using List.find?_some hfound
        exact .inr ⟨[letter], rfl, finds_plainEscape (List.mem_of_find?_eq_some hfound)⟩
      · refine .inr ⟨_, rfl, fun after => ?_⟩
        exact finds_codedEscape hcontrol after
    · rename_i hplain
      exact .inl ⟨rfl, hmark.1, hmark.2, hplain⟩

theorem textBytes_escaped (outer : Bytes) (content after : Bytes) (taken : List Bytes)
    (bytes : Bytes) (hwithin : bytes.length ≤ outer.length)
    (hbytes : bytes = content.flatMap escapeByte ++ Mark.quote :: after) :
    ∃ rest : Rest outer, textBytes outer taken bytes hwithin =
      .ok (taken.reverse.flatten ++ content, rest) ∧ rest.val = after := by
  induction content generalizing taken bytes with
  | nil =>
      obtain rfl : bytes = Mark.quote :: after := hbytes
      rw [textBytes, if_pos rfl, List.append_nil]
      exact ⟨_, rfl, rfl⟩
  | cons b content ih =>
      rw [List.flatMap_cons, List.append_assoc] at hbytes
      have hnext : ∀ (bytes : Bytes) (hwithin : bytes.length ≤ outer.length),
          bytes = content.flatMap escapeByte ++ Mark.quote :: after →
            ∃ rest : Rest outer, textBytes outer ([b] :: taken) bytes hwithin =
              .ok (taken.reverse.flatten ++ b :: content, rest) ∧ rest.val = after := by
        intro bytes hwithin hbytes
        simpa using ih ([b] :: taken) bytes hwithin hbytes
      rcases escapeByte_cases b with ⟨hself, hquote, hbackslash, hspace⟩ | ⟨code, hcode, hescape⟩
      · rw [hself, List.singleton_append] at hbytes
        subst hbytes
        rw [textBytes, if_neg hquote, if_neg hbackslash, if_neg hspace]
        exact hnext _ _ rfl
      · rw [hcode, List.cons_append] at hbytes
        subst hbytes
        obtain ⟨rest, hread, hrest⟩ := hescape (content.flatMap escapeByte ++ Mark.quote :: after)
        rw [textBytes, if_neg (by decide), if_pos rfl]
        simp only [hread]
        exact hnext _ _ hrest

theorem finds_text (content : String) (after : Bytes) :
    Finds text ((Bytes.ofString content).flatMap escapeByte ++ Mark.quote :: after) content
      after := by
  obtain ⟨rest, hread, hrest⟩ := textBytes_escaped _ (Bytes.ofString content) after [] _
    (Nat.le_refl _) rfl
  refine ⟨rest, ?_, hrest⟩
  rw [text, hread]
  simp

end RoutedSession.Json.Read
