import RoutedSession.Proofs.Gzip.Grammar

namespace RoutedSession.Gzip.Inflate

open Deflated PrefixCode

variable {position : Nat}

theorem reads_number {count n : Nat} (hn : n < 2 ^ count) :
    Reads (number count) position (lowBits count n) n := by
  intro source after hsource
  obtain ⟨rest, hread, hrest⟩ := hsource.number? hn
  exact ⟨rest, by rw [number, hread], by rwa [length_lowBits]⟩

theorem reads_stepped {steps : List (Nat × Nat)} {symbol value : Nat} {bits : List Bool}
    (hsteps : Steps steps symbol value bits) :
    Reads (stepped steps symbol) position bits value := by
  obtain ⟨hentry, hmore⟩ := hsteps
  intro source after hsource
  obtain ⟨rest, hread, hrest⟩ := reads_number hmore hsource
  exact ⟨rest, by simp only [stepped, hentry, hread], hrest⟩

theorem Repeats.step {distance count : Nat} {before after : Bytes} (hpos : 1 ≤ distance)
    (hplace : distance ≤ before.length) (hcopy : Repeats distance (count + 1) before after) :
    Repeats distance count (before ++ [before.getD (before.length - distance) 0]) after := by
  obtain ⟨hstarts, hlength, hsame⟩ := hcopy
  have hfirst := hsame before.length (Nat.le_refl _) (by omega)
  obtain ⟨tail, rfl⟩ := hstarts
  rw [List.getElem?_append_right (Nat.le_refl _), Nat.sub_self,
    List.getElem?_append_left (by omega)] at hfirst
  cases tail with
  | nil => simp at hlength
  | cons b tail =>
      have hb : before.getD (before.length - distance) 0 = b := by
        rw [List.getD_eq_getElem?_getD, ← hfirst]
        rfl
      rw [hb]
      refine ⟨⟨tail, by simp⟩, by simpa [Nat.add_right_comm, Nat.add_assoc] using hlength, ?_⟩
      intro i hi
      rw [List.length_append] at hi
      exact hsame i (by omega)

theorem copyBack_eq {distance count : Nat} {before after : Bytes} (hpos : 1 ≤ distance)
    (hplace : distance ≤ before.length) (hcopy : Repeats distance count before after) :
    copyBack distance count before.toArray = after.toArray := by
  induction count generalizing before with
  | zero =>
      obtain rfl : before = after := hcopy.starts.eq_of_length (by simpa using hcopy.length_eq.symm)
      rfl
  | succ count ih =>
      rw [copyBack, if_pos (by simpa using hplace)]
      have hnext := ih (by rw [List.length_append]; omega) (Repeats.step hpos hplace hcopy)
      simpa using hnext

theorem one_le_distance {symbol distance : Nat} {bits : List Bool}
    (hdistance : Steps distanceSteps symbol distance bits) : 1 ≤ distance := by
  obtain ⟨hentry, -⟩ := hdistance
  have hleast : ∀ entry ∈ distanceSteps, 1 ≤ entry.1 := by decide
  exact Nat.le_add_right_of_le (hleast _ (List.mem_of_getElem? hentry))

/-- Lengths whose words fit, and which no word exceeds. -/
structure Fits (lengths : List Nat) : Prop where
  kraft_le : kraft lengths ≤ 2 ^ maxLength
  most : ∀ length ∈ lengths, length ≤ maxLength

theorem reads_backReference {distances : List Nat} {before middle : Bytes}
    {index symbol length distance : Nat} {extra word extra' : List Bool} (hfits : Fits distances)
    (hlength : Steps lengthSteps index length extra) (hword : word? distances symbol = some word)
    (hdistance : Steps distanceSteps symbol distance extra') (hplace : distance ≤ before.length)
    (hcopy : Repeats distance length before middle) :
    Reads (backReference (ofLengths distances) index · before.toArray) position
      (extra ++ (word ++ extra')) middle.toArray := by
  intro source after hsource
  simp only [List.append_assoc] at hsource
  obtain ⟨first, hfirst, hsource⟩ := reads_stepped hlength hsource
  obtain ⟨second, hsecond, hsource⟩ := decode_word hfits.kraft_le hfits.most hword _ hsource
  obtain ⟨third, hthird, hsource⟩ := reads_stepped hdistance hsource
  refine ⟨third, ?_, by simpa only [List.length_append, Nat.add_assoc] using hsource⟩
  simp only [backReference, hfirst, hsecond, hthird, bind, Except.bind, pure, Except.pure,
    copyBack_eq (one_le_distance hdistance) hplace hcopy]

theorem ofSymbol_byte (b : UInt8) : Meaning.ofSymbol b.toNat = .byte b := by
  simp [Meaning.ofSymbol, b.toNat_lt]

theorem ofSymbol_length (index : Nat) : Meaning.ofSymbol (257 + index) = .length index := by
  rw [Meaning.ofSymbol, if_neg (by omega), if_neg (by omega), Nat.add_sub_cancel_left]

theorem symbols_of_decode {literals distances : PrefixCode} {source rest : BitSource}
    {symbol : Nat} (hread : literals.decode source = .ok (symbol, rest)) (out : Array UInt8) :
    symbols literals distances source out =
      match Meaning.ofSymbol symbol with
      | .byte value => symbols literals distances rest (out.push value)
      | .blockEnd => .ok (out, rest)
      | .length index =>
          match backReference distances index rest out with
          | .error e => .error e
          | .ok (out, rest) => symbols literals distances rest out := by
  rw [symbols]
  split
  · rename_i herror
    rw [hread] at herror
    cases herror
  · rename_i hread'
    rw [hread] at hread'
    obtain ⟨rfl, rfl⟩ := Prod.mk.inj (Except.ok.inj hread')
    cases Meaning.ofSymbol symbol with
    | byte value => rfl
    | blockEnd => rfl
    | length index =>
        dsimp only
        split <;> rename_i hback <;> rw [hback]

theorem reads_symbols {literals distances : List Nat} {before after : Bytes} {bits : List Bool}
    (hliterals : Fits literals) (hdistances : Fits distances)
    (hspells : Spells literals distances before bits after) :
    Reads (symbols (ofLengths literals) (ofLengths distances) · before.toArray) position bits
      after.toArray := by
  induction hspells generalizing position with
  | blockEnd hword =>
      intro source behind hsource
      obtain ⟨rest, hread, hrest⟩ := decode_word hliterals.kraft_le hliterals.most hword _ hsource
      exact ⟨rest, symbols_of_decode hread _, hrest⟩
  | byte hword hrest ih =>
      intro source behind hsource
      rw [List.append_assoc] at hsource
      obtain ⟨middle, hread, hmiddle⟩ :=
        decode_word hliterals.kraft_le hliterals.most hword _ hsource
      obtain ⟨rest, hspelled, hrest⟩ := ih hmiddle
      refine ⟨rest, ?_, by rwa [List.length_append, ← Nat.add_assoc]⟩
      show symbols _ _ source _ = _
      rw [symbols_of_decode hread, ofSymbol_byte]
      simpa using hspelled
  | copy hword hlength hword' hdistance hplace hcopy hrest ih =>
      intro source behind hsource
      simp only [List.append_assoc] at hsource
      obtain ⟨first, hread, hfirst⟩ :=
        decode_word hliterals.kraft_le hliterals.most hword _ hsource
      obtain ⟨second, hback, hsecond⟩ :=
        reads_backReference hdistances hlength hword' hdistance hplace hcopy
          (by simpa only [List.append_assoc] using hfirst)
      obtain ⟨rest, hspelled, hrest⟩ := ih hsecond
      refine ⟨rest, ?_, by simpa only [List.length_append, Nat.add_assoc] using hrest⟩
      show symbols _ _ source _ = _
      rw [symbols_of_decode hread, ofSymbol_length]
      dsimp only at hback ⊢
      rw [hback]
      exact hspelled

end RoutedSession.Gzip.Inflate
