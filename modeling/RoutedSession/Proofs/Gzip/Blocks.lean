import RoutedSession.Proofs.Bytes
import RoutedSession.Proofs.Gzip.Codes

namespace RoutedSession.Gzip.Inflate

open Deflated PrefixCode

variable {position : Nat}

theorem fits_fixed : Fits fixedLiteralLengths ∧ Fits fixedDistanceLengths :=
  ⟨⟨by decide +kernel, by decide +kernel⟩, ⟨by decide +kernel, by decide +kernel⟩⟩

theorem reads_stored {before content : Bytes} {padding : List Bool} (hshort : padding.length < 8)
    (haligned : (position + padding.length) % 8 = 0) (hcontent : content.length ≤ 65535) :
    Reads (stored · before.toArray) position
      (padding ++ bitsOf (Bytes.ofNatLE 2 content.length ++
        (Bytes.ofNatLE 2 (65535 - content.length) ++ content)))
      (before ++ content).toArray := by
  intro source after hsource
  obtain ⟨rest, hwhole, rfl⟩ := hsource.wholeBytes hshort haligned
  refine ⟨.ofBytes rest, ?_, ?_⟩
  · have hlength : Bytes.toNatLE (Bytes.ofNatLE 2 content.length) = content.length := by
      rw [Bytes.toNatLE_ofNatLE, Nat.mod_eq_of_lt (by omega)]
    have hcomplement : Bytes.toNatLE (Bytes.ofNatLE 2 (65535 - content.length)) =
        65535 - content.length := by
      rw [Bytes.toNatLE_ofNatLE, Nat.mod_eq_of_lt (by omega)]
    have hsplit : Bytes.split? content.length (content ++ rest) = some (content, rest) :=
      Bytes.split?_eq_some_iff.mpr ⟨rfl, rfl⟩
    simp only [Bytes.ofNatLE, List.cons_append, List.nil_append] at hwhole hlength hcomplement
    simp only [stored, hwhole, hlength, hcomplement, hsplit]
    rw [if_pos (by omega), List.append_toArray]
  · refine BitSource.holds_ofBytes ?_ rest
    rw [List.length_append, length_bitsOf]
    omega

theorem reads_body {kind : Nat} {before after : Bytes} {bits : List Bool}
    (hblock : Block position kind before bits after) :
    Reads (body kind · before.toArray) position bits after.toArray := by
  cases hblock with
  | stored hshort haligned hcontent => exact reads_stored hshort haligned hcontent
  | fixed hbits => exact reads_symbols fits_fixed.1 fits_fixed.2 hbits
  | own hhead hbits =>
      intro source behind hsource
      rw [List.append_assoc] at hsource
      obtain ⟨first, hcodes, hsource⟩ := reads_ownCodes hhead hsource
      obtain ⟨rest, hread, hsource⟩ := reads_symbols hhead.fits.1 hhead.fits.2 hbits hsource
      refine ⟨rest, ?_, by simpa only [List.length_append, Nat.add_assoc] using hsource⟩
      show body 2 source _ = _
      rw [body, if_neg (by decide), if_neg (by decide), if_pos rfl, hcodes]
      exact hread

theorem blocks_of_body {start : Nat} {source first second : BitSource} {out result : Array UInt8}
    (hstart : number 3 source = .ok (start, first))
    (hbody : body (start / 2) first out = .ok (result, second)) :
    blocks source out =
      if start % 2 = 1 then .ok (result, second.wholeBytes) else blocks second result := by
  rw [blocks]
  split
  · rename_i herror
    rw [hstart] at herror
    cases herror
  · rename_i hstart'
    rw [hstart] at hstart'
    obtain ⟨rfl, rfl⟩ := Prod.mk.inj (Except.ok.inj hstart')
    split
    · rename_i herror
      rw [hbody] at herror
      cases herror
    · rename_i hbody'
      rw [hbody] at hbody'
      obtain ⟨rfl, rfl⟩ := Prod.mk.inj (Except.ok.inj hbody')
      rfl

theorem reads_start {kind : Nat} (hkind : kind < 4) (isLast : Bool) :
    Reads (number 3) position (isLast :: lowBits 2 kind) (2 * kind + isLast.toNat) := by
  have hbits : lowBits 3 (2 * kind + isLast.toNat) = isLast :: lowBits 2 kind := by
    have hhalf : (2 * kind + isLast.toNat) / 2 = kind := by
      have hbit := isLast.toNat_le
      omega
    rw [lowBits, hhalf, Nat.testBit_zero]
    cases isLast <;> simp
  have hfits : 2 * kind + isLast.toNat < 2 ^ 3 := by
    have hbit := isLast.toNat_le
    omega
  rw [← hbits]
  exact reads_number hfits

theorem kind_lt {kind : Nat} {before after : Bytes} {bits : List Bool}
    (hblock : Block position kind before bits after) : kind < 4 := by
  cases hblock <;> decide

theorem exists_blocks_step {kind : Nat} {isLast : Bool} {before after : Bytes}
    {bits behind : List Bool} {source : BitSource}
    (hblock : Block (position + 3) kind before bits after)
    (hsource : source.Holds position (isLast :: (lowBits 2 kind ++ bits) ++ behind)) :
    ∃ rest : BitSource, rest.Holds (position + 3 + bits.length) behind ∧
      blocks source before.toArray =
        if isLast then .ok (after.toArray, rest.wholeBytes) else blocks rest after.toArray := by
  obtain ⟨first, hstart, hsource⟩ := reads_start (kind_lt hblock) isLast
    (by simpa only [List.cons_append, List.append_assoc] using hsource)
  obtain ⟨rest, hbody, hsource⟩ := reads_body hblock hsource
  have hhalf : (2 * kind + isLast.toNat) / 2 = kind := by
    have hbit := isLast.toNat_le
    omega
  refine ⟨rest, hsource, ?_⟩
  rw [blocks_of_body hstart (by rw [hhalf]; exact hbody)]
  cases isLast <;> simp

theorem exists_blocks {before after : Bytes} {bits : List Bool}
    (hblocks : Blocks position before bits after) {source : BitSource} {behind : List Bool}
    (hsource : source.Holds position (bits ++ behind)) :
    ∃ rest : BitSource, rest.Holds (position + bits.length) behind ∧
      blocks source before.toArray = .ok (after.toArray, rest.wholeBytes) := by
  induction hblocks generalizing source with
  | last hblock =>
      obtain ⟨rest, hrest, hread⟩ := exists_blocks_step hblock hsource
      refine ⟨rest, ?_, hread⟩
      simpa [Nat.add_assoc, Nat.add_comm, Nat.add_left_comm] using hrest
  | more hblock hrest ih =>
      obtain ⟨middle, hmiddle, hread⟩ := exists_blocks_step hblock
        (by simpa only [List.cons_append, List.append_assoc] using hsource)
      obtain ⟨rest, hbehind, hrest⟩ := ih hmiddle
      refine ⟨rest, ?_, hread.trans hrest⟩
      simpa [Nat.add_assoc, Nat.add_comm, Nat.add_left_comm] using hbehind

/-- Deflated data is read as its content, and the bytes behind it are left. -/
theorem blocks_of_data {content bytes : Bytes} (hdata : Data content bytes) (behind : Bytes) :
    blocks (.ofBytes (bytes ++ behind)) #[] = .ok (content.toArray, behind) := by
  obtain ⟨hblocks, hpadding, hbytes⟩ := hdata
  rename_i bits padding
  have hsource : (BitSource.ofBytes (bytes ++ behind)).Holds 0
      (bits ++ (padding ++ bitsOf behind)) := by
    rw [← List.append_assoc, ← hbytes, ← bitsOf_append]
    exact BitSource.holds_ofBytes rfl _
  obtain ⟨rest, hrest, hread⟩ := exists_blocks hblocks hsource
  have haligned : (0 + bits.length + padding.length) % 8 = 0 := by
    have hlength := congrArg List.length hbytes
    rw [length_bitsOf, List.length_append] at hlength
    omega
  rw [← List.append_nil padding, ← bitsOf_nil] at hrest
  obtain ⟨left, hwhole, hleft⟩ := hrest.wholeBytes hpadding haligned
  rw [hread, hwhole, bitsOf_injective hleft]
  rfl

end RoutedSession.Gzip.Inflate
