import RoutedSession.Proofs.Gzip.Symbols

namespace RoutedSession.Gzip

open Deflated PrefixCode

namespace Deflated

variable {lengths : List Nat}

theorem ofLength_eq_nil {place length : Nat} (hlength : length ∉ lengths) :
    ofLength lengths place length = [] :=
  List.eq_nil_of_length_eq_zero (by rw [length_ofLength, List.count_eq_zero.mpr hlength])

theorem ordered_of_unused (hnone : ∀ length ∈ lengths, length = 0) : ordered lengths = [] := by
  rw [ordered_eq, List.flatMap_eq_nil_iff]
  intro length hlength
  refine ofLength_eq_nil fun hmem => ?_
  rw [List.mem_range'_1] at hlength
  have hzero := hnone length hmem
  omega

theorem ordered_of_single (hone : lengths.count 1 = 1) (hmost : ∀ length ∈ lengths, length ≤ 1) :
    ∃ symbol, ordered lengths = [(1, symbol)] := by
  have hlater : (List.range' 2 (maxLength - 1)).flatMap (ofLength lengths 0) = [] := by
    rw [List.flatMap_eq_nil_iff]
    intro length hlength
    refine ofLength_eq_nil fun hmem => ?_
    rw [List.mem_range'_1] at hlength
    have hle := hmost length hmem
    omega
  have hordered : ordered lengths = ofLength lengths 0 1 := by
    have hrange : List.range' 1 maxLength = 1 :: List.range' 2 (maxLength - 1) := rfl
    rw [ordered_eq, hrange, List.flatMap_cons, hlater, List.append_nil]
  obtain ⟨entry, hentry⟩ := List.length_eq_one_iff.mp ((length_ofLength lengths 0 1).trans hone)
  obtain ⟨length, symbol⟩ := entry
  obtain rfl : length = 1 := fst_of_mem_ofLength (hentry ▸ List.mem_singleton_self _)
  exact ⟨symbol, hordered.trans hentry⟩

theorem Usable.isUsable (husable : Usable lengths) : isUsable lengths = true := by
  unfold PrefixCode.isUsable
  cases husable with
  | complete hkraft =>
      split
      · rfl
      · rfl
      · rw [isComplete, load_eq_kraft, hkraft]
        exact beq_self_eq_true _
  | unused hnone => rw [ordered_of_unused hnone]
  | single hone hmost =>
      obtain ⟨symbol, hordered⟩ := ordered_of_single hone hmost
      simp only [hordered]

theorem Usable.kraft_le (husable : Usable lengths) : kraft lengths ≤ 2 ^ maxLength := by
  cases husable with
  | complete hkraft => exact Nat.le_of_eq hkraft
  | unused hnone =>
      rw [← weight_ordered, ordered_of_unused hnone]
      exact Nat.zero_le _
  | single hone hmost =>
      obtain ⟨symbol, hordered⟩ := ordered_of_single hone hmost
      rw [← weight_ordered, hordered, CodeTree.weight_cons, CodeTree.weight_nil]
      show 2 ^ (maxLength - 1) + 0 ≤ 2 ^ maxLength
      decide

theorem Run.ne_nil {before added : List Nat} {symbol : Nat} {extra : List Bool}
    (hrun : Run before symbol extra added) : added ≠ [] := by
  cases hrun <;> simp

theorem Run.most {before added : List Nat} {symbol : Nat} {extra : List Bool}
    (hrun : Run before symbol extra added) (hbefore : ∀ length ∈ before, length ≤ maxLength) :
    ∀ length ∈ added, length ≤ maxLength := by
  intro length hlength
  cases hrun with
  | length hn =>
      rw [List.mem_singleton.mp hlength]
      exact Nat.le_of_lt_succ hn
  | again hlast hn =>
      rw [List.eq_of_mem_replicate hlength]
      exact hbefore _ (List.mem_of_getLast? hlast)
  | zeros hn | manyZeros hn =>
      rw [List.eq_of_mem_replicate hlength]
      exact Nat.zero_le _

theorem SpellsLengths.isPrefix {words before after : List Nat} {bits : List Bool}
    (hspells : SpellsLengths words before bits after) : before <+: after := by
  induction hspells with
  | done => exact List.prefix_refl _
  | run hword hrun hrest ih => exact (List.prefix_append _ _).trans ih

theorem SpellsLengths.most {words before after : List Nat} {bits : List Bool}
    (hspells : SpellsLengths words before bits after)
    (hbefore : ∀ length ∈ before, length ≤ maxLength) : ∀ length ∈ after, length ≤ maxLength := by
  induction hspells with
  | done => exact hbefore
  | run hword hrun hrest ih =>
      exact ih (List.forall_mem_append.mpr ⟨hbefore, hrun.most hbefore⟩)

end Deflated

namespace Inflate

variable {position : Nat}

theorem codeLengths_of_decode {code : PrefixCode} {total symbol : Nat}
    {source first rest : BitSource} {previous lengths : List Nat} (hshort : previous.length < total)
    (hread : code.decode source = .ok (symbol, first))
    (hrun : lengthRun symbol previous first = .ok (lengths, rest)) :
    codeLengths code total source previous = codeLengths code total rest lengths := by
  rw [codeLengths, if_pos hshort]
  split
  · rename_i herror
    rw [hread] at herror
    cases herror
  · rename_i hread'
    rw [hread] at hread'
    obtain ⟨rfl, rfl⟩ := Prod.mk.inj (Except.ok.inj hread')
    split
    · rename_i herror
      rw [hrun] at herror
      cases herror
    · rename_i hrun'
      rw [hrun] at hrun'
      obtain ⟨rfl, rfl⟩ := Prod.mk.inj (Except.ok.inj hrun')
      rfl

theorem reads_lengthRun {before added : List Nat} {symbol : Nat} {extra : List Bool}
    (hrun : Run before symbol extra added) :
    Reads (lengthRun symbol before.reverse) position extra (before ++ added).reverse := by
  intro source after hsource
  -- A repeated length is the same however many times it stands at the end.
  have hrepeated : ∀ n length : Nat, (before ++ List.replicate n length).reverse =
      List.replicate n length ++ before.reverse := by
    intro n length
    rw [List.reverse_append, List.reverse_replicate]
  cases hrun with
  | length hn => exact ⟨source, by rw [lengthRun, if_pos hn, List.reverse_concat], hsource⟩
  | again hlast hn =>
      obtain ⟨rest, hread, hrest⟩ := reads_number hn hsource
      refine ⟨rest, ?_, hrest⟩
      rw [lengthRun, List.head?_reverse, hlast, hrepeated]
      simp [hread, Except.map]
  | zeros hn =>
      obtain ⟨rest, hread, hrest⟩ := reads_number hn hsource
      refine ⟨rest, ?_, hrest⟩
      rw [lengthRun, hrepeated]
      simp [hread, Except.map]
  | manyZeros hn =>
      obtain ⟨rest, hread, hrest⟩ := reads_number hn hsource
      refine ⟨rest, ?_, hrest⟩
      rw [lengthRun, hrepeated]
      simp [hread, Except.map]

theorem reads_codeLengths {words before after : List Nat} {bits : List Bool} (hwords : Fits words)
    (hspells : SpellsLengths words before bits after) :
    Reads (codeLengths (ofLengths words) after.length · before.reverse) position bits after := by
  induction hspells generalizing position with
  | done =>
      intro source behind hsource
      refine ⟨source, ?_, hsource⟩
      show codeLengths _ _ source _ = _
      rw [codeLengths]
      simp
  | run hword hrun hrest ih =>
      intro source behind hsource
      simp only [List.append_assoc] at hsource
      obtain ⟨first, hread, hsource⟩ := decode_word hwords.kraft_le hwords.most hword _ hsource
      obtain ⟨second, hadded, hsource⟩ := reads_lengthRun hrun hsource
      obtain ⟨rest, hspelled, hsource⟩ := ih hsource
      refine ⟨rest, ?_, by simpa only [List.length_append, Nat.add_assoc] using hsource⟩
      show codeLengths _ _ source _ = _
      have hlonger := hrest.isPrefix.length_le
      have hpos := List.length_pos_iff.mpr hrun.ne_nil
      rw [List.length_append] at hlonger
      rw [codeLengths_of_decode (by rw [List.length_reverse]; omega) hread hadded]
      exact hspelled

theorem reads_lengthLengths {words order : List Nat} (hsmall : ∀ length ∈ words, length < 8) :
    Reads (lengthLengths order) position
      (order.flatMap fun symbol => lowBits 3 (words.getD symbol 0))
      (order.map fun symbol => (symbol, words.getD symbol 0)) := by
  induction order generalizing position with
  | nil => exact fun source after hsource => ⟨source, rfl, hsource⟩
  | cons symbol order ih =>
      intro source after hsource
      have hlength : words.getD symbol 0 < 2 ^ 3 := by
        rw [List.getD_eq_getElem?_getD]
        cases hword : words[symbol]? with
        | none => decide
        | some length => exact hsmall length (List.mem_of_getElem? hword)
      rw [List.flatMap_cons, List.append_assoc] at hsource
      obtain ⟨first, hread, hsource⟩ := reads_number hlength hsource
      obtain ⟨rest, hothers, hrest⟩ := ih hsource
      refine ⟨rest, by simp only [lengthLengths, hread, hothers, List.map_cons], ?_⟩
      simpa only [List.flatMap_cons, List.length_append, Nat.add_assoc] using hrest

theorem lookup_map {order : List Nat} {f : Nat → Nat} (symbol : Nat) :
    (order.map fun symbol => (symbol, f symbol)).lookup symbol =
      if symbol ∈ order then some (f symbol) else none := by
  induction order with
  | nil => rfl
  | cons first order ih =>
      rw [List.map_cons, List.lookup_cons, ih]
      by_cases hfirst : symbol = first
      · subst hfirst
        simp
      · simp only [beq_false_of_ne hfirst, List.mem_cons, hfirst, false_or]

theorem map_lookup_eq {words : List Nat} {count : Nat} (hlength : words.length = 19)
    (hleft : ∀ symbol ∈ lengthOrder.drop count, words.getD symbol 0 = 0) :
    ((List.range lengthOrder.length).map fun symbol =>
      (((lengthOrder.take count).map fun symbol => (symbol, words.getD symbol 0)).lookup
        symbol).getD 0) = words := by
  have hall : ∀ symbol < 19, symbol ∈ lengthOrder := by decide
  refine List.ext_getElem (by rw [List.length_map, List.length_range, hlength]; rfl) ?_
  intro symbol hsymbol hplace
  have hword : words.getD symbol 0 = words[symbol] := by
    rw [List.getD_eq_getElem?_getD, List.getElem?_eq_getElem hplace, Option.getD_some]
  rw [List.getElem_map, List.getElem_range, lookup_map]
  split
  · exact hword
  · rename_i hgiven
    have hmem := hall symbol (hlength ▸ hplace)
    rw [← List.take_append_drop count lengthOrder, List.mem_append] at hmem
    rw [Option.getD_none, ← hword, hleft symbol (hmem.resolve_left hgiven)]

theorem reads_lengthCode {words : List Nat} {count : Nat} {given : List Bool}
    (hgiven : GivesWords words count given) :
    Reads (lengthCode count) position given (ofLengths words) := by
  obtain ⟨hlength, hsmall, hcomplete, hcount, hleft, rfl⟩ := hgiven
  intro source after hsource
  obtain ⟨rest, hread, hrest⟩ := reads_lengthLengths hsmall hsource
  refine ⟨rest, ?_, hrest⟩
  simp only [lengthCode, hread, map_lookup_eq hlength hleft, isComplete, load_eq_kraft, hcomplete,
    Nat.pow_eq, beq_self_eq_true, if_true]

theorem fits_of_small {words : List Nat} (hsmall : ∀ length ∈ words, length < 8)
    (hcomplete : kraft words = 2 ^ maxLength) : Fits words where
  kraft_le := Nat.le_of_eq hcomplete
  most length hlength := Nat.le_trans (Nat.le_of_lt (hsmall length hlength)) (by decide)

theorem reads_wordCounts {literals distances lengths : Nat}
    (hliterals : 257 ≤ literals ∧ literals ≤ 286)
    (hdistances : 1 ≤ distances ∧ distances ≤ 30) (hlengths : 4 ≤ lengths ∧ lengths ≤ 19) :
    Reads wordCounts position
      (lowBits 5 (literals - 257) ++ (lowBits 5 (distances - 1) ++ lowBits 4 (lengths - 4)))
      ⟨literals, distances, lengths⟩ := by
  intro source after hsource
  simp only [List.append_assoc] at hsource
  obtain ⟨first, hfirst, hsource⟩ := reads_number (show literals - 257 < 2 ^ 5 by omega) hsource
  obtain ⟨second, hsecond, hsource⟩ := reads_number (show distances - 1 < 2 ^ 5 by omega) hsource
  obtain ⟨third, hthird, hsource⟩ := reads_number (show lengths - 4 < 2 ^ 4 by omega) hsource
  refine ⟨third, ?_, by simpa only [List.length_append, Nat.add_assoc] using hsource⟩
  simp only [wordCounts, hfirst, hsecond, hthird, bind, Except.bind]
  rw [if_neg (by omega), Nat.add_sub_cancel' hliterals.1, Nat.add_sub_cancel' hdistances.1,
    Nat.add_sub_cancel' hlengths.1]

theorem reads_ownCodes {literals distances : List Nat} {head : List Bool}
    (hhead : Codes literals distances head) :
    Reads ownCodes position head (ofLengths literals, ofLengths distances) := by
  obtain ⟨hliterals, hdistances, husable, husable', hgiven, hspelled⟩ := hhead
  intro source after hsource
  obtain ⟨first, hfirst, hsource⟩ := reads_wordCounts hliterals hdistances hgiven.count_bounds
    (by simpa only [List.append_assoc] using hsource)
  obtain ⟨second, hsecond, hsource⟩ := reads_lengthCode hgiven hsource
  obtain ⟨third, hthird, hsource⟩ :=
    reads_codeLengths (fits_of_small hgiven.small hgiven.complete) hspelled hsource
  refine ⟨third, ?_, by simpa only [List.length_append, Nat.add_assoc] using hsource⟩
  rw [List.length_append] at hthird
  dsimp only [List.reverse_nil] at hthird
  simp only [ownCodes, hfirst, hsecond, hthird, codesOfLengths, husable.isUsable, husable'.isUsable,
    List.take_left, List.drop_left, Bool.and_self, if_true, bind, Except.bind, pure, Except.pure]

end Inflate

namespace Deflated

theorem Codes.fits {literals distances : List Nat} {head : List Bool}
    (hhead : Codes literals distances head) :
    Inflate.Fits literals ∧ Inflate.Fits distances := by
  obtain ⟨hliterals, hdistances, husable, husable', hgiven, hspelled⟩ := hhead
  have hmost := List.forall_mem_append.mp (hspelled.most nofun)
  exact ⟨⟨husable.kraft_le, hmost.1⟩, ⟨husable'.kraft_le, hmost.2⟩⟩

end Deflated

end RoutedSession.Gzip
