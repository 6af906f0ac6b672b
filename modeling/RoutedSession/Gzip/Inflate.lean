import RoutedSession.Gzip.PrefixCode

/-!
Decompressing a sequence of deflate blocks. Each reader ends because it uses up bits.
-/

namespace RoutedSession.Gzip.Inflate

/-- The least length and the number of further bits, for each symbol that stands for lengths. -/
def lengthSteps : List (Nat × Nat) :=
  [(3, 0), (4, 0), (5, 0), (6, 0), (7, 0), (8, 0), (9, 0), (10, 0), (11, 1), (13, 1), (15, 1),
    (17, 1), (19, 2), (23, 2), (27, 2), (31, 2), (35, 3), (43, 3), (51, 3), (59, 3), (67, 4),
    (83, 4), (99, 4), (115, 4), (131, 5), (163, 5), (195, 5), (227, 5), (258, 0)]

/-- The least distance and the number of further bits, for each symbol that stands for distances. -/
def distanceSteps : List (Nat × Nat) :=
  [(1, 0), (2, 0), (3, 0), (4, 0), (5, 1), (7, 1), (9, 2), (13, 2), (17, 3), (25, 3), (33, 4),
    (49, 4), (65, 5), (97, 5), (129, 6), (193, 6), (257, 7), (385, 7), (513, 8), (769, 8),
    (1025, 9), (1537, 9), (2049, 10), (3073, 10), (4097, 11), (6145, 11), (8193, 12), (12289, 12),
    (16385, 13), (24577, 13)]

def number (count : Nat) (source : BitSource) : Except DeflateFault (Nat × BitSource) :=
  match source.number? count with
  | none => .error .incomplete
  | some found => .ok found

theorem left_of_number {count n : Nat} {source rest : BitSource}
    (hread : number count source = .ok (n, rest)) : source.left = rest.left + count := by
  unfold number at hread
  split at hread
  · simp at hread
  · rename_i hfound
    simp only [Except.ok.injEq] at hread
    exact BitSource.left_of_number? (hread ▸ hfound)

/-- The length or distance of a symbol, whose further bits come next. -/
def stepped (steps : List (Nat × Nat)) (symbol : Nat) (source : BitSource) :
    Except DeflateFault (Nat × BitSource) :=
  match steps[symbol]? with
  | none => .error .corrupt
  | some (least, extra) =>
      match number extra source with
      | .error e => .error e
      | .ok (more, rest) => .ok (least + more, rest)

theorem left_of_stepped {steps : List (Nat × Nat)} {symbol n : Nat} {source rest : BitSource}
    (hread : stepped steps symbol source = .ok (n, rest)) : rest.left ≤ source.left := by
  unfold stepped at hread
  split at hread
  · simp at hread
  · split at hread
    · simp at hread
    · rename_i hfound
      have := left_of_number hfound
      simp only [Except.ok.injEq, Prod.mk.injEq] at hread
      rw [← hread.2]
      omega

/-- Appends `count` bytes, each a copy of the one `distance` places before it. A place before the
first byte holds zero. -/
def copyBack (distance : Nat) : (count : Nat) → Array UInt8 → Array UInt8
  | 0, out => out
  | count + 1, out =>
      let b := if distance ≤ out.size then out.getD (out.size - distance) 0 else 0
      copyBack distance count (out.push b)

/-- Reads what follows a symbol that stands for lengths, and copies what it refers back to. -/
def backReference (distances : PrefixCode) (symbol : Nat) (source : BitSource)
    (out : Array UInt8) : Except DeflateFault (Array UInt8 × BitSource) := do
  let (length, source) ← stepped lengthSteps symbol source
  let (symbol, source) ← distances.decode source
  let (distance, source) ← stepped distanceSteps symbol source
  return (copyBack distance length out, source)

theorem left_of_backReference {distances : PrefixCode} {symbol : Nat} {source rest : BitSource}
    {out result : Array UInt8}
    (hread : backReference distances symbol source out = .ok (result, rest)) :
    rest.left ≤ source.left := by
  simp only [backReference, bind, Except.bind, pure, Except.pure] at hread
  split at hread
  · simp at hread
  · rename_i hfirst
    split at hread
    · simp at hread
    · rename_i hsecond
      split at hread
      · simp at hread
      · rename_i hthird
        have := left_of_stepped hfirst
        have := PrefixCode.left_of_decode hsecond
        have := left_of_stepped hthird
        simp only [Except.ok.injEq, Prod.mk.injEq] at hread
        rw [← hread.2]
        omega

/-- What a symbol of the code for bytes and lengths means. -/
inductive Meaning where
  /-- The byte itself. -/
  | byte (value : UInt8)
  /-- The block ends. -/
  | blockEnd
  /-- Bytes are repeated, as many as this entry of the lengths says. -/
  | length (index : Nat)
  deriving DecidableEq, Repr

/-- The meaning of a symbol of the code for bytes and lengths. -/
def Meaning.ofSymbol (symbol : Nat) : Meaning :=
  if symbol < 256 then .byte symbol.toUInt8
  else if symbol = 256 then .blockEnd
  else .length (symbol - 257)

/-- Reads symbols up to the one that ends the block. -/
def symbols (literals distances : PrefixCode) (source : BitSource) (out : Array UInt8) :
    Except DeflateFault (Array UInt8 × BitSource) :=
  match _first : literals.decode source with
  | .error e => .error e
  | .ok (symbol, rest) =>
      match Meaning.ofSymbol symbol with
      | .byte value => symbols literals distances rest (out.push value)
      | .blockEnd => .ok (out, rest)
      | .length index =>
          match _second : backReference distances index rest out with
          | .error e => .error e
          | .ok (out, rest) => symbols literals distances rest out
termination_by source.left
decreasing_by
  · exact PrefixCode.left_of_decode _first
  · have := PrefixCode.left_of_decode _first
    have := left_of_backReference _second
    omega

theorem left_of_symbols {literals distances : PrefixCode} {source rest : BitSource}
    {out result : Array UInt8}
    (hread : symbols literals distances source out = .ok (result, rest)) :
    rest.left ≤ source.left := by
  fun_induction symbols literals distances source out with
  | case1 | case4 => simp at hread
  | case2 _ _ _ _ hfirst _ _ ih =>
      have := PrefixCode.left_of_decode hfirst
      have := ih hread
      omega
  | case3 _ _ _ _ hfirst =>
      have := PrefixCode.left_of_decode hfirst
      simp only [Except.ok.injEq, Prod.mk.injEq] at hread
      rw [← hread.2]
      omega
  | case5 _ _ _ _ hfirst _ _ _ _ hsecond ih =>
      have := PrefixCode.left_of_decode hfirst
      have := left_of_backReference hsecond
      have := ih hread
      omega

/-- A block of bytes as they are, behind their number and its complement. -/
def stored (source : BitSource) (out : Array UInt8) :
    Except DeflateFault (Array UInt8 × BitSource) :=
  match source.wholeBytes with
  | a :: b :: c :: d :: rest =>
      if Bytes.toNatLE [a, b] + Bytes.toNatLE [c, d] = 0xFFFF then
        match Bytes.split? (Bytes.toNatLE [a, b]) rest with
        | none => .error .incomplete
        | some (content, rest) => .ok (out ++ content.toArray, .ofBytes rest)
      else .error .corrupt
  | _ => .error .incomplete

theorem left_of_stored {source rest : BitSource} {out result : Array UInt8}
    (hread : stored source out = .ok (result, rest)) : rest.left ≤ source.left := by
  unfold stored at hread
  split at hread
  · rename_i hwhole
    split at hread
    · split at hread
      · simp at hread
      · rename_i hcut
        have := (Bytes.split?_eq_some_iff.1 hcut).2
        simp only [Except.ok.injEq, Prod.mk.injEq] at hread
        rw [← hread.2]
        simp only [BitSource.wholeBytes] at hwhole
        simp only [BitSource.left, BitSource.ofBytes, hwhole, this, List.length_cons,
          List.length_append, List.length_nil]
        omega
    · simp at hread
  · simp at hread

def fixedLiteralLengths : List Nat :=
  List.replicate 144 8 ++ List.replicate 112 9 ++ List.replicate 24 7 ++ List.replicate 8 8

/-- The lengths of the words of the fixed code for distances. -/
def fixedDistanceLengths : List Nat :=
  List.replicate 32 5

def fixedLiterals : PrefixCode := .ofLengths fixedLiteralLengths

def fixedDistances : PrefixCode := .ofLengths fixedDistanceLengths

def lengthOrder : List Nat :=
  [16, 17, 18, 0, 8, 7, 9, 6, 10, 5, 11, 4, 12, 3, 13, 2, 14, 1, 15]

/-- The lengths of the words for lengths, three bits each, for the symbols of `order` in turn. -/
def lengthLengths : (order : List Nat) → BitSource →
    Except DeflateFault (List (Nat × Nat) × BitSource)
  | [], source => .ok ([], source)
  | symbol :: order, source =>
      match number 3 source with
      | .error e => .error e
      | .ok (length, rest) =>
          match lengthLengths order rest with
          | .error e => .error e
          | .ok (others, rest) => .ok ((symbol, length) :: others, rest)

theorem left_of_lengthLengths {order : List Nat} {source rest : BitSource}
    {found : List (Nat × Nat)} (hread : lengthLengths order source = .ok (found, rest)) :
    rest.left ≤ source.left := by
  induction order generalizing source rest found with
  | nil =>
      simp only [lengthLengths, Except.ok.injEq, Prod.mk.injEq] at hread
      simp [hread.2]
  | cons symbol order ih =>
      simp only [lengthLengths] at hread
      split at hread
      · simp at hread
      · rename_i hfirst
        split at hread
        · simp at hread
        · rename_i hothers
          have := left_of_number hfirst
          have := ih hothers
          simp only [Except.ok.injEq, Prod.mk.injEq] at hread
          rw [← hread.2]
          omega

/-- What a symbol of the code for lengths adds to the lengths that came before it, newest first:
itself, some copies of the last length, or some zeros. -/
def lengthRun (symbol : Nat) (previous : List Nat) (source : BitSource) :
    Except DeflateFault (List Nat × BitSource) :=
  if symbol < 16 then .ok (symbol :: previous, source)
  else if symbol = 16 then
    match previous.head? with
    | none => .error .corrupt
    | some last =>
        (number 2 source).map fun (n, rest) => (List.replicate (3 + n) last ++ previous, rest)
  else if symbol = 17 then
    (number 3 source).map fun (n, rest) => (List.replicate (3 + n) 0 ++ previous, rest)
  else
    (number 7 source).map fun (n, rest) => (List.replicate (11 + n) 0 ++ previous, rest)

theorem left_of_lengthRun {symbol : Nat} {previous lengths : List Nat} {source rest : BitSource}
    (hread : lengthRun symbol previous source = .ok (lengths, rest)) : rest.left ≤ source.left := by
  have hmapped : ∀ {count : Nat} {f : Nat → List Nat},
      (number count source).map (fun found => (f found.1, found.2)) = .ok (lengths, rest) →
        rest.left ≤ source.left := by
    intro count f hsame
    cases hfound : number count source with
    | error e => simp [hfound, Except.map] at hsame
    | ok value =>
        have := left_of_number hfound
        simp only [hfound, Except.map, Except.ok.injEq, Prod.mk.injEq] at hsame
        rw [← hsame.2]
        omega
  unfold lengthRun at hread
  split at hread
  · simp only [Except.ok.injEq, Prod.mk.injEq] at hread
    simp [hread.2]
  · split at hread
    · split at hread
      · simp at hread
      · exact hmapped (f := fun n => List.replicate (3 + n) _ ++ previous) hread
    · split at hread
      · exact hmapped (f := fun n => List.replicate (3 + n) 0 ++ previous) hread
      · exact hmapped (f := fun n => List.replicate (11 + n) 0 ++ previous) hread

/-- Reads `total` lengths with their code. The last run must not go beyond them. -/
def codeLengths (code : PrefixCode) (total : Nat) (source : BitSource) (previous : List Nat) :
    Except DeflateFault (List Nat × BitSource) :=
  if previous.length < total then
    match _first : code.decode source with
    | .error e => .error e
    | .ok (symbol, rest) =>
        match _second : lengthRun symbol previous rest with
        | .error e => .error e
        | .ok (lengths, rest) => codeLengths code total rest lengths
  else if previous.length = total then .ok (previous.reverse, source)
  else .error .corrupt
termination_by source.left
decreasing_by
  have := PrefixCode.left_of_decode _first
  have := left_of_lengthRun _second
  omega

theorem left_of_codeLengths {code : PrefixCode} {total : Nat} {source rest : BitSource}
    {previous lengths : List Nat}
    (hread : codeLengths code total source previous = .ok (lengths, rest)) :
    rest.left ≤ source.left := by
  fun_induction codeLengths code total source previous with
  | case1 | case2 | case5 => simp at hread
  | case3 _ _ _ _ _ hfirst _ _ hsecond ih =>
      have := PrefixCode.left_of_decode hfirst
      have := left_of_lengthRun hsecond
      have := ih hread
      omega
  | case4 =>
      simp only [Except.ok.injEq, Prod.mk.injEq] at hread
      simp [hread.2]

/-- How many words the three codes of a block may have. -/
structure WordCounts where
  literals : Nat
  distances : Nat
  lengths : Nat
  deriving DecidableEq, Repr

/-- Reads the numbers of words, which must not exceed the numbers of symbols in use. -/
def wordCounts (source : BitSource) : Except DeflateFault (WordCounts × BitSource) := do
  let (literals, source) ← number 5 source
  let (distances, source) ← number 5 source
  let (lengths, source) ← number 4 source
  if 286 < 257 + literals ∨ 30 < 1 + distances then .error .corrupt
  else .ok (⟨257 + literals, 1 + distances, 4 + lengths⟩, source)

theorem left_of_wordCounts {source rest : BitSource} {counts : WordCounts}
    (hread : wordCounts source = .ok (counts, rest)) : rest.left ≤ source.left := by
  simp only [wordCounts, bind, Except.bind] at hread
  split at hread
  · simp at hread
  · rename_i hfirst
    split at hread
    · simp at hread
    · rename_i hsecond
      split at hread
      · simp at hread
      · rename_i hthird
        have := left_of_number hfirst
        have := left_of_number hsecond
        have := left_of_number hthird
        split at hread
        · simp at hread
        · simp only [Except.ok.injEq, Prod.mk.injEq] at hread
          rw [← hread.2]
          omega

/-- Reads the code for lengths, which must leave no gap. -/
def lengthCode (count : Nat) (source : BitSource) : Except DeflateFault (PrefixCode × BitSource) :=
  match lengthLengths (lengthOrder.take count) source with
  | .error e => .error e
  | .ok (given, rest) =>
      let words := (List.range lengthOrder.length).map fun symbol => (given.lookup symbol).getD 0
      if PrefixCode.isComplete words then .ok (.ofLengths words, rest) else .error .corrupt

theorem left_of_lengthCode {count : Nat} {source rest : BitSource} {code : PrefixCode}
    (hread : lengthCode count source = .ok (code, rest)) : rest.left ≤ source.left := by
  unfold lengthCode at hread
  split at hread
  · simp at hread
  · rename_i hgiven
    dsimp only at hread
    split at hread
    · simp only [Except.ok.injEq, Prod.mk.injEq] at hread
      rw [← hread.2]
      exact left_of_lengthLengths hgiven
    · simp at hread

/-- The codes for bytes and lengths and for distances, with words of the given lengths. -/
def codesOfLengths (lengths : List Nat) (literals : Nat) :
    Except DeflateFault (PrefixCode × PrefixCode) :=
  if PrefixCode.isUsable (lengths.drop literals) && PrefixCode.isUsable (lengths.take literals) then
    .ok (.ofLengths (lengths.take literals), .ofLengths (lengths.drop literals))
  else .error .corrupt

/-- The two codes that a block brings with it. -/
def ownCodes (source : BitSource) :
    Except DeflateFault ((PrefixCode × PrefixCode) × BitSource) := do
  let (counts, source) ← wordCounts source
  let (code, source) ← lengthCode counts.lengths source
  let (lengths, source) ← codeLengths code (counts.literals + counts.distances) source []
  let codes ← codesOfLengths lengths counts.literals
  return (codes, source)

theorem left_of_ownCodes {source rest : BitSource} {codes : PrefixCode × PrefixCode}
    (hread : ownCodes source = .ok (codes, rest)) : rest.left ≤ source.left := by
  simp only [ownCodes, bind, Except.bind, pure, Except.pure] at hread
  split at hread
  · simp at hread
  · rename_i hfirst
    split at hread
    · simp at hread
    · rename_i hsecond
      split at hread
      · simp at hread
      · rename_i hthird
        have := left_of_wordCounts hfirst
        have := left_of_lengthCode hsecond
        have := left_of_codeLengths hthird
        split at hread
        · simp at hread
        · simp only [Except.ok.injEq, Prod.mk.injEq] at hread
          rw [← hread.2]
          omega

/-- The content of a block whose kind has been read. -/
def body (kind : Nat) (source : BitSource) (out : Array UInt8) :
    Except DeflateFault (Array UInt8 × BitSource) :=
  if kind = 0 then stored source out
  else if kind = 1 then symbols fixedLiterals fixedDistances source out
  else if kind = 2 then
    match ownCodes source with
    | .error e => .error e
    | .ok ((literals, distances), rest) => symbols literals distances rest out
  else .error .corrupt

theorem left_of_body {kind : Nat} {source rest : BitSource} {out result : Array UInt8}
    (hread : body kind source out = .ok (result, rest)) : rest.left ≤ source.left := by
  unfold body at hread
  split at hread
  · exact left_of_stored hread
  · split at hread
    · exact left_of_symbols hread
    · split at hread
      · split at hread
        · simp at hread
        · rename_i hcodes
          have := left_of_ownCodes hcodes
          have := left_of_symbols hread
          omega
      · simp at hread

/-- Reads blocks up to the last one. Returns all content and the whole bytes after it. -/
def blocks (source : BitSource) (out : Array UInt8) : Except DeflateFault (Array UInt8 × Bytes) :=
  match _first : number 3 source with
  | .error e => .error e
  | .ok (start, rest) =>
      match _second : body (start / 2) rest out with
      | .error e => .error e
      | .ok (out, rest) => if start % 2 = 1 then .ok (out, rest.wholeBytes) else blocks rest out
termination_by source.left
decreasing_by
  have := left_of_number _first
  have := left_of_body _second
  omega

end RoutedSession.Gzip.Inflate
