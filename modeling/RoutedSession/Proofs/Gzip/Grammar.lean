import RoutedSession.Gzip.Inflate
import RoutedSession.Proofs.Gzip.Words

/-!
The written form of deflated data, without reference to a reader: which bits a writer may use for
some content. The same content has many forms, and a relation between the two is all there is.
-/

namespace RoutedSession.Gzip.Deflated

open PrefixCode

/-- Bytes go on with `count` more, each the same as the one `distance` places before it. -/
structure Repeats (distance count : Nat) (before after : Bytes) : Prop where
  starts : before <+: after
  length_eq : after.length = before.length + count
  same : ∀ i, before.length ≤ i → i < after.length → after[i]? = after[i - distance]?

/-- A symbol and the bits behind it stand for a length or a distance. -/
inductive Steps (steps : List (Nat × Nat)) (symbol : Nat) : (value : Nat) → List Bool → Prop where
  | mk {least extra more : Nat} (hentry : steps[symbol]? = some (least, extra))
      (hmore : more < 2 ^ extra) : Steps steps symbol (least + more) (lowBits extra more)

/-- Bits that spell content up to the end of a block, in words of the given lengths. -/
inductive Spells (literals distances : List Nat) : (before : Bytes) → List Bool →
    (after : Bytes) → Prop where
  /-- The block ends. -/
  | blockEnd {before : Bytes} {word : List Bool} (hword : word? literals 256 = some word) :
      Spells literals distances before word before
  /-- A byte that stands for itself. -/
  | byte {before after : Bytes} {b : UInt8} {word bits : List Bool}
      (hword : word? literals b.toNat = some word)
      (hrest : Spells literals distances (before ++ [b]) bits after) :
      Spells literals distances before (word ++ bits) after
  /-- Bytes that came before are repeated. -/
  | copy {before middle after : Bytes} {index symbol length distance : Nat}
      {word extra word' extra' bits : List Bool}
      (hword : word? literals (257 + index) = some word)
      (hlength : Steps Inflate.lengthSteps index length extra)
      (hword' : word? distances symbol = some word')
      (hdistance : Steps Inflate.distanceSteps symbol distance extra')
      (hplace : distance ≤ before.length) (hcopy : Repeats distance length before middle)
      (hrest : Spells literals distances middle bits after) :
      Spells literals distances before (word ++ (extra ++ (word' ++ (extra' ++ bits)))) after

/-- What a symbol of the code for lengths and the bits behind it add to the lengths before. -/
inductive Run (before : List Nat) : (symbol : Nat) → List Bool → (added : List Nat) → Prop where
  /-- A length that stands for itself. -/
  | length {n : Nat} (hn : n < 16) : Run before n [] [n]
  /-- The last length three to six times more. -/
  | again {last n : Nat} (hlast : before.getLast? = some last) (hn : n < 4) :
      Run before 16 (lowBits 2 n) (List.replicate (3 + n) last)
  /-- Three to ten symbols without a word. -/
  | zeros {n : Nat} (hn : n < 8) : Run before 17 (lowBits 3 n) (List.replicate (3 + n) 0)
  /-- Up to 138 symbols without a word. -/
  | manyZeros {n : Nat} (hn : n < 128) : Run before 18 (lowBits 7 n) (List.replicate (11 + n) 0)

/-- Bits that spell lengths of words, themselves in words of the given lengths. -/
inductive SpellsLengths (words : List Nat) : (before : List Nat) → List Bool →
    (after : List Nat) → Prop where
  | done {before : List Nat} : SpellsLengths words before [] before
  | run {before added after : List Nat} {symbol : Nat} {word extra bits : List Bool}
      (hword : word? words symbol = some word) (hrun : Run before symbol extra added)
      (hrest : SpellsLengths words (before ++ added) bits after) :
      SpellsLengths words before (word ++ (extra ++ bits)) after

/-- Lengths of words that a block may bring with it: the words leave no gap, or there is none at
all, or a single one of one bit. -/
inductive Usable (lengths : List Nat) : Prop where
  | complete (hkraft : kraft lengths = 2 ^ maxLength)
  | unused (hnone : ∀ length ∈ lengths, length = 0)
  | single (hone : lengths.count 1 = 1) (hmost : ∀ length ∈ lengths, length ≤ 1)

/-- The bits that give the lengths of the words in which lengths are written. They stand in an order
of their own, and zeros at the end of that order may be left out. -/
structure GivesWords (words : List Nat) (count : Nat) (bits : List Bool) : Prop where
  length_eq : words.length = 19
  small : ∀ length ∈ words, length < 8
  complete : kraft words = 2 ^ maxLength
  count_bounds : 4 ≤ count ∧ count ≤ 19
  left_out : ∀ symbol ∈ Inflate.lengthOrder.drop count, words.getD symbol 0 = 0
  bits_eq : bits =
    (Inflate.lengthOrder.take count).flatMap fun symbol => lowBits 3 (words.getD symbol 0)

/-- The bits in front of a block that brings its own two codes. -/
inductive Codes (literals distances : List Nat) : List Bool → Prop where
  | mk {words : List Nat} {count : Nat} {given spelled : List Bool}
      (hliterals : 257 ≤ literals.length ∧ literals.length ≤ 286)
      (hdistances : 1 ≤ distances.length ∧ distances.length ≤ 30)
      (husable : Usable literals) (husable' : Usable distances)
      (hgiven : GivesWords words count given)
      (hspelled : SpellsLengths words [] spelled (literals ++ distances)) :
      Codes literals distances
        (lowBits 5 (literals.length - 257) ++ (lowBits 5 (distances.length - 1) ++
          (lowBits 4 (count - 4) ++ (given ++ spelled))))

/-- The bits of a block of a kind, from a position in the data on. -/
inductive Block (position : Nat) : (kind : Nat) → (before : Bytes) → List Bool →
    (after : Bytes) → Prop where
  /-- Bytes as they are, from the next whole byte on, behind their number and its complement. -/
  | stored {before content : Bytes} {padding : List Bool} (hshort : padding.length < 8)
      (haligned : (position + padding.length) % 8 = 0) (hcontent : content.length ≤ 65535) :
      Block position 0 before
        (padding ++ bitsOf (Bytes.ofNatLE 2 content.length ++
          (Bytes.ofNatLE 2 (65535 - content.length) ++ content)))
        (before ++ content)
  /-- The two codes that are known to everyone. -/
  | fixed {before after : Bytes} {bits : List Bool}
      (hbits : Spells Inflate.fixedLiteralLengths Inflate.fixedDistanceLengths before bits after) :
      Block position 1 before bits after
  /-- Two codes that the block brings with it. -/
  | own {before after : Bytes} {literals distances : List Nat} {head bits : List Bool}
      (hhead : Codes literals distances head)
      (hbits : Spells literals distances before bits after) :
      Block position 2 before (head ++ bits) after

/-- The bits of a sequence of blocks. The first bit of each tells whether it is the last one, and
the next two its kind. -/
inductive Blocks : (position : Nat) → (before : Bytes) → List Bool → (after : Bytes) → Prop where
  | last {position kind : Nat} {before after : Bytes} {bits : List Bool}
      (hblock : Block (position + 3) kind before bits after) :
      Blocks position before (true :: (lowBits 2 kind ++ bits)) after
  | more {position kind : Nat} {before middle after : Bytes} {bits bits' : List Bool}
      (hblock : Block (position + 3) kind before bits middle)
      (hrest : Blocks (position + 3 + bits.length) middle bits' after) :
      Blocks position before (false :: (lowBits 2 kind ++ (bits ++ bits'))) after

/-- Bytes that hold the blocks of some content and nothing else but the rest of a last byte. -/
inductive Data (content : Bytes) : Bytes → Prop where
  | mk {bytes : Bytes} {bits padding : List Bool} (hblocks : Blocks 0 [] bits content)
      (hpadding : padding.length < 8) (hbytes : bitsOf bytes = bits ++ padding) : Data content bytes

end RoutedSession.Gzip.Deflated
