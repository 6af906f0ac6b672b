import RoutedSession.Gzip.Member
import RoutedSession.Proofs.Gzip.Blocks

namespace RoutedSession.Gzip

/-- What the writer of a header can choose. A name or comment holds no zero byte, since one ends it,
and no more bytes than a reader accepts. -/
structure Header where
  isText : Bool := false
  time : Bytes
  hints : UInt8
  system : UInt8
  extra : Option Bytes := none
  name : Option Bytes := none
  comment : Option Bytes := none
  hasCheck : Bool := false
  time_length : time.length = 4 := by rfl
  extra_length : ∀ part ∈ extra, part.length < 65536 := by nofun
  name_valid : ∀ text ∈ name, 0 ∉ text ∧ text.length ≤ maxFieldLength := by nofun
  comment_valid : ∀ text ∈ comment, 0 ∉ text ∧ text.length ≤ maxFieldLength := by nofun

namespace Header

/-- Which optional parts there are, as a byte. -/
def flags (header : Header) : UInt8 :=
  (if header.isText then 1 else 0) ||| (if header.hasCheck then 2 else 0) |||
    (if header.extra.isSome then 4 else 0) ||| (if header.name.isSome then 8 else 0) |||
    (if header.comment.isSome then 16 else 0)

def fixedBytes (header : Header) : Bytes :=
  magic ++ ([8, header.flags] ++ (header.time ++ [header.hints, header.system]))

def extraBytes (header : Header) : Bytes :=
  header.extra.elim [] fun part => Bytes.ofNatLE 2 part.length ++ part

def textBytes (text : Option Bytes) : Bytes :=
  text.elim [] (· ++ [0])

/-- The header before its own check value. -/
def checked (header : Header) : Bytes :=
  header.fixedBytes ++ header.extraBytes ++ textBytes header.name ++ textBytes header.comment

def checkBytes (header : Header) : Bytes :=
  if header.hasCheck then Bytes.ofNatLE 2 (crc32 header.checked).toNat else []

def bytes (header : Header) : Bytes :=
  header.checked ++ header.checkBytes

end Header

/-- The bytes are one gzip member with the given content. -/
inductive Member (content : Bytes) : Bytes → Prop where
  | mk (header : Header) {data : Bytes} (hdata : Deflated.Data content data) :
      Member content (header.bytes ++ (data ++
        (Bytes.ofNatLE 4 (crc32 content).toNat ++ Bytes.ofNatLE 4 content.length)))

theorem takeBytes_append {count : Nat} {front : Bytes} (hfront : front.length = count)
    (rest : Bytes) : takeBytes count (front ++ rest) = .ok (front, rest) := by
  rw [takeBytes, Bytes.split?_eq_some_iff.mpr ⟨hfront, rfl⟩]

theorem takeFixedHeader_append (header : Header) (rest : Bytes) :
    takeFixedHeader (header.fixedBytes ++ rest) =
      .ok ((⟨header.hasCheck, header.extra.isSome, header.name.isSome, header.comment.isSome⟩,
        header.fixedBytes), rest) := by
  have hlength : header.fixedBytes.length = 10 := by
    simp [Header.fixedBytes, magic, header.time_length]
  have hflags : HeaderFlags.ofByte? header.flags =
      some ⟨header.hasCheck, header.extra.isSome, header.name.isSome, header.comment.isSome⟩ := by
    unfold Header.flags
    cases header.isText <;> cases header.hasCheck <;> cases header.extra.isSome <;>
      cases header.name.isSome <;> cases header.comment.isSome <;> rfl
  rw [takeFixedHeader, takeBytes_append hlength]
  simp only [Header.fixedBytes, magic, List.cons_append, List.nil_append, hflags, and_self, if_true]

theorem takeExtra_append {part : Bytes} (hpart : part.length < 65536) (rest : Bytes) :
    takeExtra (Bytes.ofNatLE 2 part.length ++ part ++ rest) =
      .ok (Bytes.ofNatLE 2 part.length ++ part, rest) := by
  have hlength : Bytes.toNatLE (Bytes.ofNatLE 2 part.length) = part.length := by
    rw [Bytes.toNatLE_ofNatLE]
    exact Nat.mod_eq_of_lt hpart
  rw [takeExtra, List.append_assoc, takeBytes_append (Bytes.length_ofNatLE 2 _)]
  simp only [bind, Except.bind, hlength, takeBytes_append rfl]
  rfl

theorem takeField_append {text : Bytes} {room : Nat} (hzero : 0 ∉ text) (hroom : text.length ≤ room)
    (taken rest : Bytes) :
    takeField room taken (text ++ 0 :: rest) = .ok (taken.reverse ++ text, rest) := by
  induction text generalizing room taken with
  | nil =>
      rw [List.append_nil, List.nil_append]
      unfold takeField
      exact if_pos rfl
  | cons b text ih =>
      rw [List.mem_cons, not_or] at hzero
      cases room with
      | zero => simp at hroom
      | succ room =>
          rw [List.cons_append, takeField, if_neg (Ne.symm hzero.1)]
          simpa using ih hzero.2 (Nat.le_of_succ_le_succ hroom) (b :: taken)

theorem takeText_append {text : Bytes} (htext : 0 ∉ text ∧ text.length ≤ maxFieldLength)
    (rest : Bytes) : takeText (text ++ [0] ++ rest) = .ok (text ++ [0], rest) := by
  rw [takeText, List.append_assoc, List.singleton_append, takeField_append htext.1 htext.2]
  rfl

theorem takeIf_append {take : Bytes → Except GzipError (Bytes × Bytes)} {part : Option Bytes}
    {write : Bytes → Bytes} (htake : ∀ content ∈ part, ∀ rest,
      take (write content ++ rest) = .ok (write content, rest)) (rest : Bytes) :
    takeIf part.isSome take (part.elim [] write ++ rest) = .ok (part.elim [] write, rest) := by
  cases part with
  | none => rfl
  | some content => exact htake content rfl rest

theorem takeCheck_append (header : Header) (rest : Bytes) :
    takeIf header.hasCheck (takeBytes 2) (header.checkBytes ++ rest) =
      .ok (header.checkBytes, rest) := by
  unfold Header.checkBytes takeIf
  cases header.hasCheck with
  | false => rfl
  | true => exact takeBytes_append (Bytes.length_ofNatLE 2 _) rest

theorem checkBytes_fit (header : Header) :
    (header.hasCheck && Bytes.toNatLE header.checkBytes !=
      (crc32 header.checked).toNat % Nat.pow 2 16) = false := by
  unfold Header.checkBytes
  cases header.hasCheck with
  | false => rfl
  | true => simp

theorem dropHeader_append (header : Header) (rest : Bytes) :
    dropHeader (header.bytes ++ rest) = .ok rest := by
  have hextra : ∀ rest, takeIf header.extra.isSome takeExtra (header.extraBytes ++ rest) =
      .ok (header.extraBytes, rest) :=
    takeIf_append fun part hpart => takeExtra_append (header.extra_length part hpart)
  have hname : ∀ rest, takeIf header.name.isSome takeText (Header.textBytes header.name ++ rest) =
      .ok (Header.textBytes header.name, rest) :=
    takeIf_append fun text htext => takeText_append (header.name_valid text htext)
  have hcomment : ∀ rest, takeIf header.comment.isSome takeText
      (Header.textBytes header.comment ++ rest) = .ok (Header.textBytes header.comment, rest) :=
    takeIf_append fun text htext => takeText_append (header.comment_valid text htext)
  have hparts : header.bytes ++ rest = header.fixedBytes ++ (header.extraBytes ++
      (Header.textBytes header.name ++ (Header.textBytes header.comment ++
        (header.checkBytes ++ rest)))) := by
    simp only [Header.bytes, Header.checked, List.append_assoc]
  rw [dropHeader, hparts, takeFixedHeader_append]
  simp only [bind, Except.bind, hextra, hname, hcomment, takeCheck_append]
  rw [← Header.checked, checkBytes_fit]
  rfl

theorem isCompressed_bytes (header : Header) (rest : Bytes) :
    isCompressed (header.bytes ++ rest) = true := by
  simp [isCompressed, Header.bytes, Header.checked, Header.fixedBytes, magic]

variable {content bytes : Bytes}

theorem Member.isCompressed_append (hmember : Member content bytes) (behind : Bytes) :
    isCompressed (bytes ++ behind) = true := by
  obtain ⟨header, hdata⟩ := hmember
  rw [List.append_assoc]
  exact isCompressed_bytes header _

theorem Member.decompress_append (hmember : Member content bytes) (behind : Bytes) :
    decompress (bytes ++ behind) = .ok content := by
  obtain ⟨header, hdata⟩ := hmember
  have hcheck : Bytes.toNatLE (Bytes.ofNatLE 4 (crc32 content).toNat) = (crc32 content).toNat := by
    rw [Bytes.toNatLE_ofNatLE]
    exact Nat.mod_eq_of_lt (crc32 content).toNat_lt
  simp only [List.append_assoc]
  rw [decompress, dropHeader_append]
  simp only [bind, Except.bind, Inflate.blocks_of_data hdata,
    takeBytes_append (Bytes.length_ofNatLE 4 _)]
  rw [if_pos ⟨hcheck, Bytes.toNatLE_ofNatLE 4 _⟩]
  rfl

theorem bitsOf_storedBlock {position : Nat} (hposition : position % 8 = 0) (isLast : Bool)
    (before : Bytes) {part : Bytes} (hpart : part.length ≤ maxStored) :
    ∃ bits, bitsOf (storedBlock isLast part) = isLast :: (lowBits 2 0 ++ bits) ∧
      Deflated.Block (position + 3) 0 before bits (before ++ part) := by
  have hshort : (lowBits 5 0).length < 8 := by decide
  refine ⟨_, ?_, .stored hshort ?_ hpart⟩
  · have hfirst : lowBits 8 isLast.toUInt8.toNat = isLast :: (lowBits 2 0 ++ lowBits 5 0) := by
      cases isLast <;> rfl
    rw [storedBlock, List.append_assoc, List.cons_append, bitsOf_cons, hfirst, List.cons_append,
      List.append_assoc]
  · rw [length_lowBits]
    omega

theorem blocks_storedBlocks {position : Nat} (hposition : position % 8 = 0)
    (before content : Bytes) :
    Deflated.Blocks position before (bitsOf (storedBlocks content)) (before ++ content) := by
  fun_induction storedBlocks content generalizing position before with
  | case1 content hshort =>
      obtain ⟨bits, hbits, hblock⟩ := bitsOf_storedBlock hposition true before hshort
      rw [hbits]
      exact .last hblock
  | case2 content hlong ih =>
      have hpart : (content.take maxStored).length ≤ maxStored := by simp
      obtain ⟨bits, hbits, hblock⟩ := bitsOf_storedBlock hposition false before hpart
      have hlength := congrArg List.length hbits
      rw [length_bitsOf, List.length_cons, List.length_append, length_lowBits] at hlength
      have hnext : (position + 3 + bits.length) % 8 = 0 := by omega
      have hrest := ih hnext (before ++ content.take maxStored)
      rw [List.append_assoc, List.take_append_drop] at hrest
      rw [bitsOf_append, hbits, List.cons_append, List.append_assoc]
      exact .more hblock hrest

/-- What is written without compression is a member too. -/
theorem member_compress (content : Bytes) : Member content (compress content) := by
  have hpadding : ([] : List Bool).length < 8 := by decide
  have hdata : Deflated.Data content (storedBlocks content) :=
    .mk (blocks_storedBlocks rfl [] content) hpadding (List.append_nil _).symm
  have hmember := Member.mk { time := [0, 0, 0, 0], hints := 0, system := 0xff } hdata
  simpa [compress, Header.bytes, Header.checked, Header.fixedBytes, Header.checkBytes,
    Header.extraBytes, Header.textBytes, Header.flags, magic] using hmember

end RoutedSession.Gzip
