import RoutedSession.Gzip.Checksum
import RoutedSession.Gzip.Inflate

namespace RoutedSession

/-- Why bytes are not a gzip member. -/
inductive GzipError where
  /-- The header or the trailer ends early. -/
  | unexpectedEnd
  /-- The compressed data ends early. -/
  | incompleteData
  /-- No gzip, another method, or flags without a meaning. -/
  | invalidHeader
  /-- A name or comment in the header is too long. -/
  | headerFieldTooLong
  /-- The compressed data is invalid. -/
  | corruptData
  /-- A check value or the length does not fit. -/
  | checkFailed
  deriving DecidableEq, Repr

def GzipError.message : GzipError → String
  | unexpectedEnd => "unexpected end of file"
  | incompleteData => "incomplete deflate stream"
  | invalidHeader => "invalid gzip header"
  | headerFieldTooLong => "gzip header field too long"
  | corruptData => "corrupt deflate stream"
  | checkFailed => "corrupt gzip stream does not have a matching checksum"

def GzipError.ofFault : Gzip.DeflateFault → GzipError
  | .incomplete => incompleteData
  | .corrupt => corruptData

namespace Gzip

/-- The first two bytes of every member. -/
def magic : Bytes := [0x1f, 0x8b]

/-- Whether bytes start as every member does. -/
def isCompressed (bytes : Bytes) : Bool :=
  magic.isPrefixOf bytes

/-- Takes a number of bytes of the header or trailer. -/
def takeBytes (count : Nat) (bytes : Bytes) : Except GzipError (Bytes × Bytes) :=
  match Bytes.split? count bytes with
  | none => .error .unexpectedEnd
  | some found => .ok found

/-- The longest name or comment. -/
def maxFieldLength : Nat := 65535

/-- Takes the bytes up to a zero byte, which is dropped. -/
def takeField (room : Nat) (taken : Bytes) : Bytes → Except GzipError (Bytes × Bytes)
  | [] => .error .unexpectedEnd
  | b :: rest =>
      if b = 0 then .ok (taken.reverse, rest)
      else
        match room with
        | 0 => .error .headerFieldTooLong
        | room + 1 => takeField room (b :: taken) rest

/-- The optional parts of a header that its flags announce. -/
structure HeaderFlags where
  check : Bool
  extra : Bool
  name : Bool
  comment : Bool
  deriving DecidableEq, Repr

/-- The flags in a byte, unless one without a meaning is set. -/
def HeaderFlags.ofByte? (b : UInt8) : Option HeaderFlags :=
  if b &&& 0xe0 ≠ 0 then none
  else some ⟨b &&& 2 ≠ 0, b &&& 4 ≠ 0, b &&& 8 ≠ 0, b &&& 16 ≠ 0⟩

/-- Takes the ten bytes that every header has, and judges them once they are all there. -/
def takeFixedHeader (bytes : Bytes) : Except GzipError ((HeaderFlags × Bytes) × Bytes) :=
  match takeBytes 10 bytes with
  | .error e => .error e
  | .ok (fixed, rest) =>
      match fixed with
      | a :: b :: method :: flags :: _ =>
          if [a, b] = magic ∧ method = 8 then
            match HeaderFlags.ofByte? flags with
            | none => .error .invalidHeader
            | some flags => .ok ((flags, fixed), rest)
          else .error .invalidHeader
      | _ => .error .invalidHeader

/-- Takes the extra part: its length in two bytes, then its bytes. Returns all of them. -/
def takeExtra (bytes : Bytes) : Except GzipError (Bytes × Bytes) := do
  let (length, rest) ← takeBytes 2 bytes
  let (extra, rest) ← takeBytes (Bytes.toNatLE length) rest
  return (length ++ extra, rest)

/-- Takes a text part, its zero byte included. -/
def takeText (bytes : Bytes) : Except GzipError (Bytes × Bytes) := do
  let (field, rest) ← takeField maxFieldLength [] bytes
  return (field ++ [0], rest)

/-- Takes a part of the header if it is announced. -/
def takeIf (announced : Bool) (take : Bytes → Except GzipError (Bytes × Bytes)) (bytes : Bytes) :
    Except GzipError (Bytes × Bytes) :=
  if announced then take bytes else .ok ([], bytes)

/-- The bytes behind a header. A check value in the header must fit the bytes before it. -/
def dropHeader (bytes : Bytes) : Except GzipError Bytes := do
  let ((flags, fixed), rest) ← takeFixedHeader bytes
  let (extra, rest) ← takeIf flags.extra takeExtra rest
  let (name, rest) ← takeIf flags.name takeText rest
  let (comment, rest) ← takeIf flags.comment takeText rest
  let (check, rest) ← takeIf flags.check (takeBytes 2) rest
  let seen := crc32 (fixed ++ extra ++ name ++ comment)
  if flags.check && Bytes.toNatLE check != seen.toNat % Nat.pow 2 16 then .error .checkFailed
  else return rest

/-- The content of the member at the start of the bytes. -/
def decompress (bytes : Bytes) : Except GzipError Bytes := do
  let rest ← dropHeader bytes
  match Inflate.blocks (.ofBytes rest) #[] with
  | .error fault => .error (.ofFault fault)
  | .ok (content, rest) =>
      let content := content.toList
      let (check, rest) ← takeBytes 4 rest
      let (length, _) ← takeBytes 4 rest
      if Bytes.toNatLE check = (crc32 content).toNat ∧
          Bytes.toNatLE length = content.length % Nat.pow 2 32 then
        return content
      else .error .checkFailed

/-- The most bytes that one block can store. -/
def maxStored : Nat := 65535

def storedBlock (isLast : Bool) (content : Bytes) : Bytes :=
  isLast.toUInt8 :: Bytes.ofNatLE 2 content.length ++
    Bytes.ofNatLE 2 (0xFFFF - content.length) ++ content

def storedBlocks (content : Bytes) : Bytes :=
  if content.length ≤ maxStored then storedBlock true content
  else storedBlock false (content.take maxStored) ++ storedBlocks (content.drop maxStored)
termination_by content.length
decreasing_by
  rename_i long
  simp only [List.length_drop, maxStored] at *
  omega

/-- A member with the given content: no time, no name, from an unknown system. -/
def compress (content : Bytes) : Bytes :=
  [0x1f, 0x8b, 8, 0, 0, 0, 0, 0, 0, 0xff] ++ storedBlocks content ++
    Bytes.ofNatLE 4 (crc32 content).toNat ++ Bytes.ofNatLE 4 content.length

end Gzip

end RoutedSession
