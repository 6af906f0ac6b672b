import RoutedSession.Packet.Basic
import RoutedSession.Pieces

/-!
Packets out of a stream that arrives in pieces. A header leaves the buffer as soon as it is
complete; its packet follows once the payload is complete too.
-/

namespace RoutedSession

/-- Bytes that have arrived and belong to no complete packet yet. -/
structure PacketBuffer where
  /-- The longest payload that is accepted. -/
  limit : Nat
  /-- The header whose payload is awaited. -/
  awaiting : Option Header
  /-- The bytes after that header, or from the start of the next one. -/
  held : Pieces

namespace PacketBuffer

/-- A buffer that has seen nothing. -/
def empty (limit : Nat) : PacketBuffer :=
  ⟨limit, none, .empty⟩

/-- What cutting bytes yields: the packets found, the error that stopped it, if one did, and what is
left over, with the header whose payload it belongs to. A bad header is left over. -/
structure Cut where
  packets : List Packet
  failure : Option FramingError
  awaiting : Option Header
  rest : Bytes
  deriving DecidableEq, Repr

def Cut.cons (packet : Packet) (cut : Cut) : Cut :=
  { cut with packets := packet :: cut.packets }

/-- Takes every complete packet off the front of the bytes. -/
def cut (limit : Nat) (awaiting : Option Header) (bytes : Bytes) : Cut :=
  match awaiting with
  | some header =>
      if Bytes.hasAtLeast header.length bytes then
        (cut limit none (bytes.drop header.length)).cons ⟨header.kind, bytes.take header.length⟩
      else ⟨[], none, some header, bytes⟩
  | none =>
      match _parsed : Header.parse? limit bytes with
      | .error e => ⟨[], some e, none, bytes⟩
      | .ok none => ⟨[], none, none, bytes⟩
      | .ok (some (header, rest)) => cut limit (some header) rest
termination_by 2 * bytes.length + awaiting.toList.length
decreasing_by
  · simp only [List.length_drop, Option.toList_some, Option.toList_none, List.length_cons,
      List.length_nil]
    omega
  · have := Header.length_of_parse? _parsed
    simp [Header.size] at *
    omega

/-- What a buffer makes of a cut. On an error the packets found before it are lost. -/
def ofCut (limit : Nat) (cut : Cut) : Except FramingError (List Packet) × PacketBuffer :=
  (match cut.failure with
    | some e => .error e
    | none => .ok cut.packets,
    ⟨limit, cut.awaiting, .ofBytes cut.rest⟩)

/-- Adds bytes and takes out the packets that are complete now. As long as an awaited payload is not
complete there is nothing to cut. -/
def push (buffer : PacketBuffer) (bytes : Bytes) :
    Except FramingError (List Packet) × PacketBuffer :=
  let held := buffer.held.append bytes
  if buffer.awaiting.any fun header => held.size < header.length then
    (.ok [], { buffer with held })
  else ofCut buffer.limit (cut buffer.limit buffer.awaiting held.bytes)

theorem cut_of_incomplete (limit : Nat) {header : Header} {bytes : Bytes}
    (hincomplete : bytes.length < header.length) :
    cut limit (some header) bytes = ⟨[], none, some header, bytes⟩ := by
  unfold cut
  have hmissing : Bytes.hasAtLeast header.length bytes = false := by
    rw [Bool.eq_false_iff, ne_eq, Bytes.hasAtLeast_eq_true]
    omega
  simp [hmissing]

/-- Adding bytes comes to the same as cutting all bytes that are there, however they are kept. -/
theorem push_eq (buffer : PacketBuffer) (bytes : Bytes) :
    let after := cut buffer.limit buffer.awaiting (buffer.held.bytes ++ bytes)
    (buffer.push bytes).1 = (ofCut buffer.limit after).1 ∧
      (buffer.push bytes).2.limit = buffer.limit ∧
      (buffer.push bytes).2.awaiting = after.awaiting ∧
      (buffer.push bytes).2.held.bytes = after.rest := by
  dsimp only [push]
  split
  · rename_i hincomplete
    cases hawaited : buffer.awaiting with
    | none => simp [hawaited] at hincomplete
    | some header =>
        have hshort : (buffer.held.bytes ++ bytes).length < header.length := by
          rw [← Pieces.bytes_append, Pieces.length_bytes]
          simpa [hawaited] using hincomplete
        rw [cut_of_incomplete _ hshort]
        exact ⟨rfl, rfl, rfl, Pieces.bytes_append _ _⟩
  · rw [Pieces.bytes_append]
    exact ⟨rfl, rfl, rfl, Pieces.bytes_ofBytes _⟩

/-- Forgets everything but the limit. -/
def clear (buffer : PacketBuffer) : PacketBuffer :=
  empty buffer.limit

end PacketBuffer

end RoutedSession
