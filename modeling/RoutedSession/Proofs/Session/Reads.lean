import RoutedSession.Proofs.Session.Turns

namespace RoutedSession.Reader

open Relation (ReflTransGen)

open Session (ReaderChange)

/-- What the reader makes of the bytes of one read: they are cut as a whole, and the packets take
effect up to the first one for which the session has to end. -/
def takeIn (session : Session) (link : Link) (buffer : PacketBuffer) (bytes : Bytes) : Work :=
  match buffer.push bytes with
  | (.error reason, _) => finish session link (.failed (.framing reason))
  | (.ok packets, buffer) =>
      match session.dispatchAll packets with
      | (session, some reason) => finish session link reason
      | (session, none) => ⟨.reading buffer, session, link⟩

/-- The reader goes on reading, unless it has ended. -/
def Work.readOn (share : Nat) (work : Work) : Work :=
  match work.reader with
  | .reading buffer => Reader.readOn share work.session work.link buffer
  | .starting _ _ | .ended => work

theorem readOn_succ (share : Nat) (session : Session) (link : Link) (buffer : PacketBuffer) :
    readOn (share + 1) session link buffer =
      if session.outbox.stopped then finish session link .byClient
      else
        match link.read chunk with
        | (.blocked, link) => ⟨.reading buffer, session, link⟩
        | (.ended, link) => finish session link .byPeer
        | (.failed reason, link) => finish session link (.failed (.stream reason))
        | (.got bytes, rest) => (takeIn session rest buffer bytes).readOn share := by
  rw [readOn]
  split
  · rfl
  · split <;> rename_i hread <;> rw [hread]
    rename_i bytes rest
    dsimp only
    unfold takeIn
    rcases buffer.push bytes with ⟨reason | packets, after⟩
    · rfl
    · dsimp only
      rcases session.dispatchAll packets with ⟨last, _ | reason⟩ <;> rfl

theorem goes_takeIn (session : Session) (link : Link) (buffer : PacketBuffer) (bytes : Bytes) :
    ∃ cause?, session.Goes ReaderChange cause? (takeIn session link buffer bytes).session := by
  unfold takeIn
  split
  · exact ⟨_, goes_finish _ _ _⟩
  · rename_i packets after hpush
    have hchanges := (session.dispatchAll_spec packets).1
    split
    · rename_i middle reason hpackets
      rw [hpackets] at hchanges
      exact ⟨_, (goes_finish middle link reason).after_changes hchanges⟩
    · rename_i middle hpackets
      rw [hpackets] at hchanges
      exact ⟨none, .on hchanges⟩

end RoutedSession.Reader
