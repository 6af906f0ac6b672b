import RoutedSession.Proofs.Outbox.Order
import RoutedSession.Proofs.Packet.Cut
import RoutedSession.Session.Attempt

namespace RoutedSession

theorem Link.outgoing_read (link : Link) (limit : Nat) :
    (link.read limit).2.outgoing = link.outgoing := by
  unfold read
  split
  · rfl
  · split <;> rfl

theorem Link.outgoing_of_read {link rest : Link} {limit : Nat} {found : ReadResult}
    (hread : link.read limit = (found, rest)) : rest.outgoing = link.outgoing := by
  rw [← link.outgoing_read limit, hread]

namespace Attempt

/-- Whether the offer fits a packet. If it does not, nothing is written at all. -/
def Fits (request : HandshakeRequest) : Prop :=
  (offer request).payload.length ≤ Header.maxLength

def written (request : HandshakeRequest) : Bytes :=
  (offer request).bytes ++ confirmation.bytes

/-- What of an exchange is in the stream, which is `gone`, as far as the exchange has come. -/
inductive PhaseHolds (request : HandshakeRequest) (gone : Bytes) : AttemptPhase → Prop where
  | starting (hnone : gone = []) : PhaseHolds request gone .starting
  | offering {left : List Bytes} (hfits : Fits request)
      (hall : gone ++ left.flatten = (offer request).bytes) :
      PhaseHolds request gone (.offering left)
  | awaiting (buffer : PacketBuffer) (hfits : Fits request) (hall : gone = (offer request).bytes) :
      PhaseHolds request gone (.awaiting buffer)
  | confirming {left : List Bytes} (accepted : Accepted) (hfits : Fits request)
      (hall : gone ++ left.flatten = written request) :
      PhaseHolds request gone (.confirming left accepted)

/-- What of an exchange that is over is in the stream. -/
def Part (request : HandshakeRequest) (gone : Bytes) : Prop :=
  gone = [] ∨ Fits request ∧ gone <+: written request

/-- What of an exchange is in the stream after a turn. -/
inductive StateHolds (request : HandshakeRequest) (gone : Bytes) : State → Prop where
  | waiting {phase : AttemptPhase} (hphase : PhaseHolds request gone phase) :
      StateHolds request gone (.waiting phase)
  | accepted (accepted : Accepted) (hfits : Fits request) (hall : gone = written request) :
      StateHolds request gone (.accepted accepted)
  | failed (reason : SessionError) (hpart : Part request gone) :
      StateHolds request gone (.failed reason)

theorem PhaseHolds.part {request : HandshakeRequest} {gone : Bytes} {phase : AttemptPhase}
    (hholds : PhaseHolds request gone phase) : Part request gone := by
  have hoffer : (offer request).bytes <+: written request := List.prefix_append _ _
  cases hholds with
  | starting hnone => exact .inl hnone
  | offering hfits hall =>
      have hpart : gone <+: (offer request).bytes := ⟨_, hall⟩
      exact .inr ⟨hfits, hpart.trans hoffer⟩
  | awaiting buffer hfits hall => exact .inr ⟨hfits, hall ▸ hoffer⟩
  | confirming accepted hfits hall => exact .inr ⟨hfits, _, hall⟩

section

variable {request : HandshakeRequest} {front : Bytes}

theorem holds_confirm (hfits : Fits request) (share : Nat) {link : Link} {left : List Bytes}
    (accepted : Accepted) (hall : front ++ link.outgoing ++ left.flatten = written request) :
    StateHolds request (front ++ (confirm share link left accepted).2.outgoing)
      (confirm share link left accepted).1 := by
  have hleaves := Writer.leaves_writeOut "write zero" share link left
  unfold confirm writePacket
  rw [List.append_assoc] at hall
  generalize Writer.writeOut Link.sink "write zero" share link left = result at hleaves
  obtain ⟨progress, after⟩ := result
  cases hleaves with
  | finished share hafter => exact .accepted accepted hfits (by rw [hafter, hall])
  | halted isBlocked hafter =>
      refine .waiting (.confirming accepted hfits ?_)
      rw [List.append_assoc, hafter, hall]
  | failed reason hafter =>
      refine .failed _ (.inr ⟨hfits, ?_⟩)
      rw [← hall]
      exact (List.prefix_append_right_inj front).mpr hafter

theorem holds_readAnswer (hfits : Fits request) (share : Nat) (link : Link) (buffer : PacketBuffer)
    (hall : front ++ link.outgoing = (offer request).bytes) :
    StateHolds request (front ++ (readAnswer share link buffer).2.outgoing)
      (readAnswer share link buffer).1 := by
  have hpart {gone : Bytes} (hgone : gone = (offer request).bytes) : Part request gone :=
    (PhaseHolds.awaiting buffer hfits hgone).part
  -- Reading writes nothing, so all of the offer stays where it is until the answer is confirmed.
  fun_induction readAnswer share link buffer with
  | case1 => exact .waiting (.awaiting _ hfits hall)
  | case2 => exact .failed _ (hpart hall)
  | case3 => exact .waiting (.awaiting _ hfits hall)
  | case4 => exact .failed _ (hpart hall)
  | case5 link buffer share bytes rest hfound =>
      rw [← Link.outgoing_of_read hfound] at hall
      exact .failed _ (hpart hall)
  | case6 link buffer share bytes rest hfound buffer' hpush ih =>
      rw [← Link.outgoing_of_read hfound] at hall
      exact ih hall
  | case7 link buffer share bytes rest hfound =>
      rw [← Link.outgoing_of_read hfound] at hall
      exact .failed _ (hpart hall)
  | case8 link buffer share bytes rest hfound =>
      rw [← Link.outgoing_of_read hfound] at hall
      refine holds_confirm hfits _ _ ?_
      rw [hall, List.flatten_singleton, written]

theorem holds_writeOffer (hfits : Fits request) (limit share : Nat) {link : Link}
    {left : List Bytes} (hall : front ++ link.outgoing ++ left.flatten = (offer request).bytes) :
    StateHolds request (front ++ (writeOffer limit share link left).2.outgoing)
      (writeOffer limit share link left).1 := by
  have hleaves := Writer.leaves_writeOut "write zero" share link left
  unfold writeOffer writePacket
  rw [List.append_assoc] at hall
  generalize Writer.writeOut Link.sink "write zero" share link left = result at hleaves
  obtain ⟨progress, after⟩ := result
  cases hleaves with
  | finished share hafter =>
      exact holds_readAnswer hfits share after _ (by rw [hafter, hall])
  | halted isBlocked hafter =>
      refine .waiting (.offering hfits ?_)
      rw [List.append_assoc, hafter, hall]
  | failed reason hafter =>
      refine .failed _ (.inr ⟨hfits, ?_⟩)
      have hpart := (List.prefix_append_right_inj front).mpr hafter
      rw [hall] at hpart
      exact hpart.trans (List.prefix_append _ _)

theorem holds_poll {attempt : Attempt} (now : Nat) {link : Link}
    (hbefore : PhaseHolds attempt.request (front ++ link.outgoing) attempt.phase) :
    StateHolds attempt.request (front ++ (attempt.poll now link).2.outgoing)
      (attempt.poll now link).1 := by
  have hadvance : StateHolds attempt.request (front ++ (attempt.advance link).2.outgoing)
      (attempt.advance link).1 := by
    unfold advance
    split
    · rename_i hphase
      rw [hphase] at hbefore
      cases hbefore with
      | starting hnone =>
          split
          · exact .failed _ (.inl hnone)
          · rename_i bytes hencode
            obtain ⟨hfits, rfl⟩ := Packet.encode_eq_ok_iff.mp hencode
            refine holds_writeOffer hfits _ _ ?_
            rw [hnone, List.nil_append, List.flatten_singleton]
    · rename_i left hphase
      rw [hphase] at hbefore
      cases hbefore with
      | offering hfits hall => exact holds_writeOffer hfits _ _ hall
    · rename_i buffer hphase
      rw [hphase] at hbefore
      cases hbefore with
      | awaiting _ hfits hall => exact holds_readAnswer hfits _ _ _ hall
    · rename_i left accepted hphase
      rw [hphase] at hbefore
      cases hbefore with
      | confirming _ hfits hall => exact holds_confirm hfits _ _ hall
  unfold poll
  split
  · rename_i phase after hresult
    rw [hresult] at hadvance
    split
    · cases hadvance with
      | waiting hphase => exact .failed _ hphase.part
    · exact hadvance
  · exact hadvance

end

end Attempt

end RoutedSession
