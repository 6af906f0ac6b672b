import RoutedSession.Proofs.Packet.Cut
import RoutedSession.Proofs.Session.Tracking

namespace RoutedSession

/-- A table has the route of a message for the code that the message was sent with. -/
def Sending.ReadBy (theirs : RouteTable) (sending : Sending) : Prop :=
  ∀ code, sending.message.routeCode? sending.routes = some code →
    theirs.route? code = some sending.message.route

theorem Sending.Written.decode {sending : Sending} (hwritten : sending.Written)
    {theirs : RouteTable} (hread : sending.ReadBy theirs) :
    Message.decode theirs sending.packet.payload = .ok sending.message := by
  obtain ⟨⟨frame, hframe⟩, hnormal⟩ := hwritten
  rw [Message.decode_of_encode (Sending.packet_of_frame hframe).2, Message.arrival,
    Message.arrivingRoute]
  split
  · rw [hnormal]
    rfl
  · rename_i code hcode
    rw [hread code hcode, hnormal]
    rfl

theorem Sending.Written.encode {sending : Sending} (hwritten : sending.Written) :
    sending.message.encode sending.routes = .ok sending.packet.payload ∧
      sending.packet.encode = .ok sending.packet.bytes := by
  obtain ⟨⟨frame, hframe⟩, -⟩ := hwritten
  obtain ⟨hpacket, hencoded⟩ := Sending.packet_of_frame hframe
  refine ⟨hencoded, Packet.encode_eq_ok_iff.mpr ⟨?_, rfl⟩⟩
  rw [← hpacket]
  exact frame.fits

namespace Conversation

/-- All bytes that the peer has read. -/
def received (conversation : Conversation) : Bytes :=
  conversation.peer.received.reverse.flatten

/-- What a peer finds in bytes that it has read: every packet that is complete, and in the packets
behind the exchange the messages that were sent. -/
structure Recovers (settings : Settings) (journal : Journal) (bytes : Bytes)
    (found : List Packet) : Prop where
  complete : PacketBuffer.Complete (journal.packets settings) found bytes
  read : ∀ index packet, found[index + 2]? = some packet →
    ∃ sending, journal.sent[index]? = some sending ∧ packet.kind = .data ∧
      ∀ theirs, sending.ReadBy theirs →
        Message.decode theirs packet.payload = .ok sending.message

/-- How a client has written what its journal tells. -/
structure SendsInOrder (settings : Settings) (last : Conversation) (journal : Journal) : Prop where
  /-- Unless the offer fits a packet, nothing is written at all. -/
  offered : last.received ≠ [] →
    (Attempt.offer settings.request).encode = .ok (Attempt.offer settings.request).bytes
  /-- What was sent was written down with the codes of that time. -/
  encoded : ∀ sending ∈ journal.sent,
    sending.message.encode sending.routes = .ok sending.packet.payload ∧
      sending.packet.encode = .ok sending.packet.bytes
  received_first : last.received <+: (journal.packets settings).flatMap Packet.bytes
  /-- A call has sent one message or none, as it was told. -/
  calls : ∀ (index : SenderId) (call : Call), last.calls[index]? = some call →
    Sent index call.state (journal.sentBy index)
  others : ∀ index : SenderId, last.calls[index]? = none → journal.sentBy index = []
  /-- A notify that is tried is sent if the answer is that it was. -/
  tried : ∀ route payload,
    (journal.note last (.command (.onSession (.tryNotify route payload)))).sent =
      journal.sent ++
        match (last.perform (.onSession (.tryNotify route payload))).1 with
        | .sent (.ok ()) => [⟨.tried, last.routes, { kind := .notify, route, payload }⟩]
        | _ => []
  /-- Whoever accepts packets of such lengths finds them, in whatever pieces the bytes arrive. -/
  recovered : ∀ limit pieces,
    (∀ packet ∈ journal.packets settings, packet.payload.length ≤ limit) →
      pieces.flatten = last.received →
        ∃ found, PacketBuffer.feed (.empty limit) pieces = .ok found ∧
          Recovers settings journal last.received found

theorem recovers_of_complete {settings : Settings} {journal : Journal} {bytes : Bytes}
    {found : List Packet} (hwritten : ∀ sending ∈ journal.sent, sending.Written)
    (hcomplete : PacketBuffer.Complete (journal.packets settings) found bytes) :
    Recovers settings journal bytes found := by
  refine ⟨hcomplete, fun index packet hpacket => ?_⟩
  obtain ⟨rest, hrest⟩ := hcomplete.found_first
  obtain ⟨hindex, -⟩ := List.getElem?_eq_some_iff.mp hpacket
  rw [← List.getElem?_append_left hindex, hrest] at hpacket
  have hsent : (journal.sent.map Sending.packet)[index]? = some packet := hpacket
  rw [List.getElem?_map, Option.map_eq_some_iff] at hsent
  obtain ⟨sending, hsending, rfl⟩ := hsent
  refine ⟨sending, hsending, rfl, fun theirs hread => ?_⟩
  exact (hwritten sending (List.mem_of_getElem? hsending)).decode hread

theorem queue_tryNotify (conversation : Conversation) (route : String) (payload : Bytes) :
    match (conversation.perform (.onSession (.tryNotify route payload))).1 with
    | .sent (.ok ()) => ∃ frame,
        (conversation.move (.command (.onSession (.tryNotify route payload)))).queue =
          conversation.queue ++ [frame]
    | _ => (conversation.move (.command (.onSession (.tryNotify route payload)))).queue =
        conversation.queue := by
  unfold move
  dsimp only [perform]
  cases hsession : conversation.session? with
  | none => rfl
  | some connection =>
      obtain ⟨hconnection, -⟩ := Option.filter_eq_some_iff.mp hsession
      have hqueue := Journal.queue_of_connected (connection?_eq_some_iff.mp hconnection)
      have hcases := connection.tryNotify_cases route payload
      dsimp only [performOn]
      rw [hqueue]
      generalize connection.tryNotify route payload = tried at hcases
      obtain ⟨result, after⟩ := tried
      rcases hcases with ⟨reason, rfl, hframes⟩ | ⟨frame, -, rfl, hframes⟩
      · exact hframes
      · exact ⟨frame, hframes⟩

/-- Whatever happens in whatever order, what the peer has read are the first bytes of what the
client was asked to send. -/
theorem follow_sendsInOrder (settings : Settings) (capacity : Nat) (fault : Fault)
    (moves : List Move) :
    SendsInOrder settings ((start settings capacity fault).follow moves)
      (Journal.record {} (start settings capacity fault) moves) := by
  have htracks := (tracks_start settings capacity fault).follow moves
  generalize (start settings capacity fault).follow moves = last at htracks ⊢
  generalize Journal.record {} (start settings capacity fault) moves = journal at htracks ⊢
  have hwhole : (journal.packets settings).flatMap Packet.bytes =
      Attempt.written settings.request ++
        (journal.sent.map Sending.packet).flatMap Packet.bytes := by
    rw [Journal.packets, List.flatMap_cons, List.flatMap_cons, Attempt.written, List.append_assoc]
  have hreceived : last.received <+: last.carried := List.prefix_append _ _
  have hpart : last.received = [] ∨ Attempt.Fits settings.request ∧
      last.received <+: (journal.packets settings).flatMap Packet.bytes := by
    rw [hwhole]
    rcases htracks.stage.part with hnone | ⟨hfits, hfirst⟩
    · rw [hnone, List.prefix_nil] at hreceived
      exact .inl hreceived
    · exact .inr ⟨hfits, hreceived.trans hfirst⟩
  constructor
  case offered =>
    intro hsome
    rcases hpart with hnone | ⟨hfits, -⟩
    · exact absurd hnone hsome
    · exact Packet.encode_eq_ok_iff.mpr ⟨hfits, rfl⟩
  case encoded => exact fun sending hmem => (htracks.written sending hmem).encode
  case received_first =>
    rcases hpart with hnone | ⟨-, hfirst⟩
    · rw [hnone]
      exact List.nil_prefix
    · exact hfirst
  case calls => exact fun index call hcall => (htracks.calls index call hcall).1
  case others => exact htracks.others
  case tried =>
    intro route payload
    have hqueue := last.queue_tryNotify route payload
    split at hqueue
    · obtain ⟨frame, hqueue⟩ := hqueue
      exact Journal.sent_note_of_append rfl hqueue
    · rw [List.append_nil]
      exact Journal.sent_note_of_length_le (Nat.le_of_eq (by rw [hqueue]))
  case recovered =>
    intro limit pieces hlimit hpieces
    rw [← hpieces] at hpart ⊢
    suffices hfound : ∃ found, PacketBuffer.feed (.empty limit) pieces = .ok found ∧
        PacketBuffer.Complete (journal.packets settings) found pieces.flatten by
      obtain ⟨found, hfeed, hcomplete⟩ := hfound
      exact ⟨found, hfeed, recovers_of_complete htracks.written hcomplete⟩
    rcases hpart with hnone | ⟨hfits, hfirst⟩
    · have hshort : ∀ packet ∈ ([] : List Packet), packet.payload.length ≤ limit := by simp
      have hnothing : pieces.flatten <+: ([] : List Packet).flatMap Packet.bytes := by
        rw [hnone]
        exact List.nil_prefix
      obtain ⟨found, hfeed, hcomplete⟩ := PacketBuffer.feed_packets (by simp) hshort hnothing
      obtain rfl := List.prefix_nil.mp hcomplete.found_first
      rw [hnone]
      exact ⟨[], hfeed, PacketBuffer.complete_nil _⟩
    · refine PacketBuffer.feed_packets ?_ hlimit hfirst
      intro packet hmem
      rcases List.mem_cons.mp hmem with rfl | hmem
      · exact hfits
      · rcases List.mem_cons.mp hmem with rfl | hmem
        · exact Nat.zero_le _
        · obtain ⟨sending, hsending, rfl⟩ := List.mem_map.mp hmem
          obtain ⟨⟨frame, hframe⟩, -⟩ := htracks.written sending hsending
          rw [← (Sending.packet_of_frame hframe).1]
          exact frame.fits

end Conversation

end RoutedSession
