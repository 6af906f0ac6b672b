import RoutedSession.Proofs.Packet.Reads
import RoutedSession.Proofs.Session.Handover
import RoutedSession.Proofs.Session.Reads
import RoutedSession.Proofs.Session.Requests

namespace RoutedSession

open PacketBuffer (Ends pushAll)

/-- What pushing bytes would come to if no packet was lost with a bad header. -/
def PacketBuffer.pushWhole (buffer : PacketBuffer) (bytes : Bytes) :
    List Packet × Except FramingError PacketBuffer :=
  let found := buffer.cutAll bytes
  (found.packets,
    match found.failure with
    | some reason => .error reason
    | none => .ok ⟨buffer.limit, found.awaiting, .ofBytes found.rest⟩)

namespace Reader

/-- What the reader makes of packets, and of what is behind them: a bad header or a buffer. -/
def conclude (session : Session) (link : Link) :
    List Packet × Except FramingError PacketBuffer → Work
  | (packets, result) =>
      match session.dispatchAll packets with
      | (session, some reason) => finish session link reason
      | (session, none) =>
          match result with
          | .error reason => finish session link (.failed (.framing reason))
          | .ok buffer => ⟨.reading buffer, session, link⟩

/-- Two readers that hold the same bytes, in whatever pieces. -/
inductive Alike : Reader → Reader → Prop where
  | ended : Alike .ended .ended
  | reading {one other : PacketBuffer} (hlimit : one.limit = other.limit)
      (hawaiting : one.awaiting = other.awaiting) (hheld : one.held.bytes = other.held.bytes) :
      Alike (.reading one) (.reading other)

/-- What the pushes return does all that the packets do that there are up to a bad header. -/
def DoesAll (session : Session) (buffer : PacketBuffer) (pieces : List Bytes) : Prop :=
  session.dispatchAll (pushAll buffer pieces).1 =
    session.dispatchAll (buffer.cutAll pieces.flatten).packets

section

variable {session : Session} {buffer : PacketBuffer}

theorem conclude_append (session : Session) (link : Link) (front back : List Packet)
    (result : Except FramingError PacketBuffer) :
    conclude session link (front ++ back, result) =
      match session.dispatchAll front with
      | (session, some reason) => finish session link reason
      | (session, none) => conclude session link (back, result) := by
  unfold conclude
  dsimp only
  rcases hfront : session.dispatchAll front with ⟨middle, _ | reason⟩
  · rw [Session.dispatchAll_append hfront]
  · rw [Session.dispatchAll_append_of_some hfront]

theorem conclude_setLink (session : Session) (link other : Link)
    (result : List Packet × Except FramingError PacketBuffer) :
    conclude session other result = { conclude session link result with link := other } := by
  obtain ⟨packets, reason | buffer⟩ := result <;> unfold conclude <;> dsimp only <;>
    rcases session.dispatchAll packets with ⟨last, _ | reason⟩ <;> rfl

theorem conclude_cons (session : Session) (link : Link) (buffer : PacketBuffer) (bytes : Bytes)
    (rest : List Bytes) :
    (∃ last, takeIn session link buffer bytes = ⟨.ended, last, link⟩ ∧
      conclude session link (pushAll buffer (bytes :: rest)) = ⟨.ended, last, link⟩) ∨
    ∃ middle after, takeIn session link buffer bytes = ⟨.reading after, middle, link⟩ ∧
      middle.outbox.stopped = session.outbox.stopped ∧
      conclude session link (pushAll buffer (bytes :: rest)) =
        conclude middle link (pushAll after rest) := by
  unfold takeIn
  rw [pushAll]
  rcases buffer.push bytes with ⟨reason | packets, after⟩
  · exact .inl ⟨_, rfl, rfl⟩
  · dsimp only
    rw [conclude_append]
    have heffect := session.takeEffect_dispatches packets
    generalize session.dispatchAll packets = result at heffect ⊢
    obtain ⟨middle, _ | reason⟩ := result
    · exact .inr ⟨middle, after, rfl, heffect.keeps.stopped, rfl⟩
    · exact .inl ⟨_, rfl, rfl⟩

theorem takeIn_setLink (session : Session) (link other : Link) (buffer : PacketBuffer)
    (bytes : Bytes) :
    takeIn session other buffer bytes =
      { takeIn session link buffer bytes with link := other } := by
  have hsame (link : Link) :
      takeIn session link buffer bytes = conclude session link (pushAll buffer [bytes]) := by
    obtain ⟨last, htaken, hall⟩ | ⟨middle, after, htaken, -, hall⟩ :=
      conclude_cons session link buffer bytes [] <;> rw [htaken, hall]
    rfl
  rw [hsame other, hsame link]
  exact conclude_setLink session link other _

theorem conclude_alike (link : Link) {limit : Nat} {whole : PacketBuffer.Cut}
    {one other : List Packet × Except FramingError PacketBuffer} (hone : Ends limit whole one)
    (hother : Ends limit whole other)
    (hsame : session.dispatchAll one.1 = session.dispatchAll other.1) :
    (conclude session link one).session = (conclude session link other).session ∧
      (conclude session link one).reader.Alike (conclude session link other).reader := by
  unfold conclude
  cases hone with
  | complete hgood hlimit hawaiting hheld =>
      cases hother with
      | complete _ hlimit' hawaiting' hheld' =>
          dsimp only
          rcases session.dispatchAll whole.packets with ⟨last, _ | reason⟩
          · exact ⟨rfl, .reading (hlimit.trans hlimit'.symm) (hawaiting.trans hawaiting'.symm)
              (hheld.trans hheld'.symm)⟩
          · exact ⟨rfl, .ended⟩
      | failed hfailure => cases hgood.symm.trans hfailure
  | failed hfailure =>
      cases hother with
      | complete hgood => cases hgood.symm.trans hfailure
      | failed hfailure' =>
          obtain rfl := Option.some.inj (hfailure.symm.trans hfailure')
          dsimp only at hsame ⊢
          rw [hsame]
          split <;> exact ⟨rfl, .ended⟩

theorem ends_pushWhole (buffer : PacketBuffer) (bytes : Bytes) :
    Ends buffer.limit (buffer.cutAll bytes) (buffer.pushWhole bytes) := by
  unfold PacketBuffer.pushWhole
  dsimp only
  split
  · rename_i reason hfailure
    exact .failed hfailure (List.prefix_refl _)
  · rename_i hgood
    exact .complete hgood rfl rfl (Pieces.bytes_ofBytes _)

theorem doesAll_of_returnsAll {pieces : List Bytes} (hall : buffer.ReturnsAll pieces) :
    DoesAll session buffer pieces :=
  congrArg session.dispatchAll hall

theorem doesAll_of_isSome (hsettled : buffer.Settled) {pieces : List Bytes}
    (hends : (session.dispatchAll (pushAll buffer pieces).1).2.isSome = true) :
    DoesAll session buffer pieces := by
  have hpushed := hsettled.ends_pushAll pieces
  unfold DoesAll
  generalize pushAll buffer pieces = returned at hpushed hends ⊢
  cases hpushed with
  | complete => rfl
  | failed _ hfirst =>
      obtain ⟨back, hback⟩ := hfirst
      obtain ⟨reason, hreason⟩ := Option.isSome_iff_exists.mp hends
      rw [← hback, Session.dispatchAll_append_of_some (Prod.ext rfl hreason)]
      exact Prod.ext rfl hreason

theorem poll_of_read {link rest : Link} {bytes : Bytes}
    (hgoing : session.outbox.stopped = false) (hread : link.read chunk = (.got bytes, rest))
    (hblocked : rest.read chunk = (.blocked, rest)) :
    poll ⟨.reading buffer, session, link⟩ = takeIn session rest buffer bytes := by
  change readOn (126 + 1 + 1) session link buffer = _
  rw [readOn_succ, hgoing, hread]
  change (takeIn session rest buffer bytes).readOn (126 + 1) = _
  obtain ⟨last, htaken, -⟩ | ⟨middle, after, htaken, hstopped, -⟩ :=
    conclude_cons session rest buffer bytes []
  · rw [htaken]
    rfl
  · rw [htaken]
    change readOn (126 + 1) middle rest after = _
    rw [readOn_succ, hstopped, hgoing, hblocked]
    rfl

end

end Reader

namespace Link

/-- The client can read, but neither bytes nor the end of the stream are on their way to it. -/
structure Idle (link : Link) : Prop where
  held : link.toClient.held.size = 0
  lasting : link.toClient.isClosed = false
  sound : link.fault.read = false
  kept : link.isDropped = false

/-- The peer has put bytes into the stream. -/
def deliver (link : Link) (bytes : Bytes) : Link :=
  { link with toClient := link.toClient.put bytes }

theorem Idle.read {link : Link} (hidle : link.Idle) (limit : Nat) :
    link.read limit = (.blocked, link) := by
  simp only [Link.read, hidle.sound, hidle.held, hidle.lasting, Bool.false_eq_true, if_false,
    if_true]

theorem Idle.read_deliver {link : Link} (hidle : link.Idle) {bytes : Bytes} {limit : Nat}
    (hsome : bytes ≠ []) (hlimit : bytes.length ≤ limit)
    (hroom : bytes.length ≤ link.toClient.room) :
    ∃ rest, (link.deliver bytes).read limit = (.got bytes, rest) ∧ rest.Idle ∧
      rest.toClient.room = link.toClient.room := by
  have hnone : link.toClient.held.bytes = [] := by
    rw [← List.length_eq_zero_iff, Pieces.length_bytes, hidle.held]
  have hbytes : (link.toClient.held.append bytes).bytes = bytes := by
    rw [Pieces.bytes_append, hnone, List.nil_append]
  have hsize : (link.toClient.held.append bytes).size = bytes.length := by
    rw [← Pieces.length_bytes, hbytes]
  have hpositive : bytes.length ≠ 0 := List.length_eq_zero_iff.not.mpr hsome
  refine ⟨{ link with
    toClient :=
      { link.toClient with held := (link.toClient.held.append bytes).drop limit } }, ?_, ?_, rfl⟩
  · simp only [Link.read, deliver, Pipe.put, Pipe.take, hidle.sound, hsize, hpositive, hbytes,
      Bool.false_eq_true, if_false, List.take_of_length_le hlimit, Nat.sub_add_cancel hroom]
  · refine ⟨?_, hidle.lasting, hidle.sound, hidle.kept⟩
    change (link.toClient.held.append bytes).size - limit = 0
    rw [hsize, Nat.sub_eq_zero_of_le hlimit]

end Link

theorem Connection.pollReader_of_read {connection : Connection} {buffer : PacketBuffer}
    {link rest : Link} {bytes : Bytes} (hreading : connection.reader = .reading buffer)
    (hgoing : connection.session.outbox.stopped = false)
    (hread : link.read Reader.chunk = (.got bytes, rest))
    (hblocked : rest.read Reader.chunk = (.blocked, rest)) :
    (connection.pollReader link).1 =
        { connection with
          reader := (Reader.takeIn connection.session rest buffer bytes).reader
          session := (Reader.takeIn connection.session rest buffer bytes).session } ∧
      ∀ after, (Reader.takeIn connection.session rest buffer bytes).reader = .reading after →
        (connection.pollReader link).2 = rest := by
  unfold pollReader
  rw [hreading, Reader.poll_of_read hgoing hread hblocked]
  refine ⟨rfl, fun after hafter => ?_⟩
  have hlink : (Reader.takeIn connection.session rest buffer bytes).link = rest := by
    rw [Reader.takeIn_setLink _ link]
  unfold release hasEnded
  dsimp only
  rw [hafter, hlink, Bool.and_false, if_neg Bool.false_ne_true]

namespace Conversation

/-- The server sends bytes, and the reader gets them with one read. -/
def arrival (bytes : Bytes) : List Move :=
  [.command (.peerSends bytes false), .peerWrites, .task .reader]

/-- The server sends bytes again and again, and the reader gets them with one read each. -/
def arrivals (pieces : List Bytes) : List Move :=
  pieces.flatMap arrival

/-- The reader of a session waits for bytes, and the peer has sent none. -/
structure Listens (conversation : Conversation) (connection : Connection) (buffer : PacketBuffer) :
    Prop where
  stage : conversation.stage = .connected connection
  reading : connection.reader = .reading buffer
  going : connection.session.outbox.stopped = false
  idle : conversation.link.Idle
  outgoing : conversation.peer.outgoing = []
  speaking : conversation.peer.isEnding = false

/-- Bytes that one read can take, and for which there is room in the stream. -/
structure Readable (conversation : Conversation) (bytes : Bytes) : Prop where
  ne_nil : bytes ≠ []
  le_chunk : bytes.length ≤ Reader.chunk
  le_room : bytes.length ≤ conversation.link.toClient.room

section

variable {before : Conversation} {connection : Connection} {buffer : PacketBuffer} {bytes : Bytes}

theorem exists_arrival_of_ended (hstage : before.stage = .connected connection)
    (hended : connection.reader = .ended) (bytes : Bytes) :
    ∃ link peer, before.follow (arrival bytes) = { before with link, peer } := by
  have hsent : ∃ peer, before.move (.command (.peerSends bytes false)) = { before with peer } := by
    change ∃ peer, before.peerSends bytes false = { before with peer }
    unfold peerSends
    split
    · exact ⟨before.peer, rfl⟩
    · exact ⟨_, rfl⟩
  have hwritten (conversation : Conversation) :
      ∃ link peer, conversation.move .peerWrites = { conversation with link, peer } := by
    change ∃ link peer, conversation.peerWrites = { conversation with link, peer }
    unfold peerWrites
    dsimp only
    split
    · exact ⟨conversation.link, _, rfl⟩
    · exact ⟨_, _, rfl⟩
  have hidle (link : Link) (peer : Peer) :
      ({ before with link, peer } : Conversation).move (.task .reader) =
        { before with link, peer } := by
    have hwaits : connection.readerReady link = false := by
      rw [Connection.readerReady, hended]
      rfl
    change (if ({ before with link, peer } : Conversation).isReady .reader = true then _ else _) = _
    rw [isReady, connection?_eq_some_iff.mpr (by exact hstage), Option.any_some, hwaits]
    rfl
  obtain ⟨peer, hsent⟩ := hsent
  obtain ⟨link, last, hwritten⟩ := hwritten { before with peer }
  refine ⟨link, last, ?_⟩
  rw [arrival, follow_cons, hsent, follow_cons, hwritten, follow_cons, follow_nil]
  exact hidle link last

theorem Listens.follow_sent (hlistens : before.Listens connection buffer)
    (hreadable : before.Readable bytes) :
    before.follow [.command (.peerSends bytes false), .peerWrites] =
      { before with link := before.link.deliver bytes } := by
  obtain ⟨now, ⟨toPeer, toClient, fault, isDropped⟩, ⟨outgoing, isEnding⟩⟩ := before
  obtain ⟨-, -, -, ⟨-, -, -, rfl⟩, rfl, rfl⟩ := hlistens
  obtain ⟨-, -, hroom⟩ := hreadable
  dsimp only at hroom
  simp [Conversation.move, perform, peerSends, peerWrites, setPeer, Link.deliver,
    List.take_of_length_le hroom, hroom]

theorem Listens.exists_arrival (hlistens : before.Listens connection buffer)
    (hreadable : before.Readable bytes) :
    ∃ link, before.follow (arrival bytes) =
        { before with
          link
          stage := .connected
            { connection with
              reader := (Reader.takeIn connection.session before.link buffer bytes).reader
              session := (Reader.takeIn connection.session before.link buffer bytes).session } } ∧
      ∀ after, (Reader.takeIn connection.session before.link buffer bytes).reader =
        .reading after → link.Idle ∧ link.toClient.room = before.link.toClient.room := by
  obtain ⟨rest, hread, hidle, hroom⟩ := hlistens.idle.read_deliver hreadable.ne_nil
    hreadable.le_chunk hreadable.le_room
  obtain ⟨hnext, hlink⟩ := connection.pollReader_of_read hlistens.reading hlistens.going hread
    (hidle.read Reader.chunk)
  rw [Reader.takeIn_setLink _ before.link] at hnext hlink
  have hready : connection.readerReady (before.link.deliver bytes) = true := by
    have hlength := List.length_pos_of_ne_nil hreadable.ne_nil
    rw [Connection.readerReady, hlistens.reading]
    simp [Reader.isReady, Pipe.isReadable, Link.deliver, Pipe.put, Pieces.append, hlength]
  have hmove : ({ before with link := before.link.deliver bytes } : Conversation).move
      (.task .reader) = _ := move_reader hlistens.stage hready
  refine ⟨(connection.pollReader (before.link.deliver bytes)).2, ?_, fun after hafter => ?_⟩
  · change (before.follow [.command (.peerSends bytes false), .peerWrites]).move (.task .reader) = _
    rw [hlistens.follow_sent hreadable, hmove, hnext]
    rfl
  · rw [hlink after hafter]
    exact ⟨hidle, hroom⟩

theorem exists_arrivals_of_ended (hstage : before.stage = .connected connection)
    (hended : connection.reader = .ended) (pieces : List Bytes) :
    ∃ link peer, before.follow (arrivals pieces) = { before with link, peer } := by
  induction pieces generalizing before with
  | nil => exact ⟨before.link, before.peer, rfl⟩
  | cons bytes rest ih =>
      obtain ⟨link, peer, harrival⟩ := exists_arrival_of_ended hstage hended bytes
      obtain ⟨last, lastPeer, harrivals⟩ := @ih { before with link, peer } hstage
      refine ⟨last, lastPeer, ?_⟩
      rw [arrivals, List.flatMap_cons, follow_append, harrival]
      exact harrivals

/-- What takes effect are the packets that the pushes return. -/
theorem Listens.exists_arrivals (hlistens : before.Listens connection buffer) {pieces : List Bytes}
    (hreadable : ∀ bytes ∈ pieces, before.Readable bytes) :
    ∃ link peer, before.follow (arrivals pieces) =
      { before with
        link
        peer
        stage := .connected
          { connection with
            reader :=
              (Reader.conclude connection.session before.link (pushAll buffer pieces)).reader
            session :=
              (Reader.conclude connection.session before.link
                (pushAll buffer pieces)).session } } := by
  -- On the reads; if the first one does not end the session, the reader waits again behind it.
  induction pieces generalizing before connection buffer with
  | nil =>
      refine ⟨before.link, before.peer, ?_⟩
      change before =
        { before with stage := .connected { connection with reader := .reading buffer } }
      rw [← hlistens.reading, ← hlistens.stage]
  | cons bytes rest ih =>
      obtain ⟨hfirst, hrest⟩ := List.forall_mem_cons.mp hreadable
      obtain ⟨link, harrival, hlink⟩ := hlistens.exists_arrival hfirst
      rw [arrivals, List.flatMap_cons, follow_append, harrival]
      obtain ⟨last, htaken, hall⟩ | ⟨middle, after, htaken, hstopped, hall⟩ :=
        Reader.conclude_cons connection.session before.link buffer bytes rest
      · rw [htaken, hall]
        exact exists_arrivals_of_ended rfl rfl rest
      · rw [htaken] at hlink ⊢
        rw [hall]
        obtain ⟨hidle, hroom⟩ := hlink after rfl
        have hlater : Listens
            { before with
              link
              stage := .connected
                { connection with reader := .reading after, session := middle } }
            { connection with reader := .reading after, session := middle } after :=
          ⟨rfl, rfl, hstopped.trans hlistens.going, hidle, hlistens.outgoing, hlistens.speaking⟩
        obtain ⟨last, peer, harrivals⟩ := ih hlater fun bytes hmem =>
          ⟨(hrest bytes hmem).ne_nil, (hrest bytes hmem).le_chunk,
            (hrest bytes hmem).le_room.trans_eq hroom.symm⟩
        refine ⟨last, peer, ?_⟩
        rw [Reader.conclude_setLink middle link before.link]
        exact harrivals

end

/-- The reader has come to this, and nothing else has happened at the client's end. -/
def Became (before : Conversation) (connection : Connection) (work : Reader.Work)
    (after : Conversation) : Prop :=
  ∃ link peer reader, reader.Alike work.reader ∧
    after =
      { before with
        link
        peer
        stage := .connected { connection with reader, session := work.session } }

theorem Listens.became_of_alike {before : Conversation} {connection : Connection}
    {buffer : PacketBuffer} (hlistens : before.Listens connection buffer) {pieces : List Bytes}
    (hreadable : ∀ bytes ∈ pieces, before.Readable bytes) {work : Reader.Work}
    (hsame : (Reader.conclude connection.session before.link (pushAll buffer pieces)).session =
        work.session ∧
      (Reader.conclude connection.session before.link (pushAll buffer pieces)).reader.Alike
        work.reader) :
    Became before connection work (before.follow (arrivals pieces)) := by
  obtain ⟨link, peer, harrivals⟩ := hlistens.exists_arrivals hreadable
  rw [harrivals, hsame.1]
  exact ⟨link, peer, _, hsame.2, rfl⟩

/-- What becomes of a session whose reader waits, if the bytes of the server arrive in these
reads. -/
structure ArrivesInReads (before : Conversation) (connection : Connection) (buffer : PacketBuffer)
    (pieces : List Bytes) : Prop where
  /-- The packets take effect that the pushes return, up to the one for which the session ends. -/
  returned : Became before connection
    (Reader.conclude connection.session before.link (pushAll buffer pieces))
    (before.follow (arrivals pieces))
  /-- If these do all, then every packet has taken effect that there is up to a bad header. -/
  as_whole : Reader.DoesAll connection.session buffer pieces →
    Became before connection
      (Reader.conclude connection.session before.link (buffer.pushWhole pieces.flatten))
      (before.follow (arrivals pieces))
  /-- They do if there is no bad header, -/
  well_formed : (buffer.cutAll pieces.flatten).failure = none →
    Reader.DoesAll connection.session buffer pieces
  /-- if no read takes more bytes than a header has, -/
  small : (∀ bytes ∈ pieces, bytes.length ≤ Header.size) →
    Reader.DoesAll connection.session buffer pieces
  /-- and if the session ends with a packet from an earlier read. -/
  ended : (connection.session.dispatchAll (pushAll buffer pieces).1).2.isSome = true →
    Reader.DoesAll connection.session buffer pieces
  /-- If there is a bad header, the packets are lost that are complete only in the read that
  completes it, and no others. -/
  malformed : ∀ reason, (buffer.cutAll pieces.flatten).failure = some reason →
    ∃ front bytes rest, pieces = front ++ bytes :: rest ∧
      (buffer.cutAll front.flatten).failure = none ∧
      (buffer.cutAll (front.flatten ++ bytes)).failure = some reason ∧
      Became before connection
        (Reader.conclude connection.session before.link
          ((buffer.cutAll front.flatten).packets, .error reason))
        (before.follow (arrivals pieces))
  /-- Two ways to cut the same bytes come to the same, if the packets that the pushes return do the
  same. -/
  alike : ∀ other, other.flatten = pieces.flatten → (∀ bytes ∈ other, before.Readable bytes) →
    connection.session.dispatchAll (pushAll buffer other).1 =
        connection.session.dispatchAll (pushAll buffer pieces).1 →
      Became before connection
        (Reader.conclude connection.session before.link (pushAll buffer pieces))
        (before.follow (arrivals other))

/-- A bad header takes the packets with it that are complete only in the same read. Otherwise the
reads make no difference. -/
theorem follow_arrivesInReads {settings : Settings} {capacity : Nat} {fault : Fault}
    {front : List Move}
    {connection : Connection} {buffer : PacketBuffer} {pieces : List Bytes}
    (hlistens : ((start settings capacity fault).follow front).Listens connection buffer)
    (hreadable : ∀ bytes ∈ pieces, ((start settings capacity fault).follow front).Readable bytes) :
    ArrivesInReads ((start settings capacity fault).follow front) connection buffer pieces := by
  have hsettled : buffer.Settled := by
    obtain ⟨read, hdelivers⟩ := exists_delivers settings capacity fault front
    obtain ⟨first, -, hposition, -⟩ := hdelivers.connected hlistens.stage
    have hyields := hposition.yields (by rw [hlistens.reading, Reader.buffer?])
    have hcut := hyields.divides.cut_eq
    have hleft := PacketBuffer.cut_left_over (congrArg PacketBuffer.Cut.failure hcut)
    rw [hcut, ← hyields.limit_eq] at hleft
    exact hleft
  generalize (start settings capacity fault).follow front = before at hlistens hreadable ⊢
  have hpushed := hsettled.ends_pushAll pieces
  have hreturned : Became before connection
      (Reader.conclude connection.session before.link (pushAll buffer pieces))
      (before.follow (arrivals pieces)) :=
    hlistens.became_of_alike hreadable (Reader.conclude_alike before.link hpushed hpushed rfl)
  constructor
  case returned => exact hreturned
  case as_whole =>
    exact fun hall => hlistens.became_of_alike hreadable
      (Reader.conclude_alike before.link hpushed (Reader.ends_pushWhole buffer _) hall)
  case well_formed => exact fun hgood => Reader.doesAll_of_returnsAll (hsettled.returnsAll hgood)
  case small =>
    exact fun hsmall => Reader.doesAll_of_returnsAll (hsettled.returnsAll_of_small hsmall)
  case ended => exact fun hends => Reader.doesAll_of_isSome hsettled hends
  case malformed =>
    intro reason hfailure
    obtain ⟨front, bytes, rest, hsplit, hgood, hbad, hpackets⟩ :=
      hsettled.exists_pushAll_eq hfailure
    rw [hpackets] at hreturned
    exact ⟨front, bytes, rest, hsplit, hgood, hbad, hreturned⟩
  case alike =>
    intro other hbytes hothers hsame
    have hother := hsettled.ends_pushAll other
    rw [hbytes] at hother
    exact hlistens.became_of_alike hothers (Reader.conclude_alike before.link hother hpushed hsame)

/-- Two requests are pending, and the reader waits. -/
def listening : List Move :=
  twoPending ++ [.task .reader]

theorem exists_listens :
    ∃ connection buffer, ((start {} 4096 {}).follow listening).Listens connection buffer := by
  have hidle : ((start {} 4096 {}).follow listening).link.Idle :=
    ⟨by decide +kernel, by decide +kernel, by decide +kernel, by decide +kernel⟩
  have hstate : ((start {} 4096 {}).follow listening).connection?.map (fun connection =>
      (connection.session.outbox.stopped, connection.hasEnded .reader,
        connection.readerReady ((start {} 4096 {}).follow listening).link)) =
          some (false, false, false) := by
    decide +kernel
  obtain ⟨connection, hconnection, hwaits⟩ := Option.map_eq_some_iff.mp hstate
  simp only [Prod.mk.injEq] at hwaits
  obtain ⟨hgoing, hleft, hwaits⟩ := hwaits
  have hreading : ∃ buffer, connection.reader = .reading buffer := by
    unfold Connection.readerReady at hwaits
    cases hreader : connection.reader with
    | starting packets buffer =>
        rw [hreader] at hwaits
        cases hwaits
    | reading buffer => exact ⟨buffer, rfl⟩
    | ended =>
        rw [Connection.hasEnded_reader.mpr hreader] at hleft
        cases hleft
  obtain ⟨buffer, hreading⟩ := hreading
  exact ⟨connection, buffer, connection?_eq_some_iff.mp hconnection, hreading, hgoing, hidle,
    by decide +kernel, by decide +kernel⟩

theorem readable_listening {bytes : Bytes} (hsome : bytes ≠ []) (hlength : bytes.length ≤ 4096) :
    ((start {} 4096 {}).follow listening).Readable bytes where
  ne_nil := hsome
  le_chunk := hlength.trans (by decide)
  le_room := by
    have hroom : ((start {} 4096 {}).follow listening).link.toClient.room = 4096 := by
      decide +kernel
    rw [hroom]
    exact hlength

def answerAndPush : Bytes :=
  Packet.bytes ⟨.data, [4, 2, 9]⟩ ++ Packet.bytes ⟨.data, [6, 1, 112, 5]⟩

/-- Bytes with which no packet begins. -/
def garbage : Bytes :=
  [9, 0, 0, 0]

theorem follow_arrivesInReads_answerAndPush :
    ∃ connection buffer, ((start {} 4096 {}).follow listening).Listens connection buffer ∧
      (∀ bytes ∈ [answerAndPush, garbage], ((start {} 4096 {}).follow listening).Readable bytes) ∧
      ArrivesInReads ((start {} 4096 {}).follow listening) connection buffer
        [answerAndPush, garbage] := by
  have hreadable : ∀ bytes ∈ [answerAndPush, garbage],
      ((start {} 4096 {}).follow listening).Readable bytes := by
    intro bytes hmem
    have hlength : bytes ≠ [] ∧ bytes.length ≤ 4096 := by
      revert bytes
      decide
    exact readable_listening hlength.1 hlength.2
  obtain ⟨connection, buffer, hlistens⟩ := exists_listens
  exact ⟨connection, buffer, hlistens, hreadable, follow_arrivesInReads hlistens hreadable⟩

/-- What a request has come to, and the events that wait for the application. -/
def outcomeAndEvents (conversation : Conversation) (answer : PendingAnswer) :
    Option (Option Outcome × List Event) :=
  conversation.connection?.map fun connection =>
    ((answer.poll connection.session.pending).1, connection.session.events.held)

/-- With garbage behind them in the same read, the answer and the push are lost. -/
theorem cuttings_differ :
    [answerAndPush ++ garbage].flatten = [answerAndPush, garbage].flatten ∧
      ((start {} 4096 {}).follow
          (listening ++ arrivals [answerAndPush ++ garbage])).outcomeAndEvents ⟨2, 1⟩ =
        some (some (.error .closed),
          [.disconnected (.failed (.framing (.unknownKind 9)))]) ∧
      ((start {} 4096 {}).follow
          (listening ++ arrivals [answerAndPush, garbage])).outcomeAndEvents ⟨2, 1⟩ =
        some (some (.ok { kind := .response, id := 2, payload := [9] }),
          [.push { kind := .push, route := "p", payload := [5] },
            .disconnected (.failed (.framing (.unknownKind 9)))]) := by
  decide +kernel

end Conversation

end RoutedSession
