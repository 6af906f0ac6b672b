import RoutedSession.Proofs.Session.Intake

namespace RoutedSession

open PacketBuffer (Yields Divides)

theorem HandshakeResponse.code_of_parse {payload : Bytes} {response : HandshakeResponse}
    (hparsed : parse payload = .ok response) : response.code = accepted := by
  simp only [parse, bind, Except.bind] at hparsed
  split at hparsed
  · cases hparsed
  · split at hparsed
    · cases hparsed
    · split at hparsed
      · rename_i haccepted
        obtain rfl := Except.ok.inj hparsed
        exact haccepted
      · cases hparsed

theorem Attempt.judge_eq_ok_iff {packet : Packet} {response : HandshakeResponse} :
    judge packet = .ok response ↔
      packet.kind = .handshake ∧ HandshakeResponse.parse packet.payload = .ok response := by
  unfold judge
  split
  · rename_i hkind
    rw [and_iff_right hkind]
  · rename_i hkind
    exact iff_of_false nofun fun hjudged => hkind hjudged.1

namespace Reader

/-- The packets that the reader has and that have not taken effect. -/
def waiting : Reader → List Packet
  | .starting packets _ => packets
  | .reading _ | .ended => []

/-- What the reader keeps of a packet that is not complete. -/
def buffer? : Reader → Option PacketBuffer
  | .starting _ buffer | .reading buffer => some buffer
  | .ended => none

theorem ne_ended {reader : Reader} {buffer : PacketBuffer}
    (hbuffer : reader.buffer? = some buffer) : reader ≠ .ended := by
  rintro rfl
  cases hbuffer

/-- A turn is over: the reader goes on reading, or it has ended and so has the session. -/
def Left (work : Work) : Prop :=
  (∃ buffer, work.reader = .reading buffer) ∨
    work.reader = .ended ∧ work.session.reason.isSome = true

theorem left_finish (session : Session) (link : Link) (reason : CloseReason) :
    Left (finish session link reason) := by
  refine .inr ⟨rfl, ?_⟩
  unfold finish Session.terminate
  dsimp only
  split
  · rename_i hended
    exact hended ▸ rfl
  · rfl

theorem left_readOn (share : Nat) (session : Session) (link : Link) (buffer : PacketBuffer) :
    Left (readOn share session link buffer) := by
  fun_induction readOn share session link buffer with
  | case1 => exact .inl ⟨_, rfl⟩
  | case3 => exact .inl ⟨_, rfl⟩
  | case8 _ _ _ _ _ _ _ _ _ _ _ _ _ ih => exact ih
  | _ => exact left_finish _ _ _

theorem left_poll {reader : Reader} (hleft : reader ≠ .ended) (session : Session) (link : Link) :
    Left (poll ⟨reader, session, link⟩) := by
  unfold poll
  cases reader with
  | ended => exact absurd rfl hleft
  | reading buffer => exact left_readOn _ _ _ _
  | starting packets buffer =>
      dsimp only
      split
      · exact left_finish _ _ _
      · exact left_readOn _ _ _ _

theorem Left.waiting {work : Work} (hleft : Left work) : work.reader.waiting = [] := by
  rcases hleft with ⟨buffer, hreading⟩ | ⟨hended, -⟩
  · rw [hreading, Reader.waiting]
  · rw [hended, Reader.waiting]

section

variable {session : Session}

theorem dispatchesOn_of_stopped (hstopped : session.outbox.stopped = true) (share : Nat)
    (link : Link) (buffer : PacketBuffer) : dispatchesOn share session link buffer = [] := by
  cases share with
  | zero => rfl
  | succ share => rw [dispatchesOn, if_pos hstopped]

theorem dispatches_of_stopped (hstopped : session.outbox.stopped = true) (link : Link)
    (reader : Reader) : (reader.dispatches session link).map (·.packet) <+: reader.waiting := by
  cases reader with
  | ended => exact List.prefix_refl _
  | reading buffer =>
      rw [dispatches, dispatchesOn_of_stopped hstopped]
      exact List.prefix_refl _
  | starting packets buffer =>
      have heffect := session.takeEffect_dispatches packets
      rw [dispatches]
      split
      · rw [List.append_nil]
        exact session.dispatches_prefix packets
      · rename_i middle hpackets
        rw [hpackets] at heffect
        rw [dispatchesOn_of_stopped (heffect.keeps.stopped.trans hstopped), List.append_nil]
        exact session.dispatches_prefix packets

end

section

variable {limit : Nat} {read : Bytes} {first : Packet} {dispatched : List Dispatch}
  {reader : Reader}

theorem Position.exists_divides (hposition : Position limit read first dispatched reader) :
    ∃ found, Divides limit read found ∧ first :: dispatched.map (·.packet) <+: found.packets := by
  cases hposition with
  | starting hnone hyields =>
      subst hnone
      exact ⟨_, hyields.divides, (List.prefix_cons_inj first).mpr List.nil_prefix⟩
  | reading _ hyields => exact ⟨_, hyields.divides, List.prefix_refl _⟩
  | ended hover =>
      cases hover with
      | byPacket _ _ _ hyields =>
          exact ⟨_, hyields.divides, (List.prefix_cons_inj first).mpr (List.prefix_append _ _)⟩
      | otherwise _ hyields => exact ⟨_, hyields.divides, List.prefix_refl _⟩
      | malformed _ hdivides =>
          exact ⟨_, hdivides, (List.prefix_cons_inj first).mpr (List.prefix_append _ _)⟩

theorem Position.in_order (hposition : Position limit read first dispatched reader)
    {served left : Bytes} {answer : Packet} {packets : List Packet} {awaiting : Option Header}
    (hserved : Divides limit served ⟨answer :: packets, none, awaiting, left⟩)
    (hread : read <+: served) : first = answer ∧ dispatched.map (·.packet) <+: packets := by
  obtain ⟨found, hfound, hfirst⟩ := hposition.exists_divides
  exact List.cons_prefix_cons.mp (hfirst.trans (hfound.packets_front hserved rfl hread).2)

theorem Position.goesOn (hposition : Position limit read first dispatched reader)
    (hleft : reader ≠ .ended) : ∀ dispatch ∈ dispatched, dispatch.GoesOn := by
  cases hposition with
  | starting hnone =>
      rw [hnone]
      exact List.forall_mem_nil _
  | reading hgoing => exact hgoing
  | ended => exact absurd rfl hleft

theorem Position.goesOn_dropLast (hposition : Position limit read first dispatched reader) :
    ∀ dispatch ∈ dispatched.dropLast, dispatch.GoesOn := by
  by_cases hleft : reader = .ended
  · subst hleft
    obtain _ | _ | ⟨hover⟩ := hposition
    cases hover with
    | byPacket hlast hfront =>
        rw [hlast, List.dropLast_concat]
        exact hfront
    | otherwise hgoing => exact fun dispatch hmem => hgoing dispatch (List.mem_of_mem_dropLast hmem)
    | malformed hgoing => exact fun dispatch hmem => hgoing dispatch (List.mem_of_mem_dropLast hmem)
  · exact fun dispatch hmem => hposition.goesOn hleft dispatch (List.mem_of_mem_dropLast hmem)

theorem Position.yields (hposition : Position limit read first dispatched reader)
    {buffer : PacketBuffer} (hbuffer : reader.buffer? = some buffer) :
    Yields limit read (first :: (dispatched.map (·.packet) ++ reader.waiting)) buffer := by
  cases hposition with
  | starting hnone hyields =>
      obtain rfl := Option.some.inj hbuffer
      rw [hnone]
      exact hyields
  | reading _ hyields =>
      obtain rfl := Option.some.inj hbuffer
      rw [waiting, List.append_nil]
      exact hyields
  | ended => cases hbuffer

end

end Reader

namespace Conversation

section

variable {conversation : Conversation} {connection : Connection}

theorem exists_next_of_stopped (hstage : conversation.stage = .connected connection)
    (hstopped : connection.session.outbox.stopped = true) (move : Move) :
    ∃ next, (conversation.move move).stage = .connected next ∧
      (conversation.dispatchedBy move).map (·.packet) ++ next.reader.waiting <+:
        connection.reader.waiting := by
  rcases reader_or_aside conversation connection move with ⟨rfl, hready⟩ | haside
  · have hleft := Connection.reader_ne_ended hready
    refine ⟨_, by rw [move_reader hstage hready]; rfl, ?_⟩
    have hwaiting : (connection.pollReader conversation.link).1.reader.waiting = [] :=
      (Reader.left_poll hleft connection.session conversation.link).waiting
    rw [dispatchedBy_reader hstage hready, hwaiting, List.append_nil]
    exact Reader.dispatches_of_stopped hstopped _ _
  · obtain ⟨next, -, hnext, hsame, -⟩ := exists_next_aside hstage haside
    rw [dispatchedBy_eq_nil hstage haside]
    exact ⟨next, hnext, by rw [hsame]; exact List.prefix_refl _⟩

theorem Coherent.dispatched_of_ended (hcoherent : conversation.Coherent)
    (hstage : conversation.stage = .connected connection)
    (hended : connection.session.reason.isSome = true) (moves : List Move) :
    (conversation.dispatched moves).map (·.packet) <+: connection.reader.waiting := by
  induction moves generalizing conversation connection with
  | nil => exact List.nil_prefix
  | cons move moves ih =>
      have hstopped := (hcoherent connection hstage).outbox_stopped.trans hended
      obtain ⟨next, hnext, hfirst⟩ := exists_next_of_stopped hstage hstopped move
      obtain ⟨last, hlast, hsame⟩ := hcoherent.addsNothing_follow hstage hended [move]
      obtain rfl := Stage.connected.inj (hnext.symm.trans hlast)
      have hrest := ih (hcoherent.move move) hnext (by rw [hsame.reason, hended])
      rw [dispatched, collect, List.map_append]
      exact ((List.prefix_append_right_inj _).mpr hrest).trans hfirst

end

section

variable {settings : Settings} {capacity : Nat} {fault : Fault} {moves : List Move}
  {connection : Connection}

theorem isSome_reason_of_ended
    (hstage : ((start settings capacity fault).follow moves).stage = .connected connection)
    (hended : connection.reader = .ended) : connection.session.reason.isSome = true := by
  -- On the moves; only a turn of the reader ends it.
  induction moves using List.reverseRecOn generalizing connection with
  | nil => cases hstage
  | append_singleton moves move ih =>
      rw [follow_append_singleton] at hstage
      have hcoherent := (coherent_start settings capacity fault).follow moves
      generalize (start settings capacity fault).follow moves = before at ih hcoherent hstage
      by_cases hconnected : ∃ earlier, before.stage = .connected earlier
      · obtain ⟨earlier, hbefore⟩ := hconnected
        by_cases hover : earlier.reader = .ended
        · -- The session had ended already, and it stays so.
          obtain ⟨next, hnext, hsame⟩ :=
            hcoherent.addsNothing_follow hbefore (ih hbefore hover) [move]
          obtain rfl := Stage.connected.inj (hnext.symm.trans hstage)
          rw [hsame.reason]
          exact ih hbefore hover
        · rcases reader_or_aside before earlier move with ⟨rfl, hready⟩ | haside
          · rw [move_reader hbefore hready] at hstage
            obtain rfl := Stage.connected.inj hstage
            rcases Reader.left_poll hover earlier.session before.link with
              ⟨buffer, hreading⟩ | ⟨-, hreason⟩
            · cases hreading.symm.trans hended
            · exact hreason
          · obtain ⟨next, -, hnext, hsame, -⟩ := exists_next_aside hbefore haside
            obtain rfl := Stage.connected.inj (hnext.symm.trans hstage)
            exact absurd (hsame.symm.trans hended) hover
      · -- The reader of a new session has not even begun.
        rw [not_exists] at hconnected
        obtain ⟨chosen, accepted, rfl⟩ :=
          establish_of_opening (opening hconnected move) hconnected hstage
        change Reader.starting accepted.trailing accepted.buffer = .ended at hended
        cases hended

end

/-- The session has ended where the stream of the peer does. All that the peer was given to send has
been read, and it is not given more. -/
structure PeerEnded (settings : Settings) (served : Bytes) (dispatched : List Dispatch)
    (conversation : Conversation) : Prop where
  ending : conversation.peer.isEnding = true
  reader_ended : ∃ connection, conversation.stage = .connected connection ∧
    connection.reader = .ended
  going : ∀ dispatch ∈ dispatched, dispatch.GoesOn
  position : ∃ first, Reader.Position settings.maxPacketSize served first dispatched .ended

section

variable {settings : Settings} {read served : Bytes} {dispatches : List Dispatch}
  {calls : List RouteCall} {before : Conversation} {connection : Connection}

theorem PeerEnded.move (hbefore : PeerEnded settings served dispatches before) (move : Move) :
    PeerEnded settings (served ++ before.servedBy move) (dispatches ++ before.dispatchedBy move)
      (before.move move) := by
  obtain ⟨hending, ⟨connection, hstage, hended⟩, hgoing, hposition⟩ := hbefore
  have haside : move = .task .reader → connection.readerReady before.link = false := by
    intro
    rw [Connection.readerReady, hended]
    rfl
  have hserved : before.servedBy move = [] := by
    unfold servedBy
    split
    · rw [if_pos hending]
    · rfl
  obtain ⟨next, -, hnext, hsame, -⟩ := exists_next_aside hstage haside
  rw [hserved, dispatchedBy_eq_nil hstage haside, List.append_nil, List.append_nil]
  exact ⟨(passes_aside hstage haside).ending hending, ⟨next, hnext, hsame.trans hended⟩, hgoing,
    hposition⟩

theorem PeerEnded.dispatched_eq (hended : PeerEnded settings served dispatches before)
    {first : Packet} {packets : List Packet} {awaiting : Option Header} {left : Bytes}
    (hserved : Divides settings.maxPacketSize served ⟨first :: packets, none, awaiting, left⟩) :
    dispatches.map (·.packet) = packets := by
  obtain ⟨-, -, hgoing, answer, hposition⟩ := hended
  obtain _ | _ | ⟨hover⟩ := hposition
  cases hover with
  | byPacket hlast _ hends =>
      refine absurd (hgoing _ ?_) hends
      rw [hlast]
      exact List.mem_concat_self
  | otherwise _ hyields =>
      obtain ⟨⟩ := hyields.divides.unique hserved
      rfl
  | malformed _ hdivides => cases hdivides.unique hserved

theorem Delivers.peerEnded (hbefore : Delivers settings read served dispatches calls before)
    (hstage : before.stage = .connected connection) (hgoing : connection.session.reason = none)
    (hready : connection.readerReady before.link = true)
    (hpeer : (before.move (.task .reader)).reason? = some .byPeer) :
    PeerEnded settings (served ++ []) (dispatches ++ before.dispatchedBy (.task .reader))
      (before.move (.task .reader)) := by
  have hleft := Connection.reader_ne_ended hready
  have hmove := move_reader hstage hready
  have hafter : (before.move (.task .reader)).stage =
      .connected (connection.pollReader before.link).1 := by rw [hmove]; rfl
  rw [reason?_of_connected hafter] at hpeer
  obtain ⟨first, -, hposition, -⟩ := hbefore.connected hstage
  have hfront := hposition.goesOn hleft
  obtain ⟨more, htook, hturned, hcomes⟩ :=
    Reader.turned_poll hposition hleft connection.session before.link
  obtain ⟨hended, ⟨hnone, hclosed⟩, hback⟩ := hcomes.goesOn_of_byPeer hgoing hpeer
  -- The pipe is empty and closed, which the peer does only behind its last byte.
  obtain ⟨hending, hempty⟩ := hbefore.closes_last (htook.isClosed.symm.trans hclosed)
  have hall := hbefore.unread (hbefore.isDropped_eq_false hstage hleft)
  rw [Conversation.unread, htook.incoming, hnone, hempty, List.append_nil, List.append_nil] at hall
  rw [hended, hall] at hturned
  rw [List.append_nil, dispatchedBy_reader hstage hready]
  refine ⟨?_, ⟨_, hafter, hended⟩, List.forall_mem_append.mpr ⟨hfront, hback⟩, first, hturned⟩
  rw [hmove]
  exact hending

/-- However a course goes that ends with the stream, all that the peer was given to send has been
read by then. -/
theorem peerEnded_of_byPeer {capacity : Nat} {fault : Fault} {moves : List Move}
    (hpeer : ((start settings capacity fault).follow moves).reason? = some .byPeer) :
    PeerEnded settings ((start settings capacity fault).served moves)
      ((start settings capacity fault).dispatched moves)
      ((start settings capacity fault).follow moves) := by
  induction moves using List.reverseRecOn with
  | nil => cases hpeer
  | append_singleton moves move ih =>
      have hcoherent := (coherent_start settings capacity fault).follow moves
      obtain ⟨read, hdelivers⟩ := exists_delivers settings capacity fault moves
      rw [served, dispatched, collect_append_singleton, collect_append_singleton, follow_append,
        follow_cons, follow_nil]
      rw [follow_append_singleton] at hpeer
      cases hreason : ((start settings capacity fault).follow moves).reason? with
      | some reason =>
          have hsame := hcoherent.reason?_follow hreason [move]
          obtain rfl := Option.some.inj (hsame.symm.trans hpeer)
          exact (ih hreason).move move
      | none =>
          -- Of the causes only the reader's turn gives this reason.
          have hends := (hcoherent.reason?_move hreason move .byPeer).mp hpeer
          cases hends with
          | writerFailed _ _ hfails => cases hfails
          | readerEnded hstage hready =>
              rw [reason?_of_connected hstage] at hreason
              exact hdelivers.peerEnded hstage hreason hready hpeer

theorem Delivers.at_rest (hbefore : Delivers settings read served dispatches calls before)
    (hstage : before.stage = .connected connection) (hleft : connection.reader ≠ .ended)
    (hidle : before.isBusy = false) (hsilent : before.peerCanWrite = false) :
    ∃ buffer, connection.reader = .reading buffer ∧ before.unread = [] := by
  have hwaits : connection.readerReady before.link = false := by
    have hreader : Task.reader ∈ before.tasks := by simp [tasks]
    have hready := List.any_eq_false.mp hidle .reader hreader
    rwa [isReady, connection?_eq_some_iff.mpr hstage, Option.any_some, Bool.not_eq_true] at hready
  obtain ⟨first, -, hposition, -⟩ := hbefore.connected hstage
  have hopen := hbefore.isDropped_eq_false hstage hleft
  cases hreader : connection.reader with
  | ended => exact absurd hreader hleft
  | starting packets buffer =>
      rw [Connection.readerReady, hreader] at hwaits
      cases hwaits
  | reading buffer =>
      rw [hreader] at hposition
      have hsome := (hposition.yields rfl).ne_nil
      have hcapacity := hbefore.flows.resolve_left hsome
      rw [Connection.readerReady, hreader, Reader.isReady, Bool.or_eq_false_iff, Pipe.isReadable,
        Bool.or_eq_false_iff, decide_eq_false_iff_not, Nat.not_lt, Nat.le_zero] at hwaits
      obtain ⟨-, hnone, -⟩ := hwaits
      have hempty : before.link.incoming = [] :=
        List.eq_nil_of_length_eq_zero ((Pieces.length_bytes _).trans hnone)
      refine ⟨buffer, rfl, ?_⟩
      rw [Conversation.unread, hempty, List.nil_append]
      -- An empty pipe has room, so that the peer has nothing left.
      by_contra hmore
      rw [Pipe.capacity, hnone, Nat.add_zero] at hcapacity
      rw [← List.isEmpty_iff] at hmore
      simp [peerCanWrite, hopen, hmore, hcapacity] at hsilent

end

theorem TableOf.looks_up {settings : Settings} {response : HandshakeResponse}
    {calls : List RouteCall} {table : RouteTable}
    (htable : TableOf settings response calls table) {route : String} {code : RouteCode}
    (hstands : RouteTable.Stands (settings.mapOrder.arrange response.server.routes) (route, code))
    (hspared : ∀ call ∈ calls, call.Spares route code) :
    table.code? route = some code ∧ table.route? code = some route := by
  obtain ⟨made, hmade, rfl⟩ := htable
  rw [RouteTable.code?_eq_some_iff, RouteTable.route?_eq_some_iff, and_self]
  refine RouteTable.mem_entries_of_spares (fun call hmem => hspared call (hmade.subset hmem)) ?_
  exact RouteTable.mem_entries_extend.mpr (.inl hstands)

/-- What becomes of the packets behind the answer of a server, if some moves have led from the start
to a session. The peer has been given `first` to send, `packets` behind it, and the beginning of
another packet behind those. -/
structure HandsOver (origin : Conversation) (settings : Settings) (moves : List Move)
    (connection : Connection) (first : Packet) (packets : List Packet) (awaiting : Option Header)
    (left : Bytes) : Prop where
  answer : first.kind = .handshake ∧
    HandshakeResponse.parse first.payload = .ok connection.response ∧
      connection.response.code = HandshakeResponse.accepted
  /-- No packet is lost, repeated or moved. -/
  in_order : (origin.dispatched moves).map (·.packet) <+: packets
  /-- Behind a packet that ends the session none takes effect. -/
  goes_on : ∀ dispatch ∈ (origin.dispatched moves).dropLast, dispatch.GoesOn
  /-- Until the reader ends, it has what has been read and has not taken effect. -/
  kept : ∀ buffer, connection.reader.buffer? = some buffer →
    ∃ read, read ++ (origin.follow moves).unread = origin.served moves ∧
      Yields settings.maxPacketSize read
        (first :: ((origin.dispatched moves).map (·.packet) ++ connection.reader.waiting)) buffer
  /-- When all has been read, the beginning of the last packet is in the buffer. -/
  all_read : ∀ buffer, connection.reader.buffer? = some buffer → (origin.follow moves).unread = [] →
    (origin.dispatched moves).map (·.packet) ++ connection.reader.waiting = packets ∧
      buffer.awaiting = awaiting ∧ buffer.held.bytes = left
  /-- When nothing moves any more, all packets have taken effect, unless the session has ended. -/
  at_rest : connection.reader ≠ .ended → (origin.follow moves).isBusy = false →
    (origin.follow moves).peerCanWrite = false →
      ∃ buffer, connection.reader = .reading buffer ∧
        (origin.dispatched moves).map (·.packet) = packets ∧
          buffer.awaiting = awaiting ∧ buffer.held.bytes = left
  /-- In a turn of the reader the session changes as the next packets have it, and as the end of the
  session if that comes. -/
  takes_effect : connection.readerReady (origin.follow moves).link = true →
    ∃ next link more, (origin.follow (moves ++ [.task .reader])).stage = .connected next ∧
      origin.dispatched (moves ++ [.task .reader]) = origin.dispatched moves ++ more ∧
        Reader.ComesTo connection.session more ⟨next.reader, next.session, link⟩
  /-- In other moves no packet takes effect. -/
  aside : ∀ move,
    (move = .task .reader → connection.readerReady (origin.follow moves).link = false) →
      origin.dispatched (moves ++ [move]) = origin.dispatched moves
  /-- The reader ends with the session, because of a packet or when all packets have taken effect
  that have been read. -/
  ended : connection.reader = .ended → connection.session.reason.isSome = true ∧
    ((∃ last, (origin.dispatched moves).getLast? = some last ∧ ¬ last.GoesOn) ∨
      ∃ read buffer, read <+: origin.served moves ∧
        Yields settings.maxPacketSize read (first :: (origin.dispatched moves).map (·.packet))
          buffer)
  /-- If it is the peer that has ended the session, no packet is missing. -/
  peer_closed : connection.session.reason = some .byPeer →
    (origin.dispatched moves).map (·.packet) = packets
  /-- Once the session has ended, only packets take effect that the exchange has read. -/
  closed : connection.session.reason.isSome = true → ∀ more,
    (origin.dispatched (moves ++ more)).map (·.packet) <+:
      (origin.dispatched moves).map (·.packet) ++ connection.reader.waiting
  /-- Every packet meets the codes of the server, which the application may have changed. -/
  dictionary : ∀ dispatch ∈ origin.dispatched moves,
    TableOf settings connection.response (moves.flatMap routeCallsBy) dispatch.session.routes
  entries : ∀ dispatch ∈ origin.dispatched moves, ∀ route code,
    RouteTable.Stands (settings.mapOrder.arrange connection.response.server.routes) (route, code) →
      (∀ call ∈ moves.flatMap routeCallsBy, call.Spares route code) →
        dispatch.session.routes.code? route = some code ∧
          dispatch.session.routes.route? code = some route
  /-- The order in which a server's codes come makes no difference to a pair whose sides are only
  paired with each other. -/
  entries_apart : ∀ dispatch ∈ origin.dispatched moves, ∀ route code,
    (route, code) ∈ connection.response.server.routes →
      (∀ other ∈ connection.response.server.routes, other.1 = route ↔ other.2 = code) →
        (∀ call ∈ moves.flatMap routeCallsBy, call.Spares route code) →
          dispatch.session.routes.code? route = some code ∧
            dispatch.session.routes.route? code = some route

/-- Whatever pieces the server's bytes arrive in and whatever else happens, the packets behind its
answer take effect in their order and once each. -/
theorem follow_handsOver {settings : Settings} {capacity : Nat} {fault : Fault} {moves : List Move}
    {connection : Connection} {first : Packet} {packets : List Packet} {awaiting : Option Header}
    {left : Bytes}
    (hstage : ((start settings capacity fault).follow moves).stage = .connected connection)
    (hserved : Divides settings.maxPacketSize ((start settings capacity fault).served moves)
      ⟨first :: packets, none, awaiting, left⟩) :
    HandsOver (start settings capacity fault) settings moves connection first packets awaiting
      left := by
  obtain ⟨read, hdelivers⟩ := exists_delivers settings capacity fault moves
  obtain ⟨answer, hanswer, hposition, htable, hmet⟩ := hdelivers.connected hstage
  obtain ⟨rfl, hpackets⟩ := hposition.in_order hserved hdelivers.first
  have hcoherent := (coherent_start settings capacity fault).follow moves
  have hread (hleft : connection.reader ≠ .ended) :=
    hdelivers.unread (hdelivers.isDropped_eq_false hstage hleft)
  have hall {buffer : PacketBuffer} (hbuffer : connection.reader.buffer? = some buffer)
      (hnone : ((start settings capacity fault).follow moves).unread = []) :
      ((start settings capacity fault).dispatched moves).map (·.packet) ++
          connection.reader.waiting = packets ∧
        buffer.awaiting = awaiting ∧ buffer.held.bytes = left := by
    have hleft := Reader.ne_ended hbuffer
    have hyields := hposition.yields hbuffer
    rw [← hread hleft, hnone, List.append_nil] at hserved
    obtain ⟨⟩ := hyields.divides.unique hserved
    exact ⟨rfl, rfl, rfl⟩
  constructor
  case answer =>
    obtain ⟨hkind, hparsed⟩ := Attempt.judge_eq_ok_iff.mp hanswer
    exact ⟨hkind, hparsed, HandshakeResponse.code_of_parse hparsed⟩
  case in_order => exact hpackets
  case goes_on => exact hposition.goesOn_dropLast
  case kept =>
    exact fun buffer hbuffer => ⟨read, hread (Reader.ne_ended hbuffer), hposition.yields hbuffer⟩
  case all_read => exact fun buffer hbuffer hnone => hall hbuffer hnone
  case at_rest =>
    intro hleft hidle hsilent
    obtain ⟨buffer, hreading, hnone⟩ := hdelivers.at_rest hstage hleft hidle hsilent
    have hdone := hall (by rw [hreading, Reader.buffer?]) hnone
    rw [hreading, Reader.waiting, List.append_nil] at hdone
    exact ⟨buffer, hreading, hdone⟩
  case takes_effect =>
    intro hready
    obtain ⟨-, -, -, hcomes⟩ := Reader.turned_poll hposition (Connection.reader_ne_ended hready)
      connection.session ((start settings capacity fault).follow moves).link
    refine ⟨(connection.pollReader ((start settings capacity fault).follow moves).link).1, _, _, ?_,
      ?_, hcomes⟩
    · rw [follow_append, follow_cons, follow_nil, move_reader hstage hready]
      rfl
    · rw [dispatched, collect_append_singleton, dispatchedBy_reader hstage hready]
      rfl
  case aside =>
    intro move haside
    rw [dispatched, collect_append_singleton, dispatchedBy_eq_nil hstage haside, List.append_nil]
    rfl
  case ended =>
    intro hended
    refine ⟨isSome_reason_of_ended hstage hended, ?_⟩
    rw [hended] at hposition
    obtain _ | _ | ⟨hover⟩ := hposition
    cases hover with
    | byPacket hlast _ hends =>
        rw [hlast, List.getLast?_concat]
        exact .inl ⟨_, rfl, hends⟩
    | otherwise _ hyields => exact .inr ⟨read, _, hdelivers.first, hyields⟩
    | malformed _ hdivides => cases (hdivides.packets_front hserved rfl hdelivers.first).1
  case peer_closed =>
    intro hpeer
    rw [← reason?_of_connected hstage] at hpeer
    exact (peerEnded_of_byPeer hpeer).dispatched_eq hserved
  case closed =>
    intro hended more
    have hlater := hcoherent.dispatched_of_ended hstage hended more
    rw [dispatched, collect_append, List.map_append]
    exact (List.prefix_append_right_inj _).mpr hlater
  case dictionary => exact hmet
  case entries =>
    intro dispatch hmem route code hstands hspared
    exact (hmet dispatch hmem).looks_up hstands hspared
  case entries_apart =>
    intro dispatch hmem route code hpair hapart hspared
    have horder := settings.mapOrder.perm connection.response.server.routes
    exact (hmet dispatch hmem).looks_up (RouteTable.stands_of_perm horder hpair hapart) hspared

def answerWithCode : Packet :=
  ⟨.handshake, Bytes.ofString "\x7b\"code\":200,\"sys\":\x7b\"dict\":\x7b\"on.chat\":7\x7d\x7d\x7d"⟩

/-- The server sends a heartbeat and the beginning of a push together with its answer, and later the
rest of the push and the beginning of one more packet. -/
def answeredInPieces : List Move :=
  [.task (.call 0),
    .command (.peerSends (answerWithCode.bytes ++ [3, 0, 0, 0, 4, 0, 0]) false),
    .peerWrites, .task (.call 0), .task (.call 0), .task .reader,
    .command (.peerSends [5, 7, 0, 7, 104, 105, 4, 0, 0, 3, 6] false), .peerWrites, .task .reader]

theorem follow_handsOver_answeredInPieces :
    ∃ connection, ((start {} 4096 {}).follow answeredInPieces).stage = .connected connection ∧
      ((start {} 4096 {}).dispatched answeredInPieces).map (·.packet) =
        [⟨.heartbeat, []⟩, ⟨.data, [7, 0, 7, 104, 105]⟩] ∧
      HandsOver (start {} 4096 {}) {} answeredInPieces connection answerWithCode
        [⟨.heartbeat, []⟩, ⟨.data, [7, 0, 7, 104, 105]⟩] (some ⟨.data, 3⟩) [6] := by
  have hconnected : ((start {} 4096 {}).follow answeredInPieces).connection?.isSome = true := by
    decide +kernel
  have hcut : PacketBuffer.cut Packet.defaultLimit none
        ((start {} 4096 {}).served answeredInPieces) =
      ⟨[answerWithCode, ⟨.heartbeat, []⟩, ⟨.data, [7, 0, 7, 104, 105]⟩], none, some ⟨.data, 3⟩,
        [6]⟩ := by
    decide +kernel
  have hserved := PacketBuffer.divides_cut_none Packet.defaultLimit
    ((start {} 4096 {}).served answeredInPieces)
  rw [hcut] at hserved
  obtain ⟨connection, hconnection⟩ := Option.isSome_iff_exists.mp hconnected
  have hstage := connection?_eq_some_iff.mp hconnection
  exact ⟨connection, hstage, by decide +kernel, follow_handsOver hstage hserved⟩

end Conversation

end RoutedSession
