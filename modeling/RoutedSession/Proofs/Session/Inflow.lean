import RoutedSession.Proofs.Outbox.Acts
import RoutedSession.Proofs.Session.Course

namespace RoutedSession

/-- The bytes on their way to the client. -/
def Link.incoming (link : Link) : Bytes :=
  link.toClient.held.bytes

/-- The number of bytes that a pipe can hold. -/
def Pipe.capacity (pipe : Pipe) : Nat :=
  pipe.room + pipe.held.size

/-- All bytes from the peer have been read, and there will be no more. -/
def Link.Exhausted (link : Link) : Prop :=
  link.incoming = [] ∧ link.toClient.isClosed = true

def ReadResult.bytes : ReadResult → Bytes
  | .got bytes => bytes
  | .ended | .blocked | .failed _ => []

namespace Link

/-- The client has read bytes, or nothing if there are none, and still has the stream. -/
structure Took (before after : Link) (bytes : Bytes) : Prop where
  incoming : before.incoming = bytes ++ after.incoming
  capacity : after.toClient.capacity = before.toClient.capacity
  isClosed : after.toClient.isClosed = before.toClient.isClosed
  isDropped : after.isDropped = before.isDropped

theorem took_of_eq {before after : Link} (hclient : after.toClient = before.toClient)
    (hdropped : after.isDropped = before.isDropped) : Took before after [] :=
  ⟨by rw [incoming, incoming, hclient, List.nil_append], by rw [hclient], by rw [hclient], hdropped⟩

theorem Took.refl (link : Link) : Took link link [] :=
  took_of_eq rfl rfl

theorem Took.trans {first middle last : Link} {front back : Bytes}
    (hfront : Took first middle front) (hback : Took middle last back) :
    Took first last (front ++ back) where
  incoming := by rw [hfront.incoming, hback.incoming, List.append_assoc]
  capacity := hback.capacity.trans hfront.capacity
  isClosed := hback.isClosed.trans hfront.isClosed
  isDropped := hback.isDropped.trans hfront.isDropped

theorem took_read {link rest : Link} {limit : Nat} {found : ReadResult}
    (hread : link.read limit = (found, rest)) : Took link rest found.bytes := by
  unfold read at hread
  split at hread
  · obtain ⟨rfl, rfl⟩ := Prod.mk.inj hread
    exact .refl link
  · split at hread
    · obtain ⟨rfl, rfl⟩ := Prod.mk.inj hread
      cases link.toClient.isClosed <;> exact .refl link
    · obtain ⟨rfl, rfl⟩ := Prod.mk.inj hread
      refine ⟨(List.take_append_drop limit _).symm, ?_, rfl, rfl⟩
      simp only [Pipe.capacity, Pieces.drop, List.length_take, Pieces.length_bytes]
      omega

theorem Took.eq_nil_or_capacity_pos {before after : Link} {bytes : Bytes}
    (htook : Took before after bytes) : bytes = [] ∨ 0 < before.toClient.capacity := by
  have hsize : before.incoming.length = before.toClient.held.size := Pieces.length_bytes _
  rw [htook.incoming, List.length_append] at hsize
  rw [← List.length_eq_zero_iff, Pipe.capacity]
  omega

theorem exhausted_of_read {link rest : Link} {limit : Nat}
    (hread : link.read limit = (.ended, rest)) : rest.Exhausted := by
  unfold read at hread
  split at hread
  · cases hread
  · split at hread
    · rename_i hnone
      obtain ⟨hfound, rfl⟩ := Prod.mk.inj hread
      refine ⟨List.eq_nil_of_length_eq_zero ?_, ?_⟩
      · rwa [incoming, Pieces.length_bytes]
      · cases hclosed : link.toClient.isClosed with
        | true => rfl
        | false =>
            rw [hclosed] at hfound
            cases hfound
    · cases (Prod.mk.inj hread).1

theorem took_write {link after : Link} {slices : List Bytes} {written : Written}
    (hresult : sink.write link slices = (written, after)) : Took link after [] := by
  have hafter : (link.write slices).2 = after := congrArg Prod.snd hresult
  subst hafter
  unfold write
  split
  · exact .refl link
  · exact .refl link
  · dsimp only
    split
    · exact .refl link
    · split
      · exact .refl link
      · exact took_of_eq rfl rfl

theorem took_writeOut (nothing : String) (share : Nat) (link : Link) (slices : List Bytes) :
    Took link (Writer.writeOut sink nothing share link slices).2 [] := by
  fun_induction Writer.writeOut sink nothing share link slices with
  | case1 => exact took_write ‹_›
  | case2 => exact took_write ‹_›
  | case3 => exact took_write ‹_›
  | case4 => exact .refl _
  | case5 _ _ _ _ _ _ htook _ ih => exact (took_write htook).trans ih
  | case6 _ _ _ _ _ hflush =>
      obtain ⟨-, rfl⟩ := Prod.mk.inj hflush
      exact .refl _
  | case7 _ _ _ _ _ hflush =>
      obtain ⟨-, rfl⟩ := Prod.mk.inj hflush
      exact .refl _
  | case8 _ _ _ _ _ _ hflush =>
      obtain ⟨-, rfl⟩ := Prod.mk.inj hflush
      exact .refl _

theorem took_shutdown (link : Link) : Took link link.shutdown.2 [] := by
  unfold shutdown
  split
  · exact .refl link
  · exact took_of_eq rfl rfl

theorem took_poll (maxBatch : Nat) (hasSenders : Bool) (work : Writer.Work Link) :
    Took work.stream (Writer.poll sink maxBatch hasSenders work).stream [] := by
  refine Writer.poll_of_acts (P := fun after => Took work.stream after.stream []) ?_ (.refl _)
  intro before after hact htook
  cases hact with
  | takes => exact htook
  | pauses => exact htook
  | writes _ _ hwrite => exact htook.trans (took_write hwrite)
  | blocks _ _ hwrite => exact htook.trans (took_write hwrite)
  | writeFails _ _ hwrite => exact htook.trans (took_write hwrite)
  | takesNothing _ _ hwrite => exact htook.trans (took_write hwrite)
  | flushes _ _ _ hflush =>
      obtain ⟨-, rfl⟩ := Prod.mk.inj hflush
      exact htook
  | flushBlocks _ _ _ hflush =>
      obtain ⟨-, rfl⟩ := Prod.mk.inj hflush
      exact htook
  | flushFails _ _ _ hflush =>
      obtain ⟨-, rfl⟩ := Prod.mk.inj hflush
      exact htook
  | stops =>
      rw [Writer.stream_stop]
      exact htook.trans (took_shutdown before.stream)

end Link

theorem Connection.hasEnded_reader {connection : Connection} :
    connection.hasEnded .reader = true ↔ connection.reader = .ended := by
  cases hreader : connection.reader <;> simp [hasEnded, hreader]

theorem Connection.reader_ne_ended {connection : Connection} {link : Link}
    (hready : connection.readerReady link = true) : connection.reader ≠ .ended := by
  intro hended
  rw [readerReady, hended] at hready
  cases hready

theorem Session.routes_terminate (session : Session) (reason : CloseReason) :
    (session.terminate reason).routes = session.routes := by
  unfold terminate
  split <;> rfl

namespace Connection

/-- The reader is where it was, and the session has the codes that it had. -/
structure KeepsReader (before after : Connection) : Prop where
  reader : after.reader = before.reader
  response : after.response = before.response
  routes : after.session.routes = before.session.routes

theorem KeepsReader.trans {first middle last : Connection} (hfront : KeepsReader first middle)
    (hback : KeepsReader middle last) : KeepsReader first last :=
  ⟨hback.reader.trans hfront.reader, hback.response.trans hfront.response,
    hback.routes.trans hfront.routes⟩

section

variable (connection : Connection)

theorem keepsReader_setPending (pending : PendingTable) :
    KeepsReader connection (connection.setPending pending) :=
  ⟨rfl, rfl, rfl⟩

theorem keepsReader_setOutbox (outbox : Outbox) :
    KeepsReader connection (connection.setOutbox outbox) :=
  ⟨rfl, rfl, rfl⟩

theorem keepsReader_pollAnswer (now : Nat) (answer : PendingAnswer) (deadline : Option Nat)
    (asJson : Bool) :
    KeepsReader connection (connection.pollAnswer now answer deadline asJson).2 := by
  unfold pollAnswer
  split
  · exact connection.keepsReader_setPending _
  · split <;> exact ⟨rfl, rfl, rfl⟩

theorem keepsReader_afterRequest (now : Nat) (frame : Frame) (answer : PendingAnswer)
    (use : AnswerUse) (sent : Outbox.Sent × Outbox) :
    KeepsReader connection (connection.afterRequest now frame answer use sent).2 := by
  obtain ⟨result, outbox⟩ := sent
  cases result with
  | waiting => exact connection.keepsReader_setOutbox outbox
  | failed reason => exact ⟨rfl, rfl, rfl⟩
  | done =>
      cases use with
      | keep => exact connection.keepsReader_setOutbox outbox
      | await timeout asJson =>
          exact (connection.keepsReader_setOutbox outbox).trans (keepsReader_pollAnswer _ _ _ _ _)

theorem keepsReader_beginRequest (now : Nat) (index : SenderId) (route : String) (payload : Bytes)
    (use : AnswerUse) :
    KeepsReader connection (connection.beginRequest now index route payload use).2 := by
  unfold beginRequest
  split
  · exact ⟨rfl, rfl, rfl⟩
  · dsimp only
    split
    · exact ⟨rfl, rfl, rfl⟩
    · exact (connection.keepsReader_setPending _).trans (keepsReader_afterRequest _ _ _ _ _ _)

theorem keepsReader_afterNotify (frame : Frame) (sent : Outbox.Sent × Outbox) :
    KeepsReader connection (connection.afterNotify frame sent).2 := by
  obtain ⟨result, outbox⟩ := sent
  cases result <;> exact connection.keepsReader_setOutbox outbox

theorem keepsReader_beginNotify (index : SenderId) (route : String) (payload : Bytes) :
    KeepsReader connection (connection.beginNotify index route payload).2 := by
  unfold beginNotify
  split
  · exact ⟨rfl, rfl, rfl⟩
  · exact connection.keepsReader_afterNotify _ _

theorem keepsReader_tryNotify (route : String) (payload : Bytes) :
    KeepsReader connection (connection.tryNotify route payload).2 := by
  unfold tryNotify
  split
  · exact ⟨rfl, rfl, rfl⟩
  · exact connection.keepsReader_setOutbox _

theorem keepsReader_unlock : KeepsReader connection connection.unlock := by
  unfold unlock
  split <;> exact ⟨rfl, rfl, rfl⟩

theorem keepsReader_pollJoin (parts : List SessionPart) :
    KeepsReader connection (connection.pollJoin parts).2 := by
  induction parts with
  | nil => exact connection.keepsReader_unlock
  | cons part rest ih =>
      unfold pollJoin
      split
      · exact ih
      · exact ⟨rfl, rfl, rfl⟩

theorem keepsReader_beginJoin : KeepsReader connection connection.beginJoin.2 := by
  have hjoined := keepsReader_pollJoin { connection with unjoined := [] } connection.unjoined
  exact ⟨hjoined.reader, hjoined.response, hjoined.routes⟩

theorem keepsReader_beginClose (index : SenderId) :
    KeepsReader connection (connection.beginClose index).2 := by
  unfold beginClose
  dsimp only
  split
  · have hjoined := keepsReader_beginJoin
      { connection with
        session := connection.session.terminate .byClient, joining := some index }
    refine ⟨hjoined.reader, hjoined.response, hjoined.routes.trans ?_⟩
    exact Session.routes_terminate _ _
  · exact ⟨rfl, rfl, Session.routes_terminate _ _⟩

theorem keepsReader_pollCall (now : Nat) (index : SenderId) (state : CallState) :
    KeepsReader connection (connection.pollCall now index state).2 := by
  cases state with
  | starting action =>
      cases action with
      | sendRequest route payload => exact connection.keepsReader_beginRequest _ _ _ _ _
      | request route payload timeout => exact connection.keepsReader_beginRequest _ _ _ _ _
      | requestJson route value => exact connection.keepsReader_beginRequest _ _ _ _ _
      | notify route payload => exact connection.keepsReader_beginNotify _ _ _
      | close => exact connection.keepsReader_beginClose index
      | awaitEnd => exact ⟨rfl, rfl, rfl⟩
  | sendingRequest frame answer use => exact connection.keepsReader_afterRequest _ _ _ _ _
  | sendingNotify frame => exact connection.keepsReader_afterNotify _ _
  | awaitingAnswer answer deadline asJson => exact connection.keepsReader_pollAnswer _ _ _ _
  | locking =>
      unfold pollCall
      dsimp only
      split
      · exact connection.keepsReader_beginJoin
      · exact ⟨rfl, rfl, rfl⟩
  | joining parts => exact connection.keepsReader_pollJoin parts
  | connecting | searching | awaitingEnd | ended => exact ⟨rfl, rfl, rfl⟩

theorem keepsReader_abortCall (index : SenderId) (state : CallState) :
    KeepsReader connection (connection.abortCall index state) := by
  cases state with
  | locking =>
      unfold abortCall
      dsimp only
      split
      · exact connection.keepsReader_unlock
      · exact ⟨rfl, rfl, rfl⟩
  | joining parts => exact connection.keepsReader_unlock
  | _ => exact ⟨rfl, rfl, rfl⟩

theorem keepsReader_pollWriter (link : Link) :
    KeepsReader connection (connection.pollWriter link).1 := by
  refine ⟨rfl, rfl, ?_⟩
  unfold pollWriter release
  dsimp only
  split
  · exact Session.routes_terminate _ _
  · rfl

theorem keepsReader_dropSession : KeepsReader connection connection.dropSession :=
  ⟨rfl, rfl, Session.routes_terminate _ _⟩

end

end Connection

namespace Conversation

/-- What the peer has to send and the client has not read. -/
def unread (conversation : Conversation) : Bytes :=
  conversation.link.incoming ++ conversation.peer.outgoing

/-- The client will not read anything any more. -/
def ReadsNoMore (conversation : Conversation) : Prop :=
  match conversation.stage with
  | .unconnected _ | .connecting _ _ => False
  | .failed _ _ => True
  | .connected connection => connection.reader = .ended

/-- The peer ends the stream behind all that it sends. -/
def ClosesLast (conversation : Conversation) : Prop :=
  conversation.link.toClient.isClosed = true →
    conversation.peer.isEnding = true ∧ conversation.peer.outgoing = []

/-- What a move gives the peer to send. -/
def servedBy (conversation : Conversation) : Move → Bytes
  | .command (.peerSends bytes _) => if conversation.peer.isEnding then [] else bytes
  | _ => []

/-- What a move makes of the bytes from the peer, if it gives the peer `served` to send and the
client reads `read`. Once the client has given up the stream they may be lost. -/
structure Passes (before after : Conversation) (served read : Bytes) : Prop where
  all : before.link.isDropped = false → before.unread ++ served = read ++ after.unread
  capacity : after.link.toClient.capacity = before.link.toClient.capacity
  flows : read = [] ∨ 0 < before.link.toClient.capacity
  ending : before.peer.isEnding = true → after.peer.isEnding = true
  closes_last : before.ClosesLast → after.ClosesLast
  dropped : before.link.isDropped = true → after.link.isDropped = true
  gave_up : after.link.isDropped = true → before.link.isDropped = true ∨ after.ReadsNoMore

section

variable {before after : Conversation}

theorem passes_of_took {read : Bytes} (htook : before.link.Took after.link read)
    (hpeer : after.peer.outgoing = before.peer.outgoing)
    (hending : before.peer.isEnding = true → after.peer.isEnding = true) :
    Passes before after [] read where
  all := by
    intro
    rw [unread, unread, htook.incoming, hpeer, List.append_nil, List.append_assoc]
  capacity := htook.capacity
  flows := htook.eq_nil_or_capacity_pos
  ending := hending
  closes_last := by
    intro hbefore hclosed
    rw [htook.isClosed] at hclosed
    exact (hbefore hclosed).imp hending hpeer.trans
  dropped := htook.isDropped.trans
  gave_up := fun hdropped => .inl (htook.isDropped.symm.trans hdropped)

theorem passes_of_drop {read : Bytes} {link : Link} (htook : before.link.Took link read)
    (hlink : after.link = link.drop) (hpeer : after.peer = before.peer)
    (hover : after.ReadsNoMore) : Passes before after [] read where
  all := by
    intro
    rw [unread, unread, htook.incoming, hpeer, hlink, List.append_nil, List.append_assoc]
    rfl
  capacity := by
    rw [hlink]
    exact htook.capacity
  flows := htook.eq_nil_or_capacity_pos
  ending := by
    rw [hpeer]
    exact id
  closes_last := by
    intro hbefore hclosed
    rw [hlink] at hclosed
    rw [hpeer]
    exact hbefore (htook.isClosed.symm.trans hclosed)
  dropped := by
    intro
    rw [hlink]
    rfl
  gave_up := fun _ => .inr hover

theorem passes_of_same (hlink : after.link = before.link) (hpeer : after.peer = before.peer) :
    Passes before after [] [] :=
  passes_of_took (hlink ▸ .refl _) (congrArg Peer.outgoing hpeer)
    (congrArg Peer.isEnding hpeer).trans

end

theorem passes_peerSends (conversation : Conversation) (bytes : Bytes) (isLast : Bool) :
    Passes conversation (conversation.peerSends bytes isLast)
      (conversation.servedBy (.command (.peerSends bytes isLast))) [] := by
  unfold peerSends servedBy
  dsimp only
  split
  · exact passes_of_same rfl rfl
  · rename_i hopen
    exact
      { all := fun _ => List.append_assoc _ _ _
        capacity := rfl
        flows := .inl rfl
        ending := fun hending => absurd hending hopen
        closes_last := fun hbefore hclosed => absurd (hbefore hclosed).1 hopen
        dropped := id
        gave_up := .inl }

theorem passes_peerWrites (conversation : Conversation) :
    Passes conversation conversation.peerWrites [] [] := by
  unfold peerWrites
  dsimp only
  split
  · rename_i hdropped
    exact
      { all := fun hopen => absurd (hopen.symm.trans hdropped) (by decide)
        capacity := rfl
        flows := .inl rfl
        ending := id
        closes_last := fun hbefore hclosed => ⟨(hbefore hclosed).1, rfl⟩
        dropped := id
        gave_up := .inl }
  · have hroom : (conversation.peer.outgoing.take conversation.link.toClient.room).length ≤
        conversation.link.toClient.room := List.length_take_le _ _
    refine ⟨fun _ => ?_, ?_, .inl rfl, id, fun hbefore hclosed => ?_, id, .inl⟩
    · have hsplit := List.take_append_drop conversation.link.toClient.room
        conversation.peer.outgoing
      unfold unread Link.incoming
      dsimp only
      split <;>
        simp only [Pipe.close, Pipe.put, Pieces.bytes_append, List.append_nil, List.nil_append,
          List.append_assoc, hsplit]
    · dsimp only
      split <;> simp only [Pipe.capacity, Pipe.close, Pipe.put, Pieces.append] <;> omega
    · dsimp only at hclosed ⊢
      split at hclosed
      · rename_i hlast
        rw [Bool.and_eq_true, List.isEmpty_iff] at hlast
        exact ⟨hlast.2, hlast.1⟩
      · obtain ⟨hending, hnone⟩ := hbefore hclosed
        exact ⟨hending, by rw [hnone, List.drop_nil]⟩

theorem passes_peerReads (conversation : Conversation) (limit : Nat) :
    Passes conversation (conversation.peerReads limit) [] [] := by
  unfold peerReads
  dsimp only
  split
  · exact passes_of_same rfl rfl
  · exact passes_of_took (Link.took_of_eq rfl rfl) rfl id

theorem passes_abort (conversation : Conversation) (slot : String) :
    Passes conversation (conversation.abort slot).2 [] [] := by
  unfold abort
  split
  · exact passes_of_same rfl rfl
  · dsimp only
    split
    · exact passes_of_same rfl rfl
    · exact passes_of_drop (.refl _) rfl rfl trivial
    · exact passes_of_drop (.refl _) rfl rfl trivial
    · exact passes_of_same rfl rfl

theorem passes_performOn (conversation : Conversation) (connection : Connection)
    (command : SessionCommand) :
    Passes conversation (conversation.performOn connection command).2 [] [] := by
  cases command with
  | drop =>
      simp only [performOn, dropSession]
      split <;> exact passes_of_same rfl rfl
  | _ => exact passes_of_same rfl rfl

theorem passes_command (conversation : Conversation) (command : Command) :
    Passes conversation (conversation.perform command).2
      (conversation.servedBy (.command command)) [] := by
  cases command with
  | peerSends bytes isLast => exact conversation.passes_peerSends bytes isLast
  | setFault fault => exact passes_of_took (Link.took_of_eq rfl rfl) rfl id
  | peerEnds => exact passes_of_took (.refl _) rfl fun _ => rfl
  | pollKept slot =>
      simp only [perform, pollKept]
      split
      · split <;> exact passes_of_same rfl rfl
      · exact passes_of_same rfl rfl
  | dropKept slot =>
      simp only [perform, dropKept]
      split <;> exact passes_of_same rfl rfl
  | abort slot => exact conversation.passes_abort slot
  | receive limit =>
      simp only [perform, receive]
      split
      · exact passes_of_same rfl rfl
      · split <;> exact passes_of_same rfl rfl
  | dropEvents =>
      simp only [perform, dropEvents]
      split
      · exact passes_of_same rfl rfl
      · split <;> exact passes_of_same rfl rfl
  | onSession command =>
      simp only [perform]
      split
      · exact passes_of_same rfl rfl
      · exact conversation.passes_performOn _ command
  | _ => exact passes_of_took (.refl _) rfl id

theorem passes_pollCall {conversation : Conversation} {connection : Connection}
    (hstage : conversation.stage = .connected connection) (index : SenderId) :
    Passes conversation (conversation.pollCall index) [] [] := by
  unfold pollCall
  split
  · unfold settleCall
    dsimp only
    split <;> exact passes_of_same rfl rfl
  · exact passes_of_same rfl rfl
  · rename_i hconnecting
    cases hstage.symm.trans hconnecting
  · exact passes_of_same rfl rfl

theorem passes_release {conversation : Conversation} {link : Link} {read : Bytes}
    (htook : conversation.link.Took link read) (connection : Connection) :
    Passes conversation
      ({ conversation with link := (connection.release link).2 }.setConnection
        (connection.release link).1) [] read := by
  unfold Connection.release
  dsimp only
  split
  · rename_i hended
    rw [Bool.and_eq_true, Connection.hasEnded_reader] at hended
    exact passes_of_drop htook rfl rfl hended.2
  · exact passes_of_took htook rfl id

theorem passes_pollWriter (conversation : Conversation) (connection : Connection) :
    Passes conversation
      ({ conversation with link := (connection.pollWriter conversation.link).2 }.setConnection
        (connection.pollWriter conversation.link).1) [] [] :=
  passes_release (Link.took_poll connection.maxBatch true
    ⟨connection.writer, connection.session.outbox, conversation.link⟩) _

end Conversation

end RoutedSession
