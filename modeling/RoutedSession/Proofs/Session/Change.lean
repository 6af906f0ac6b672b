import Mathlib.Logic.Relation
import RoutedSession.Proofs.Message.RoundTrip
import RoutedSession.Proofs.Outbox.Queue
import RoutedSession.Session.Basic

/-!
All that can happen to what the parts of a session share: changes made by its tasks and by its
calls, and its end. Every turn of a task or a call is made of such changes, so what they keep is
kept.
-/

namespace RoutedSession

open Relation (ReflTransGen)

namespace Session

/-- A change made by the reader. -/
inductive ReaderChange (session : Session) : Session → Prop where
  | answered (answer : Message) :
      ReaderChange session { session with pending := (session.pending.resolve answer).2 }
  | replied {reply : Frame} (hreply : frame session.routes heartbeatReply = .ok reply) :
      ReaderChange session { session with outbox := (session.outbox.trySend reply).2 }
  | told (events : EventChannel) : ReaderChange session { session with events }

/-- A change made by the writer. -/
inductive WriterChange (session : Session) : Session → Prop where
  | taken (limit : Nat) :
      WriterChange session { session with outbox := (session.outbox.takeUpTo limit).2 }
  | unreceived : WriterChange session { session with outbox := session.outbox.endReceiving }

/-- A change made by a call, or by the application at once. -/
inductive CallChange (session : Session) : Session → Prop where
  | registered {id : UInt32} {ticket : Ticket} {pending : PendingTable}
      (hregister : session.pending.register = some ((id, ticket), pending)) :
      CallChange session { session with pending }
  | looked (answer : PendingAnswer) :
      CallChange session { session with pending := (answer.poll session.pending).2 }
  | gaveUp (answer : PendingAnswer) :
      CallChange session { session with pending := answer.drop session.pending }
  | sent (sender : SenderId) (frame : Frame) :
      CallChange session { session with outbox := (session.outbox.send sender frame).2 }
  | tried (frame : Frame) :
      CallChange session { session with outbox := (session.outbox.trySend frame).2 }
  | resumed (sender : SenderId) (frame : Frame) :
      CallChange session { session with outbox := (session.outbox.resume sender frame).2 }
  | left (sender : SenderId) :
      CallChange session { session with outbox := session.outbox.leave sender }
  | routed (call : RouteCall) :
      CallChange session { session with routes := session.routes.call call }

/-- A change to a session that goes on. -/
inductive Change (session after : Session) : Prop where
  | reader (hchange : ReaderChange session after)
  | writer (hchange : WriterChange session after)
  | call (hchange : CallChange session after)

theorem changes_of_callChanges {session after : Session}
    (hchanges : ReflTransGen CallChange session after) : ReflTransGen Change session after :=
  ReflTransGen.mono (fun _ _ hchange => Change.call hchange) _ _ hchanges

section

variable {Changes : Session → Session → Prop}

/-- What becomes of a session in one move: changes of some kind are made to it, and behind them it
is ended, if there is a cause. -/
inductive Goes (Changes : Session → Session → Prop) (session : Session) :
    Option CloseReason → Session → Prop where
  | on {after : Session} (hchanges : ReflTransGen Changes session after) :
      Goes Changes session none after
  | ends {last : Session} (hchanges : ReflTransGen Changes session last) (reason : CloseReason)
      (events : EventChannel) :
      Goes Changes session (some reason) { last.terminate reason with events }

theorem Goes.after_changes {session middle after : Session} {cause? : Option CloseReason}
    (hchanges : ReflTransGen Changes session middle) (hgoes : Goes Changes middle cause? after) :
    Goes Changes session cause? after := by
  cases hgoes with
  | on hmore => exact .on (hchanges.trans hmore)
  | ends hmore reason events => exact .ends (hchanges.trans hmore) reason events

theorem Goes.mono {More : Session → Session → Prop} {session after : Session}
    {cause? : Option CloseReason} (hmore : ∀ first last, Changes first last → More first last)
    (hgoes : Goes Changes session cause? after) : Goes More session cause? after := by
  cases hgoes with
  | on hchanges => exact .on (ReflTransGen.mono hmore _ _ hchanges)
  | ends hchanges reason events => exact .ends (ReflTransGen.mono hmore _ _ hchanges) reason events

end

theorem frame_heartbeatReply (routes : RouteTable) :
    ∃ reply, frame routes heartbeatReply = .ok reply := by
  have hshort : ¬ heartbeatReply.HasTooLongRoute routes := by
    rintro ⟨-, -, hlong⟩
    exact absurd hlong (by decide)
  cases hroute : heartbeatReply.routeBytes routes with
  | error error => exact absurd (Message.routeBytes_eq_error_iff.mp hroute).1 hshort
  | ok route =>
      have hlength : route.length ≤ 256 := by
        unfold Message.routeBytes at hroute
        dsimp only at hroute
        split at hroute
        · split at hroute
          · obtain rfl : _ = route := by simpa using hroute
            rw [Bytes.length_ofNatBE]
            decide
          · split at hroute
            · rename_i hfits
              obtain rfl : _ = route := by simpa using hroute
              exact Nat.succ_le_succ hfits
            · simp at hroute
        · obtain rfl : [] = route := by simpa using hroute
          exact Nat.zero_le _
      have hfits : ((heartbeatReply.flags routes).byte :: heartbeatReply.idBytes ++ route ++
          heartbeatReply.payload).length ≤ Header.maxLength := by
        have hid : heartbeatReply.idBytes = [] := rfl
        have hpayload : heartbeatReply.payload.length = 2 := rfl
        have hmost : 512 ≤ Header.maxLength := by decide
        simp only [hid, List.length_append, List.length_cons, List.length_nil, hpayload]
        omega
      simp only [frame, Message.encode, hroute, Except.map, Frame.ofPacket, hfits, dite_true,
        Except.mapError]
      exact ⟨_, rfl⟩

theorem answerHeartbeat_of_frame {session : Session} {reply : Frame}
    (hreply : frame session.routes heartbeatReply = .ok reply) :
    session.answerHeartbeat = .ok { session with outbox := (session.outbox.trySend reply).2 } := by
  rw [answerHeartbeat, hreply]
  dsimp only
  have htries := session.outbox.tries_trySend reply
  generalize session.outbox.trySend reply = tried at htries ⊢
  cases htries <;> rfl

theorem answerHeartbeat_eq_ok (session : Session) :
    ∃ reply, frame session.routes heartbeatReply = .ok reply ∧
      session.answerHeartbeat =
        .ok { session with outbox := (session.outbox.trySend reply).2 } := by
  obtain ⟨reply, hreply⟩ := frame_heartbeatReply session.routes
  exact ⟨reply, hreply, answerHeartbeat_of_frame hreply⟩

theorem readerChange_deliver (session : Session) (message : Message) :
    ReaderChange session (session.deliver message) := by
  unfold deliver
  split
  · exact .answered message
  · exact .told _

/-- Why a packet ends a session, if it does. -/
inductive EndsBy (session : Session) (packet : Packet) : CloseReason → Prop where
  | kicked (hkick : packet.kind = .kick) : EndsBy session packet .kicked
  | undecodable {reason : DecodeError} (hdata : packet.kind = .data)
      (hdecode : Message.decode session.routes packet.payload = .error reason) :
      EndsBy session packet (.failed (.decode reason))

/-- A packet changes the session, and ends it only by a kick or by a message that cannot be read. -/
theorem dispatch_spec (session : Session) (packet : Packet) :
    ReflTransGen ReaderChange session (session.dispatch packet).1 ∧
      ∀ reason, (session.dispatch packet).2 = some reason ↔ session.EndsBy packet reason := by
  unfold dispatch
  split
  · rename_i hkind
    obtain ⟨reply, hreply, hok⟩ := session.answerHeartbeat_eq_ok
    rw [hok]
    refine ⟨.single (.replied hreply), fun reason => ⟨nofun, fun hends => ?_⟩⟩
    cases hends <;> simp_all
  · rename_i hkind
    split
    · rename_i error hdecode
      refine ⟨.refl, fun reason => ⟨fun hsome => ?_, fun hends => ?_⟩⟩
      · obtain rfl : _ = reason := by simpa using hsome
        exact .undecodable hkind hdecode
      · cases hends <;> simp_all
    · rename_i message hdecode
      refine ⟨.single (session.readerChange_deliver message),
        fun reason => ⟨nofun, fun hends => ?_⟩⟩
      cases hends <;> simp_all
  · rename_i hkind
    refine ⟨.refl, fun reason => ⟨fun hsome => ?_, fun hends => ?_⟩⟩
    · obtain rfl : _ = reason := by simpa using hsome
      exact .kicked hkind
    · cases hends <;> simp_all
  · rename_i hkind
    refine ⟨.refl, fun reason => ⟨nofun, fun hends => ?_⟩⟩
    cases hends <;> simp_all
  · rename_i hkind
    refine ⟨.refl, fun reason => ⟨nofun, fun hends => ?_⟩⟩
    cases hends <;> simp_all

/-- Why a session ends while packets take effect in turn: because of the first one that ends it. -/
inductive EndsWithin (session : Session) (packets : List Packet) : CloseReason → Prop where
  | packet {front back : List Packet} {packet : Packet} {middle : Session} {reason : CloseReason}
      (hsplit : packets = front ++ packet :: back)
      (hfront : session.dispatchAll front = (middle, none)) (hends : middle.EndsBy packet reason) :
      EndsWithin session packets reason

theorem dispatchAll_cons (session : Session) (packet : Packet) (rest : List Packet) :
    session.dispatchAll (packet :: rest) =
      match session.dispatch packet with
      | (session, some reason) => (session, some reason)
      | (session, none) => session.dispatchAll rest :=
  rfl

theorem dispatchAll_append {session middle : Session} {front : List Packet}
    (hfront : session.dispatchAll front = (middle, none)) (back : List Packet) :
    session.dispatchAll (front ++ back) = middle.dispatchAll back := by
  induction front generalizing session with
  | nil =>
      obtain ⟨rfl, -⟩ := Prod.mk.inj hfront
      rfl
  | cons packet rest ih =>
      rw [List.cons_append, dispatchAll_cons]
      rw [dispatchAll_cons] at hfront
      split at hfront
      · simp at hfront
      · exact ih hfront

theorem dispatchAll_append_of_some {session last : Session} {front : List Packet}
    {reason : CloseReason} (hfront : session.dispatchAll front = (last, some reason))
    (back : List Packet) : session.dispatchAll (front ++ back) = (last, some reason) := by
  induction front generalizing session with
  | nil => cases hfront
  | cons packet rest ih =>
      rw [List.cons_append, dispatchAll_cons]
      rw [dispatchAll_cons] at hfront
      split at hfront
      · exact hfront
      · exact ih hfront

theorem dispatchAll_spec (session : Session) (packets : List Packet) :
    ReflTransGen ReaderChange session (session.dispatchAll packets).1 ∧
      ∀ reason, (session.dispatchAll packets).2 = some reason ↔
        session.EndsWithin packets reason := by
  refine ⟨?_, fun reason => ⟨fun hsome => ?_, ?_⟩⟩
  · induction packets generalizing session with
    | nil => exact .refl
    | cons packet rest ih =>
        have hfirst := (session.dispatch_spec packet).1
        rw [dispatchAll_cons]
        split
        · rename_i middle reason hdispatch
          rwa [hdispatch] at hfirst
        · rename_i middle hdispatch
          rw [hdispatch] at hfirst
          exact hfirst.trans (ih middle)
  · induction packets generalizing session with
    | nil => simp [dispatchAll] at hsome
    | cons packet rest ih =>
        rw [dispatchAll_cons] at hsome
        split at hsome
        · rename_i middle first hdispatch
          obtain rfl : first = reason := by simpa using hsome
          have hends := ((session.dispatch_spec packet).2 first).mp (by rw [hdispatch])
          have hsplit : packet :: rest = [] ++ packet :: rest := rfl
          exact .packet hsplit rfl hends
        · rename_i middle hdispatch
          obtain ⟨rfl, hfront, hends⟩ := ih middle hsome
          refine .packet (List.cons_append ..).symm ?_ hends
          rw [dispatchAll_cons, hdispatch]
          exact hfront
  · rintro ⟨rfl, hfront, hends⟩
    rename_i middle
    rw [dispatchAll_append hfront, dispatchAll_cons]
    have hsome := ((middle.dispatch_spec _).2 reason).mpr hends
    split
    · rename_i hdispatch
      rw [hdispatch] at hsome
      exact hsome
    · rename_i hdispatch
      rw [hdispatch] at hsome
      simp at hsome

end Session

end RoutedSession
