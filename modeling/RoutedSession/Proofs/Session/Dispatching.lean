import RoutedSession.Proofs.Packet.Inverse
import RoutedSession.Proofs.Session.Ending
import RoutedSession.Proofs.Session.Inflow

namespace RoutedSession

/-- A packet that takes effect, and the session that it meets. -/
structure Dispatch where
  session : Session
  packet : Packet

/-- The session goes on behind the packet. -/
def Dispatch.GoesOn (dispatch : Dispatch) : Prop :=
  (dispatch.session.dispatch dispatch.packet).2 = none

theorem Dispatch.goesOn_iff {session after : Session} {packet : Packet}
    {cause? : Option CloseReason} (hdispatch : session.dispatch packet = (after, cause?)) :
    Dispatch.GoesOn ⟨session, packet⟩ ↔ cause? = none := by
  rw [GoesOn, hdispatch]

namespace Session

/-- The packets that take effect of some that are cut together. -/
def dispatches (session : Session) : List Packet → List Dispatch
  | [] => []
  | packet :: rest =>
      ⟨session, packet⟩ ::
        match session.dispatch packet with
        | (_, some _) => []
        | (session, none) => session.dispatches rest

/-- Packets take effect in turn, each on the session that the one before it has left. Only the last
of them may end the session. -/
inductive TakeEffect : Session → List Dispatch → Session × Option CloseReason → Prop where
  | nil (session : Session) : TakeEffect session [] (session, none)
  | last {session after : Session} {packet : Packet} {reason : CloseReason}
      (hdispatch : session.dispatch packet = (after, some reason)) :
      TakeEffect session [⟨session, packet⟩] (after, some reason)
  | cons {session next : Session} {packet : Packet} {rest : List Dispatch}
      {result : Session × Option CloseReason} (hdispatch : session.dispatch packet = (next, none))
      (hrest : TakeEffect next rest result) :
      TakeEffect session (⟨session, packet⟩ :: rest) result

theorem takeEffect_dispatches (session : Session) (packets : List Packet) :
    TakeEffect session (session.dispatches packets) (session.dispatchAll packets) := by
  induction packets generalizing session with
  | nil => exact .nil session
  | cons packet rest ih =>
      rw [dispatchAll_cons, dispatches]
      rcases hdispatch : session.dispatch packet with ⟨after, _ | reason⟩
      · exact .cons hdispatch (ih after)
      · exact .last hdispatch

theorem dispatches_prefix (session : Session) (packets : List Packet) :
    (session.dispatches packets).map (·.packet) <+: packets := by
  induction packets generalizing session with
  | nil => exact List.prefix_refl _
  | cons packet rest ih =>
      rw [dispatches, List.map_cons, List.prefix_cons_inj]
      rcases session.dispatch packet with ⟨after, _ | reason⟩
      · exact ih after
      · exact List.nil_prefix

theorem dispatches_eq {session after : Session} {packets : List Packet}
    (hpackets : session.dispatchAll packets = (after, none)) :
    (session.dispatches packets).map (·.packet) = packets := by
  induction packets generalizing session with
  | nil => rfl
  | cons packet rest ih =>
      rw [dispatchAll_cons] at hpackets
      rw [dispatches, List.map_cons]
      rcases hdispatch : session.dispatch packet with ⟨next, _ | reason⟩
      · rw [hdispatch] at hpackets
        exact congrArg (packet :: ·) (ih hpackets)
      · rw [hdispatch] at hpackets
        cases hpackets

section

variable {session : Session} {dispatches : List Dispatch} {result : Session × Option CloseReason}

theorem TakeEffect.append {middle : Session} {more : List Dispatch}
    (hfront : TakeEffect session dispatches (middle, none))
    (hback : TakeEffect middle more result) : TakeEffect session (dispatches ++ more) result := by
  generalize hmiddle : (middle, none) = front at hfront
  induction hfront with
  | nil session =>
      obtain ⟨rfl, -⟩ := Prod.mk.inj hmiddle
      exact hback
  | last => cases hmiddle
  | cons hdispatch _ ih => exact .cons hdispatch (ih hmiddle)

theorem TakeEffect.goesOn {after : Session}
    (heffect : TakeEffect session dispatches (after, none)) :
    ∀ dispatch ∈ dispatches, dispatch.GoesOn := by
  generalize hafter : (after, none) = result at heffect
  induction heffect with
  | nil => exact List.forall_mem_nil _
  | last => cases hafter
  | cons hdispatch _ ih =>
      rw [List.forall_mem_cons]
      refine ⟨?_, ih hafter⟩
      rw [Dispatch.goesOn_iff hdispatch]

theorem TakeEffect.exists_last {after : Session} {reason : CloseReason}
    (heffect : TakeEffect session dispatches (after, some reason)) :
    ∃ front last, dispatches = front ++ [last] ∧ (∀ dispatch ∈ front, dispatch.GoesOn) ∧
      ¬ last.GoesOn := by
  generalize hafter : (after, some reason) = result at heffect
  induction heffect with
  | nil => cases hafter
  | @last session _ packet reason hdispatch =>
      refine ⟨[], ⟨session, packet⟩, rfl, List.forall_mem_nil _, ?_⟩
      rw [Dispatch.goesOn_iff hdispatch]
      nofun
  | cons hdispatch _ ih =>
      obtain ⟨front, last, rfl, hfront, hlast⟩ := ih hafter
      refine ⟨_ :: front, last, rfl, List.forall_mem_cons.mpr ⟨?_, hfront⟩, hlast⟩
      exact (Dispatch.goesOn_iff hdispatch).mpr rfl

/-- No packet changes the codes, and none puts the end of the session on record. -/
structure Keeps (before after : Session) : Prop where
  routes : after.routes = before.routes
  stopped : after.outbox.stopped = before.outbox.stopped
  reason : after.reason = before.reason

theorem Keeps.trans {first middle last : Session} (hfront : Keeps first middle)
    (hback : Keeps middle last) : Keeps first last :=
  ⟨hback.routes.trans hfront.routes, hback.stopped.trans hfront.stopped,
    hback.reason.trans hfront.reason⟩

theorem ReaderChange.keeps {after : Session} (hchange : ReaderChange session after) :
    Keeps session after := by
  cases hchange with
  | answered => exact ⟨rfl, rfl, rfl⟩
  | replied => exact ⟨rfl, (Outbox.sameTerms_trySend _ _).stopped, rfl⟩
  | told => exact ⟨rfl, rfl, rfl⟩

theorem dispatch_keeps (session : Session) (packet : Packet) :
    Keeps session (session.dispatch packet).1 := by
  have hchanges := (session.dispatch_spec packet).1
  generalize (session.dispatch packet).1 = after at hchanges ⊢
  induction hchanges with
  | refl => exact ⟨rfl, rfl, rfl⟩
  | tail _ hchange ih => exact ih.trans hchange.keeps

theorem TakeEffect.keeps (heffect : TakeEffect session dispatches result) :
    Keeps session result.1 := by
  induction heffect with
  | nil session => exact ⟨rfl, rfl, rfl⟩
  | @last session _ packet _ hdispatch =>
      have hkeeps := session.dispatch_keeps packet
      rwa [hdispatch] at hkeeps
  | @cons session _ packet _ _ hdispatch _ ih =>
      have hkeeps := session.dispatch_keeps packet
      rw [hdispatch] at hkeeps
      exact hkeeps.trans ih

theorem TakeEffect.routes (heffect : TakeEffect session dispatches result) :
    ∀ dispatch ∈ dispatches, dispatch.session.routes = session.routes := by
  induction heffect with
  | nil => exact List.forall_mem_nil _
  | last => exact List.forall_mem_singleton.mpr rfl
  | @cons session _ packet _ _ hdispatch _ ih =>
      have hkeeps := session.dispatch_keeps packet
      rw [hdispatch] at hkeeps
      refine List.forall_mem_cons.mpr ⟨rfl, fun dispatch hmem => ?_⟩
      exact (ih dispatch hmem).trans hkeeps.routes

theorem dispatchAll_ne_byPeer {packets : List Packet} :
    (session.dispatchAll packets).2 ≠ some .byPeer := by
  intro hpeer
  obtain ⟨-, -, hends⟩ := ((session.dispatchAll_spec packets).2 _).mp hpeer
  cases hends

end

end Session

namespace Reader

open PacketBuffer (Yields Divides)

/-- The packets that take effect while the reader goes on reading. -/
def dispatchesOn (share : Nat) (session : Session) (link : Link) (buffer : PacketBuffer) :
    List Dispatch :=
  match share with
  | 0 => []
  | share + 1 =>
      if session.outbox.stopped then []
      else
        match link.read chunk with
        | (.got bytes, rest) =>
            match buffer.push bytes with
            | (.error _, _) => []
            | (.ok packets, buffer) =>
                session.dispatches packets ++
                  match session.dispatchAll packets with
                  | (_, some _) => []
                  | (session, none) => dispatchesOn share session rest buffer
        | _ => []

/-- The packets that take effect in a turn of the reader. -/
def dispatches (session : Session) (link : Link) : Reader → List Dispatch
  | .ended => []
  | .reading buffer => dispatchesOn transfersPerTurn session link buffer
  | .starting packets buffer =>
      session.dispatches packets ++
        match session.dispatchAll packets with
        | (_, some _) => []
        | (session, none) => dispatchesOn transfersPerTurn session link buffer

/-- What a turn of the reader comes to in which these packets take effect. -/
inductive ComesTo (session : Session) (dispatches : List Dispatch) : Work → Prop where
  | goesOn {after : Session} {buffer : PacketBuffer} {link : Link}
      (heffect : session.TakeEffect dispatches (after, none)) :
      ComesTo session dispatches ⟨.reading buffer, after, link⟩
  /-- If a packet has ended the session, then for its reason. If the peer has, then there is nothing
  more to read. -/
  | ends {last : Session} {cause? : Option CloseReason} {reason : CloseReason} {link : Link}
      (heffect : session.TakeEffect dispatches (last, cause?))
      (hcause : ∀ cause ∈ cause?, cause = reason)
      (hpeer : reason = .byPeer → cause? = none ∧ link.Exhausted) :
      ComesTo session dispatches (finish last link reason)

theorem ComesTo.after {session middle : Session} {front back : List Dispatch} {work : Work}
    (hfront : session.TakeEffect front (middle, none)) (hcomes : ComesTo middle back work) :
    ComesTo session (front ++ back) work := by
  cases hcomes with
  | goesOn heffect => exact .goesOn (hfront.append heffect)
  | ends heffect hcause hpeer => exact .ends (hfront.append heffect) hcause hpeer

theorem ComesTo.routes {session : Session} {dispatches : List Dispatch} {work : Work}
    (hcomes : ComesTo session dispatches work) :
    (∀ dispatch ∈ dispatches, dispatch.session.routes = session.routes) ∧
      work.session.routes = session.routes := by
  cases hcomes with
  | goesOn heffect => exact ⟨heffect.routes, heffect.keeps.routes⟩
  | ends heffect =>
      exact ⟨heffect.routes, (Session.routes_terminate _ _).trans heffect.keeps.routes⟩

theorem ComesTo.goesOn_of_byPeer {session : Session} {dispatches : List Dispatch} {work : Work}
    (hcomes : ComesTo session dispatches work) (hgoing : session.reason = none)
    (hpeer : work.session.reason = some .byPeer) :
    work.reader = .ended ∧ work.link.Exhausted ∧ ∀ dispatch ∈ dispatches, dispatch.GoesOn := by
  cases hcomes with
  | goesOn heffect => cases hpeer.symm.trans (heffect.keeps.reason.trans hgoing)
  | @ends last cause? reason link heffect hcause hend =>
      have hlast : last.reason = none := heffect.keeps.reason.trans hgoing
      change (last.terminate reason).reason = _ at hpeer
      rw [Session.terminate_of_eq_none hlast] at hpeer
      obtain ⟨rfl, hexhausted⟩ := hend (Option.some.inj hpeer)
      exact ⟨rfl, hexhausted, heffect.goesOn⟩

/-- What a reader that has ended has made of what it has read, of which `first` is the answer. -/
inductive Over (limit : Nat) (read : Bytes) (first : Packet) (dispatched : List Dispatch) :
    Prop where
  /-- A packet has ended the session. Those that were cut together with it have no effect. -/
  | byPacket {front : List Dispatch} {last : Dispatch} {skipped : List Packet}
      {buffer : PacketBuffer} (hlast : dispatched = front ++ [last])
      (hfront : ∀ dispatch ∈ front, dispatch.GoesOn) (hends : ¬ last.GoesOn)
      (hyields : Yields limit read (first :: (dispatched.map (·.packet) ++ skipped)) buffer)
  | otherwise {buffer : PacketBuffer} (hgoing : ∀ dispatch ∈ dispatched, dispatch.GoesOn)
      (hyields : Yields limit read (first :: dispatched.map (·.packet)) buffer)
  | malformed {found : List Packet} {reason : FramingError} {awaiting : Option Header}
      {rest : Bytes} (hgoing : ∀ dispatch ∈ dispatched, dispatch.GoesOn)
      (hdivides : Divides limit read
        ⟨first :: (dispatched.map (·.packet) ++ found), some reason, awaiting, rest⟩)

/-- What a reader has made of what has been read, of which `first` is the answer. -/
inductive Position (limit : Nat) (read : Bytes) (first : Packet) (dispatched : List Dispatch) :
    Reader → Prop where
  | starting {trailing : List Packet} {buffer : PacketBuffer} (hnone : dispatched = [])
      (hyields : Yields limit read (first :: trailing) buffer) :
      Position limit read first dispatched (.starting trailing buffer)
  | reading {buffer : PacketBuffer} (hgoing : ∀ dispatch ∈ dispatched, dispatch.GoesOn)
      (hyields : Yields limit read (first :: dispatched.map (·.packet)) buffer) :
      Position limit read first dispatched (.reading buffer)
  | ended (hover : Over limit read first dispatched) :
      Position limit read first dispatched .ended

/-- A reader has gone on from what had been read and had taken effect before. -/
def Turned (limit : Nat) (front : Bytes) (first : Packet) (dispatched : List Dispatch)
    (session : Session) (link : Link) (more : List Dispatch) (work : Work) : Prop :=
  ∃ read, link.Took work.link read ∧
    Position limit (front ++ read) first (dispatched ++ more) work.reader ∧
      ComesTo session more work

section

variable {limit : Nat} {front read : Bytes} {first : Packet} {dispatched more : List Dispatch}
  {session : Session} {link rest : Link} {buffer : PacketBuffer} {packets : List Packet}

theorem turned_finish (htook : link.Took rest read)
    (hover : Over limit (front ++ read) first dispatched) {reason : CloseReason}
    (hpeer : reason = .byPeer → rest.Exhausted) :
    Turned limit front first dispatched session link [] (finish session rest reason) := by
  refine ⟨read, htook, ?_, .ends (.nil session) nofun fun hreason => ⟨rfl, hpeer hreason⟩⟩
  rw [List.append_nil]
  exact .ended hover

theorem turned_byPacket (htook : link.Took rest read)
    (hgoing : ∀ dispatch ∈ dispatched, dispatch.GoesOn)
    (hyields : Yields limit (front ++ read) (first :: (dispatched.map (·.packet) ++ packets))
      buffer) {last : Session} {reason : CloseReason}
    (hpackets : session.dispatchAll packets = (last, some reason)) :
    Turned limit front first dispatched session link (session.dispatches packets)
      (finish last rest reason) := by
  have heffect := session.takeEffect_dispatches packets
  obtain ⟨skipped, hskipped⟩ := session.dispatches_prefix packets
  rw [hpackets] at heffect
  obtain ⟨before, ending, hsplit, hbefore, hends⟩ := heffect.exists_last
  have hlast : dispatched ++ session.dispatches packets = (dispatched ++ before) ++ [ending] := by
    rw [hsplit, List.append_assoc]
  have hall : Yields limit (front ++ read)
      (first :: ((dispatched ++ session.dispatches packets).map (·.packet) ++ skipped)) buffer := by
    rwa [List.map_append, List.append_assoc, hskipped]
  have hfront := List.forall_mem_append.mpr ⟨hgoing, hbefore⟩
  refine ⟨read, htook, .ended (.byPacket hlast hfront hends hall), .ends heffect ?_ ?_⟩
  · rintro _ ⟨⟩
    rfl
  · rintro rfl
    exact absurd (by rw [hpackets]) (@Session.dispatchAll_ne_byPeer session packets)

theorem Turned.after (htook : link.Took rest read) {middle : Session} {work : Work}
    (hpackets : session.dispatchAll packets = (middle, none))
    (hturned : Turned limit (front ++ read) first (dispatched ++ session.dispatches packets) middle
      rest more work) :
    Turned limit front first dispatched session link (session.dispatches packets ++ more) work := by
  have heffect := session.takeEffect_dispatches packets
  rw [hpackets] at heffect
  obtain ⟨later, hlater, hposition, hcomes⟩ := hturned
  refine ⟨read ++ later, htook.trans hlater, ?_, hcomes.after heffect⟩
  rwa [← List.append_assoc, ← List.append_assoc]

theorem yields_dispatches {middle : Session}
    (hpackets : session.dispatchAll packets = (middle, none))
    (hgoing : ∀ dispatch ∈ dispatched, dispatch.GoesOn)
    (hyields : Yields limit front (first :: (dispatched.map (·.packet) ++ packets)) buffer) :
    (∀ dispatch ∈ dispatched ++ session.dispatches packets, dispatch.GoesOn) ∧
      Yields limit front
        (first :: (dispatched ++ session.dispatches packets).map (·.packet)) buffer := by
  have heffect := session.takeEffect_dispatches packets
  rw [hpackets] at heffect
  refine ⟨List.forall_mem_append.mpr ⟨hgoing, heffect.goesOn⟩, ?_⟩
  rwa [List.map_append, Session.dispatches_eq hpackets]

theorem turned_readOn (share : Nat) (session : Session) (link : Link) {buffer : PacketBuffer}
    (hgoing : ∀ dispatch ∈ dispatched, dispatch.GoesOn)
    (hyields : Yields limit front (first :: dispatched.map (·.packet)) buffer) :
    Turned limit front first dispatched session link (dispatchesOn share session link buffer)
      (readOn share session link buffer) := by
  have hover {read : Bytes} (hnone : read = []) : Over limit (front ++ read) first dispatched := by
    rw [hnone, List.append_nil]
    exact .otherwise hgoing hyields
  fun_induction readOn share session link buffer generalizing front dispatched with
  | case1 session link buffer =>
      refine ⟨[], .refl link, ?_, .goesOn (.nil session)⟩
      rw [dispatchesOn, List.append_nil, List.append_nil]
      exact .reading hgoing hyields
  | case2 session link buffer share hstopped =>
      simp only [dispatchesOn, hstopped, if_true]
      exact turned_finish (.refl link) (hover rfl) nofun
  | case3 session link buffer share hopen rest hread =>
      simp only [dispatchesOn, hopen, Bool.false_eq_true, if_false, hread]
      refine ⟨[], Link.took_read hread, ?_, .goesOn (.nil session)⟩
      rw [List.append_nil, List.append_nil]
      exact .reading hgoing hyields
  | case4 session link buffer share hopen rest hread =>
      simp only [dispatchesOn, hopen, Bool.false_eq_true, if_false, hread]
      exact turned_finish (Link.took_read hread) (hover rfl) fun _ => Link.exhausted_of_read hread
  | case5 session link buffer share hopen reason rest hread =>
      simp only [dispatchesOn, hopen, Bool.false_eq_true, if_false, hread]
      exact turned_finish (Link.took_read hread) (hover rfl) nofun
  | case6 session link buffer share hopen bytes rest hread reason after hpush =>
      simp only [dispatchesOn, hopen, Bool.false_eq_true, if_false, hread, hpush]
      obtain ⟨found, awaiting, left, hdivides⟩ := hyields.push_error hpush
      exact turned_finish (Link.took_read hread) (.malformed hgoing hdivides) nofun
  | case7 session link buffer share hopen bytes rest hread packets after hpush _ _ hpackets =>
      simp only [dispatchesOn, hopen, Bool.false_eq_true, if_false, hread, hpush, hpackets,
        List.append_nil]
      exact turned_byPacket (Link.took_read hread) hgoing (hyields.push_ok hpush) hpackets
  | case8 session link buffer share hopen bytes rest hread packets after hpush middle hpackets ih =>
      simp only [dispatchesOn, hopen, Bool.false_eq_true, if_false, hread, hpush, hpackets]
      obtain ⟨hgoing, hyields⟩ := yields_dispatches hpackets hgoing (hyields.push_ok hpush)
      refine .after (Link.took_read hread) hpackets (ih hgoing hyields fun hnone => ?_)
      rw [hnone, List.append_nil]
      exact .otherwise hgoing hyields

/-- A turn of the reader. -/
theorem turned_poll {reader : Reader} (hposition : Position limit front first dispatched reader)
    (hleft : reader ≠ .ended) (session : Session) (link : Link) :
    Turned limit front first dispatched session link (reader.dispatches session link)
      (poll ⟨reader, session, link⟩) := by
  cases hposition with
  | ended => exact absurd rfl hleft
  | reading hgoing hyields => exact turned_readOn _ session link hgoing hyields
  | @starting trailing buffer hnone hyields =>
      subst hnone
      have hfront : Yields limit (front ++ []) (first :: ([] ++ trailing)) buffer := by
        rwa [List.append_nil]
      unfold poll dispatches
      dsimp only
      rcases hpackets : session.dispatchAll trailing with ⟨middle, _ | reason⟩
      · obtain ⟨hgoing, hyields⟩ := yields_dispatches hpackets (List.forall_mem_nil _) hfront
        exact .after (.refl link) hpackets (turned_readOn _ middle link hgoing hyields)
      · dsimp only
        rw [List.append_nil]
        exact turned_byPacket (.refl link) (List.forall_mem_nil _) hfront hpackets

end

end Reader

end RoutedSession
