import RoutedSession.Proofs.Session.Intake

namespace RoutedSession

/-- The client has written nothing to the stream, whatever it has read. -/
structure Link.OnlyRead (before after : Link) : Prop where
  outgoing : after.outgoing = before.outgoing
  took : ∃ bytes, before.Took after bytes

namespace Link

theorem OnlyRead.refl (link : Link) : OnlyRead link link :=
  ⟨rfl, [], .refl link⟩

theorem onlyRead_of_read {link rest : Link} {limit : Nat} {found : ReadResult}
    (hread : link.read limit = (found, rest)) : OnlyRead link rest :=
  ⟨outgoing_of_read hread, _, took_read hread⟩

theorem onlyRead_of_write {link after : Link} {slices : List Bytes} {written : Written}
    (hresult : link.write slices = (written, after))
    (hnone : ∀ count, written ≠ .took (count + 1)) : OnlyRead link after := by
  refine ⟨?_, [], took_write hresult⟩
  rw [outgoing_of_write hresult]
  cases written with
  | took count =>
      cases count with
      | zero => simp
      | succ count => exact absurd rfl (hnone count)
  | blocked => rfl
  | failed reason => rfl

theorem onlyRead_of_flush {link after : Link} {flushed : Completion}
    (hresult : link.flush = (flushed, after)) : OnlyRead link after := by
  obtain ⟨-, rfl⟩ := Prod.mk.inj hresult
  exact .refl link

end Link

namespace Attempt

open Relation (ReflTransGen)

/-- An exchange in the middle of a turn, in which so many transfers are left. -/
structure Point where
  phase : AttemptPhase
  link : Link
  share : Nat

/-- The phases in which something is written: what is left, and the phase for any other rest. -/
inductive Writes : AttemptPhase → List Bytes → (List Bytes → AttemptPhase) → Prop where
  | offer (left : List Bytes) : Writes (.offering left) left .offering
  | confirmation (left : List Bytes) (accepted : Accepted) :
      Writes (.confirming left accepted) left (.confirming · accepted)

/-- An operation that succeeds and does not end the exchange. -/
inductive Operates (request : HandshakeRequest) (limit : Nat) : Point → Point → Prop where
  | begins (link : Link) (share : Nat) (hfits : Fits request) :
      Operates request limit ⟨.starting, link, share⟩
        ⟨.offering [(offer request).bytes], link, share⟩
  | writes {phase : AttemptPhase} {left : List Bytes} {rest : List Bytes → AttemptPhase}
      {link after : Link} {count : Nat} (share : Nat) (hwrites : Writes phase left rest)
      (hmore : Writer.hasBytes left = true) (htook : link.write left = (.took (count + 1), after)) :
      Operates request limit ⟨phase, link, share + 1⟩
        ⟨rest (Slices.drop (count + 1) left), after, share⟩
  | offered {left : List Bytes} {link after : Link} (share : Nat)
      (hnone : Writer.hasBytes left = false) (hflushed : link.flush = (.done, after)) :
      Operates request limit ⟨.offering left, link, share⟩ ⟨.awaiting (.empty limit), after, share⟩
  | reads {buffer next : PacketBuffer} {link rest : Link} {bytes : Bytes} (share : Nat)
      (hread : link.read chunk = (.got bytes, rest)) (hpush : buffer.push bytes = (.ok [], next)) :
      Operates request limit ⟨.awaiting buffer, link, share + 1⟩ ⟨.awaiting next, rest, share⟩
  | answered {buffer next : PacketBuffer} {link rest : Link} {bytes : Bytes} {first : Packet}
      {trailing : List Packet} {response : HandshakeResponse} (share : Nat)
      (hread : link.read chunk = (.got bytes, rest))
      (hpush : buffer.push bytes = (.ok (first :: trailing), next))
      (hjudged : judge first = .ok response) :
      Operates request limit ⟨.awaiting buffer, link, share + 1⟩
        ⟨.confirming [confirmation.bytes] ⟨response, trailing, next⟩, rest, share⟩

/-- The causes for which an exchange fails, and the errors that tell of them. -/
inductive Fails (request : HandshakeRequest) : Point → SessionError → Prop where
  | tooLarge {reason : FramingError} (link : Link) (share : Nat)
      (hencode : (offer request).encode = .error reason) :
      Fails request ⟨.starting, link, share⟩ (.framing reason)
  | write {phase : AttemptPhase} {left : List Bytes} {rest : List Bytes → AttemptPhase}
      {link after : Link} {reason : StreamError} (share : Nat) (hwrites : Writes phase left rest)
      (hmore : Writer.hasBytes left = true) (hfailed : link.write left = (.failed reason, after)) :
      Fails request ⟨phase, link, share⟩ (.stream reason)
  | tookNothing {phase : AttemptPhase} {left : List Bytes} {rest : List Bytes → AttemptPhase}
      {link after : Link} (share : Nat) (hwrites : Writes phase left rest)
      (hmore : Writer.hasBytes left = true) (htook : link.write left = (.took 0, after)) :
      Fails request ⟨phase, link, share⟩ (.stream (.tookNothing "write zero"))
  | flush {phase : AttemptPhase} {left : List Bytes} {rest : List Bytes → AttemptPhase}
      {link after : Link} {reason : StreamError} (share : Nat) (hwrites : Writes phase left rest)
      (hnone : Writer.hasBytes left = false) (hfailed : link.flush = (.failed reason, after)) :
      Fails request ⟨phase, link, share⟩ (.stream reason)
  | read {link rest : Link} {reason : StreamError} (buffer : PacketBuffer) (share : Nat)
      (hfailed : link.read chunk = (.failed reason, rest)) :
      Fails request ⟨.awaiting buffer, link, share⟩ (.stream reason)
  | ended {link rest : Link} (buffer : PacketBuffer) (share : Nat)
      (hended : link.read chunk = (.ended, rest)) :
      Fails request ⟨.awaiting buffer, link, share + 1⟩ (.handshake .closedEarly)
  | malformed {buffer next : PacketBuffer} {link rest : Link} {bytes : Bytes}
      {reason : FramingError} (share : Nat) (hread : link.read chunk = (.got bytes, rest))
      (hpush : buffer.push bytes = (.error reason, next)) :
      Fails request ⟨.awaiting buffer, link, share + 1⟩ (.framing reason)
  /-- The first packet is of another kind, or it is no answer that accepts the offer. -/
  | refused {buffer next : PacketBuffer} {link rest : Link} {bytes : Bytes} {first : Packet}
      {trailing : List Packet} {reason : HandshakeError} (share : Nat)
      (hread : link.read chunk = (.got bytes, rest))
      (hpush : buffer.push bytes = (.ok (first :: trailing), next))
      (hjudged : judge first = .error reason) :
      Fails request ⟨.awaiting buffer, link, share + 1⟩ (.handshake reason)

/-- Where an exchange has to wait: the stream blocks, or no transfer is left in the turn. -/
inductive Waits : Point → Prop where
  | write {phase : AttemptPhase} {left : List Bytes} {rest : List Bytes → AttemptPhase}
      {link after : Link} (share : Nat) (hwrites : Writes phase left rest)
      (hmore : Writer.hasBytes left = true) (hblocked : link.write left = (.blocked, after)) :
      Waits ⟨phase, link, share⟩
  | noWrite {phase : AttemptPhase} {left : List Bytes} {rest : List Bytes → AttemptPhase}
      {link after : Link} {count : Nat} (hwrites : Writes phase left rest)
      (hmore : Writer.hasBytes left = true) (htook : link.write left = (.took (count + 1), after)) :
      Waits ⟨phase, link, 0⟩
  | flush {phase : AttemptPhase} {left : List Bytes} {rest : List Bytes → AttemptPhase}
      {link after : Link} (share : Nat) (hwrites : Writes phase left rest)
      (hnone : Writer.hasBytes left = false) (hblocked : link.flush = (.blocked, after)) :
      Waits ⟨phase, link, share⟩
  | read {link rest : Link} (buffer : PacketBuffer) (share : Nat)
      (hblocked : link.read chunk = (.blocked, rest)) : Waits ⟨.awaiting buffer, link, share⟩
  | noRead {link rest : Link} {found : ReadResult} (buffer : PacketBuffer)
      (hread : link.read chunk = (found, rest)) (hworks : ∀ reason, found ≠ .failed reason) :
      Waits ⟨.awaiting buffer, link, 0⟩

inductive Succeeds : Point → Accepted → Prop where
  | flush {left : List Bytes} {link after : Link} (accepted : Accepted) (share : Nat)
      (hnone : Writer.hasBytes left = false) (hflushed : link.flush = (.done, after)) :
      Succeeds ⟨.confirming left accepted, link, share⟩ accepted

/-- Lets an exchange go on from a point. -/
def goOn (request : HandshakeRequest) (limit : Nat) (point : Point) : State × Link :=
  match point.phase with
  | .starting =>
      match (offer request).encode with
      | .error reason => (.failed (.framing reason), point.link)
      | .ok bytes => writeOffer limit point.share point.link [bytes]
  | .offering left => writeOffer limit point.share point.link left
  | .awaiting buffer => readAnswer point.share point.link buffer
  | .confirming left accepted => confirm point.share point.link left accepted

/-- Where a turn begins. -/
def point (attempt : Attempt) (link : Link) : Point :=
  ⟨attempt.phase, link, transfersPerTurn⟩

theorem advance_eq_goOn (attempt : Attempt) (link : Link) :
    attempt.advance link = goOn attempt.request attempt.limit (attempt.point link) := by
  obtain ⟨request, limit, timeout, deadline, phase⟩ := attempt
  cases phase <;> rfl

section

variable {link after : Link} {left : List Bytes} {share : Nat}

theorem writePacket_of_hasBytes {written : Written} (hmore : Writer.hasBytes left = true) :
    link.write left = (written, after) →
      writePacket share link left =
        match written with
        | .blocked => (.halted left true, after)
        | .failed reason => (.failed reason, after)
        | .took 0 => (.failed (.tookNothing "write zero"), after)
        | .took (count + 1) =>
            if share < 1 then (.halted left false, link)
            else writePacket (share - 1) after (Slices.drop (count + 1) left) := by
  intro hresult
  have hwrite : Link.sink.write link left = (written, after) := hresult
  unfold writePacket
  rw [Writer.writeOut, dif_pos hmore, hwrite]
  cases written with
  | took count => cases count <;> rfl
  | blocked => rfl
  | failed reason => rfl

theorem writePacket_of_not_hasBytes {flushed : Completion}
    (hnone : Writer.hasBytes left = false) :
    link.flush = (flushed, after) →
      writePacket share link left =
        match flushed with
        | .done => (.finished share, after)
        | .blocked => (.halted left true, after)
        | .failed reason => (.failed reason, after) := by
  intro hresult
  have hflush : Link.sink.flush link = (flushed, after) := hresult
  unfold writePacket
  rw [Writer.writeOut, dif_neg (Bool.not_eq_true _ ▸ hnone), hflush]
  cases flushed <;> rfl

theorem readAnswer_of_read {buffer : PacketBuffer} {found : ReadResult} :
    link.read chunk = (found, after) →
      readAnswer share link buffer =
        match found with
        | .blocked => (.waiting (.awaiting buffer), link)
        | .failed reason => (.failed (.stream reason), link)
        | .ended =>
            match share with
            | 0 => (.waiting (.awaiting buffer), link)
            | _ + 1 => (.failed (.handshake .closedEarly), link)
        | .got bytes =>
            match share with
            | 0 => (.waiting (.awaiting buffer), link)
            | share + 1 =>
                match buffer.push bytes with
                | (.error reason, _) => (.failed (.framing reason), after)
                | (.ok [], buffer) => readAnswer share after buffer
                | (.ok (first :: trailing), buffer) =>
                    match judge first with
                    | .error reason => (.failed (.handshake reason), after)
                    | .ok response =>
                        confirm share after [confirmation.bytes] ⟨response, trailing, buffer⟩ := by
  intro hread
  conv_lhs => unfold readAnswer
  split
  · rename_i hfound
    obtain ⟨rfl, rfl⟩ := Prod.mk.inj (hread.symm.trans hfound)
    rfl
  · rename_i hfound
    obtain ⟨rfl, rfl⟩ := Prod.mk.inj (hread.symm.trans hfound)
    rfl
  · rename_i hblocked hfailed
    cases found with
    | blocked => exact absurd hread (hblocked after)
    | failed reason => exact absurd hread (hfailed reason after)
    | ended => rfl
    | got bytes => rfl
  · rename_i hfound
    obtain ⟨rfl, rfl⟩ := Prod.mk.inj (hread.symm.trans hfound)
    rfl
  · rename_i hfound
    obtain ⟨rfl, rfl⟩ := Prod.mk.inj (hread.symm.trans hfound)
    rfl

end

section

variable {request : HandshakeRequest} {limit : Nat} {here next : Point}

section

variable {phase : AttemptPhase} {left : List Bytes} {rest : List Bytes → AttemptPhase}
  {link after : Link} {share : Nat}

theorem goOn_of_written (hwrites : Writes phase left rest) {more : List Bytes} {later : Nat}
    (hwritten : writePacket share link left = writePacket later after more) :
    goOn request limit ⟨phase, link, share⟩ = goOn request limit ⟨rest more, after, later⟩ := by
  cases hwrites with
  | offer => simp only [goOn, writeOffer, hwritten]
  | confirmation => simp only [goOn, confirm, hwritten]

theorem goOn_of_halted (hwrites : Writes phase left rest) {isBlocked : Bool}
    (hhalted : writePacket share link left = (.halted left isBlocked, after)) :
    goOn request limit ⟨phase, link, share⟩ = (.waiting phase, after) := by
  cases hwrites with
  | offer => simp only [goOn, writeOffer, hhalted]
  | confirmation => simp only [goOn, confirm, hhalted]

theorem goOn_of_failed (hwrites : Writes phase left rest) {reason : StreamError}
    (hfailed : writePacket share link left = (.failed reason, after)) :
    goOn request limit ⟨phase, link, share⟩ = (.failed (.stream reason), after) := by
  cases hwrites with
  | offer => simp only [goOn, writeOffer, hfailed]
  | confirmation => simp only [goOn, confirm, hfailed]

end

theorem Operates.goOn_eq (hoperates : Operates request limit here next) :
    goOn request limit here = goOn request limit next := by
  cases hoperates with
  | begins link share hfits =>
      have hencode := Packet.encode_eq_ok_iff.mpr ⟨hfits, rfl⟩
      simp only [goOn, hencode]
  | writes share hwrites hmore htook =>
      apply goOn_of_written hwrites
      rw [writePacket_of_hasBytes hmore htook]
      exact if_neg (Nat.not_lt.mpr (Nat.le_add_left 1 share))
  | offered share hnone hflushed =>
      simp only [goOn, writeOffer, writePacket_of_not_hasBytes hnone hflushed]
  | reads share hread hpush => simp only [goOn, readAnswer_of_read hread, hpush]
  | answered share hread hpush hjudged =>
      simp only [goOn, readAnswer_of_read hread, hpush, hjudged]

theorem Fails.goOn_eq {reason : SessionError} (hfails : Fails request here reason) :
    (goOn request limit here).1 = .failed reason ∧
      here.link.OnlyRead (goOn request limit here).2 := by
  cases hfails with
  | tooLarge link share hencode =>
      simp only [goOn, hencode, true_and]
      exact .refl link
  | write share hwrites hmore hfailed =>
      rw [goOn_of_failed hwrites (writePacket_of_hasBytes hmore hfailed)]
      exact ⟨rfl, Link.onlyRead_of_write hfailed nofun⟩
  | tookNothing share hwrites hmore htook =>
      rw [goOn_of_failed hwrites (writePacket_of_hasBytes hmore htook)]
      exact ⟨rfl, Link.onlyRead_of_write htook nofun⟩
  | flush share hwrites hnone hfailed =>
      rw [goOn_of_failed hwrites (writePacket_of_not_hasBytes hnone hfailed)]
      exact ⟨rfl, Link.onlyRead_of_flush hfailed⟩
  | read buffer share hfailed =>
      simp only [goOn, readAnswer_of_read hfailed, true_and]
      exact .refl _
  | ended buffer share hended =>
      simp only [goOn, readAnswer_of_read hended, true_and]
      exact .refl _
  | malformed share hread hpush =>
      simp only [goOn, readAnswer_of_read hread, hpush, true_and]
      exact Link.onlyRead_of_read hread
  | refused share hread hpush hjudged =>
      simp only [goOn, readAnswer_of_read hread, hpush, hjudged, true_and]
      exact Link.onlyRead_of_read hread

theorem Waits.goOn_eq (hwaits : Waits here) :
    (goOn request limit here).1 = .waiting here.phase ∧
      here.link.OnlyRead (goOn request limit here).2 := by
  cases hwaits with
  | write share hwrites hmore hblocked =>
      rw [goOn_of_halted hwrites (writePacket_of_hasBytes hmore hblocked)]
      exact ⟨rfl, Link.onlyRead_of_write hblocked nofun⟩
  | noWrite hwrites hmore htook =>
      rw [goOn_of_halted hwrites (writePacket_of_hasBytes hmore htook)]
      exact ⟨rfl, .refl _⟩
  | flush share hwrites hnone hblocked =>
      rw [goOn_of_halted hwrites (writePacket_of_not_hasBytes hnone hblocked)]
      exact ⟨rfl, Link.onlyRead_of_flush hblocked⟩
  | read buffer share hblocked =>
      simp only [goOn, readAnswer_of_read hblocked, true_and]
      exact .refl _
  | @noRead link rest found buffer hread hworks =>
      simp only [goOn, readAnswer_of_read hread]
      cases found with
      | failed reason => exact absurd rfl (hworks reason)
      | got bytes => exact ⟨rfl, .refl link⟩
      | ended => exact ⟨rfl, .refl link⟩
      | blocked => exact ⟨rfl, .refl link⟩

theorem Succeeds.goOn_eq {accepted : Accepted} (hsucceeds : Succeeds here accepted) :
    (goOn request limit here).1 = .accepted accepted := by
  obtain ⟨accepted, share, hnone, hflushed⟩ := hsucceeds
  simp only [goOn, confirm, writePacket_of_not_hasBytes hnone hflushed]

/-- Where an exchange comes to a stand, and what it has come to there. -/
inductive Stands (request : HandshakeRequest) (here : Point) : State → Prop where
  | waits (hwaits : Waits here) : Stands request here (.waiting here.phase)
  | fails {reason : SessionError} (hfails : Fails request here reason) :
      Stands request here (.failed reason)
  | succeeds {accepted : Accepted} (hsucceeds : Succeeds here accepted) :
      Stands request here (.accepted accepted)

theorem Stands.goOn_eq {state : State} (hstands : Stands request here state) :
    (goOn request limit here).1 = state := by
  cases hstands with
  | waits hwaits => exact hwaits.goOn_eq.1
  | fails hfails => exact hfails.goOn_eq.1
  | succeeds hsucceeds => exact hsucceeds.goOn_eq

theorem write_cases {phase : AttemptPhase} {left : List Bytes} {rest : List Bytes → AttemptPhase}
    (hwrites : Writes phase left rest) (link : Link) (share : Nat) :
    (∃ next, Operates request limit ⟨phase, link, share⟩ next) ∨
      (∃ state, Stands request ⟨phase, link, share⟩ state) ∨
        Writer.hasBytes left = false ∧ ∃ after, link.flush = (.done, after) := by
  cases hmore : Writer.hasBytes left with
  | true =>
      rcases hresult : link.write left with ⟨_ | _ | reason, after⟩
      · rename_i count
        cases count with
        | zero => exact .inr (.inl ⟨_, .fails (.tookNothing share hwrites hmore hresult)⟩)
        | succ count =>
            cases share with
            | zero => exact .inr (.inl ⟨_, .waits (.noWrite hwrites hmore hresult)⟩)
            | succ share => exact .inl ⟨_, .writes share hwrites hmore hresult⟩
      · exact .inr (.inl ⟨_, .waits (.write share hwrites hmore hresult)⟩)
      · exact .inr (.inl ⟨_, .fails (.write share hwrites hmore hresult)⟩)
  | false =>
      rcases hresult : link.flush with ⟨_ | _ | reason, after⟩
      · exact .inr (.inr ⟨rfl, after, rfl⟩)
      · exact .inr (.inl ⟨_, .waits (.flush share hwrites hmore hresult)⟩)
      · exact .inr (.inl ⟨_, .fails (.flush share hwrites hmore hresult)⟩)

theorem read_cases (buffer : PacketBuffer) (link : Link) (share : Nat) :
    (∃ next, Operates request limit ⟨.awaiting buffer, link, share⟩ next) ∨
      ∃ state, Stands request ⟨.awaiting buffer, link, share⟩ state := by
  rcases hread : link.read chunk with ⟨found, after⟩
  by_cases hfailed : ∃ reason, found = .failed reason
  · obtain ⟨reason, rfl⟩ := hfailed
    exact .inr ⟨_, .fails (.read buffer share hread)⟩
  cases share with
  | zero => exact .inr ⟨_, .waits (.noRead buffer hread (not_exists.mp hfailed))⟩
  | succ share =>
      cases found with
      | failed reason => exact absurd ⟨reason, rfl⟩ hfailed
      | blocked => exact .inr ⟨_, .waits (.read buffer _ hread)⟩
      | ended => exact .inr ⟨_, .fails (.ended buffer share hread)⟩
      | got bytes =>
          rcases hpush : buffer.push bytes with ⟨reason | _ | ⟨first, trailing⟩, next⟩
          · exact .inr ⟨_, .fails (.malformed share hread hpush)⟩
          · exact .inl ⟨_, .reads share hread hpush⟩
          · cases hjudged : judge first with
            | error reason => exact .inr ⟨_, .fails (.refused share hread hpush hjudged)⟩
            | ok response => exact .inl ⟨_, .answered share hread hpush hjudged⟩

theorem operates_or_stands (request : HandshakeRequest) (limit : Nat) (here : Point) :
    (∃ next, Operates request limit here next) ∨ ∃ state, Stands request here state := by
  obtain ⟨phase, link, share⟩ := here
  cases phase with
  | starting =>
      cases hencode : (offer request).encode with
      | error reason => exact .inr ⟨_, .fails (.tooLarge link share hencode)⟩
      | ok bytes =>
          exact .inl ⟨_, .begins link share (Packet.encode_eq_ok_iff.mp hencode).1⟩
  | awaiting buffer => exact read_cases buffer link share
  | offering left =>
      rcases write_cases (.offer left) link share with hnext | hstands | ⟨hnone, after, hflushed⟩
      · exact .inl hnext
      · exact .inr hstands
      · exact .inl ⟨_, .offered share hnone hflushed⟩
  | confirming left accepted =>
      rcases write_cases (.confirmation left accepted) link share with
        hnext | hstands | ⟨hnone, after, hflushed⟩
      · exact .inl hnext
      · exact .inr hstands
      · exact .inr ⟨_, .succeeds (.flush accepted share hnone hflushed)⟩

/-- More operations than an exchange can still make in its turn. -/
def Point.ahead (here : Point) : Nat :=
  match here.phase with
  | .starting => here.share + 2
  | .offering _ => here.share + 1
  | .awaiting _ | .confirming _ _ => here.share

theorem Operates.ahead_lt (hoperates : Operates request limit here next) :
    next.ahead < here.ahead := by
  cases hoperates with
  | begins => exact Nat.lt_add_one _
  | writes share hwrites => cases hwrites <;> exact Nat.lt_add_one _
  | offered => exact Nat.lt_add_one _
  | reads => exact Nat.lt_add_one _
  | answered => exact Nat.lt_add_one _

theorem goOn_eq_of_reached {last : Point}
    (hreached : ReflTransGen (Operates request limit) here last) :
    goOn request limit here = goOn request limit last := by
  induction hreached with
  | refl => rfl
  | tail _ hlast ih => exact ih.trans hlast.goOn_eq

theorem exists_stands (request : HandshakeRequest) (limit : Nat) (here : Point) :
    ∃ last state, ReflTransGen (Operates request limit) here last ∧ Stands request last state := by
  -- On the operations that are left in the turn: each takes a transfer, or leads to a later phase.
  induction hahead : here.ahead using Nat.strong_induction_on generalizing here with
  | h ahead ih =>
      subst hahead
      rcases operates_or_stands request limit here with ⟨next, hnext⟩ | ⟨state, hstands⟩
      · obtain ⟨last, state, hreached, hstands⟩ := ih next.ahead hnext.ahead_lt next rfl
        exact ⟨last, state, hreached.head hnext, hstands⟩
      · exact ⟨here, state, .refl, hstands⟩

/-- Why an exchange fails in a turn. -/
inductive FailsInTurn (attempt : Attempt) (now : Nat) (link : Link) : SessionError → Prop where
  | cause {last : Point} {reason : SessionError}
      (hreached : ReflTransGen (Operates attempt.request attempt.limit) (attempt.point link) last)
      (hfails : Fails attempt.request last reason) : FailsInTurn attempt now link reason
  /-- It has to wait, in whatever phase, and its time is over. -/
  | late {last : Point}
      (hreached : ReflTransGen (Operates attempt.request attempt.limit) (attempt.point link) last)
      (hwaits : Waits last) (hlate : attempt.deadline ≤ now) :
      FailsInTurn attempt now link (.handshake (.noAnswer attempt.timeout))

section

variable {attempt : Attempt} {now : Nat} {link : Link} {reason : SessionError}

theorem fst_poll (attempt : Attempt) (now : Nat) (link : Link) :
    (attempt.poll now link).1 =
      match (attempt.advance link).1 with
      | .waiting phase =>
          if attempt.deadline ≤ now then .failed (.handshake (.noAnswer attempt.timeout))
          else .waiting phase
      | state => state := by
  unfold poll
  rcases attempt.advance link with ⟨phase | accepted | reason, after⟩
  · dsimp only
    split <;> rfl
  · rfl
  · rfl

theorem snd_poll (attempt : Attempt) (now : Nat) (link : Link) :
    (attempt.poll now link).2 = (attempt.advance link).2 := by
  unfold poll
  rcases attempt.advance link with ⟨phase | accepted | reason, after⟩
  · dsimp only
    split <;> rfl
  · rfl
  · rfl

theorem advance_of_reached {last : Point}
    (hreached : ReflTransGen (Operates attempt.request attempt.limit) (attempt.point link) last) :
    attempt.advance link = goOn attempt.request attempt.limit last :=
  (attempt.advance_eq_goOn link).trans (goOn_eq_of_reached hreached)

/-- The causes are all there are, and each of them makes the exchange fail. -/
theorem poll_eq_failed_iff :
    (attempt.poll now link).1 = .failed reason ↔ attempt.FailsInTurn now link reason := by
  rw [fst_poll]
  constructor
  · intro hfailed
    obtain ⟨last, state, hreached, hstands⟩ :=
      exists_stands attempt.request attempt.limit (attempt.point link)
    rw [advance_of_reached hreached, hstands.goOn_eq] at hfailed
    cases hstands with
    | waits hwaits =>
        dsimp only at hfailed
        split at hfailed
        · rename_i hlate
          obtain rfl := State.failed.inj hfailed
          exact .late hreached hwaits hlate
        · cases hfailed
    | fails hfails =>
        obtain rfl := State.failed.inj hfailed
        exact .cause hreached hfails
    | succeeds hsucceeds => cases hfailed
  · intro hfails
    cases hfails with
    | cause hreached hfails => rw [advance_of_reached hreached, hfails.goOn_eq.1]
    | late hreached hwaits hlate =>
        rw [advance_of_reached hreached, hwaits.goOn_eq.1]
        exact if_pos hlate

theorem poll_ne_waiting (hlate : attempt.deadline ≤ now) (phase : AttemptPhase) :
    (attempt.poll now link).1 ≠ .waiting phase := by
  rw [fst_poll]
  split
  · rw [if_pos hlate]
    exact State.noConfusion
  · rename_i hother
    exact hother phase

end

section

variable {front read : Bytes}

theorem Operates.holds (hoperates : Operates request limit here next)
    (hholds : PhaseHolds request (front ++ here.link.outgoing) here.phase) :
    PhaseHolds request (front ++ next.link.outgoing) next.phase := by
  cases hoperates with
  | begins link share hfits =>
      obtain ⟨hnone⟩ := hholds
      refine .offering hfits ?_
      rw [hnone, List.nil_append, List.flatten_singleton]
  | @writes phase left rest link after count share hwrites hmore htook =>
      have hall (all : Bytes) (hall : front ++ link.outgoing ++ left.flatten = all) :
          front ++ after.outgoing ++ (Slices.drop (count + 1) left).flatten = all := by
        rw [Link.outgoing_of_write htook, Slices.flatten_drop, ← List.append_assoc front,
          List.append_assoc _ (List.take _ _), List.take_append_drop]
        exact hall
      cases hwrites with
      | offer =>
          obtain _ | ⟨hfits, hoffer⟩ := hholds
          exact .offering hfits (hall _ hoffer)
      | confirmation _ accepted =>
          obtain _ | _ | _ | ⟨_, hfits, hwritten⟩ := hholds
          exact .confirming accepted hfits (hall _ hwritten)
  | @offered left link after share hnone hflushed =>
      obtain ⟨-, rfl⟩ := Prod.mk.inj hflushed
      obtain _ | ⟨hfits, hall⟩ := hholds
      rw [← Bool.not_eq_true, Writer.hasBytes_eq_true, Writer.total, Nat.not_lt, Nat.le_zero,
        List.length_eq_zero_iff] at hnone
      rw [hnone, List.append_nil] at hall
      exact .awaiting _ hfits hall
  | reads share hread hpush =>
      obtain _ | _ | ⟨_, hfits, hall⟩ := hholds
      refine .awaiting _ hfits ?_
      rwa [Link.outgoing_of_read hread]
  | answered share hread hpush hjudged =>
      obtain _ | _ | ⟨_, hfits, hall⟩ := hholds
      refine .confirming _ hfits ?_
      dsimp only at hall ⊢
      rw [Link.outgoing_of_read hread, hall, List.flatten_singleton, written]

theorem Operates.reads_on (hoperates : Operates request limit here next)
    (hreads : PhaseReads limit read here.phase) :
    ∃ more, here.link.Took next.link more ∧ PhaseReads limit (read ++ more) next.phase := by
  cases hoperates with
  | begins link share hfits =>
      obtain ⟨hnone⟩ := hreads
      exact ⟨[], .refl link, .offering _ (by rw [hnone, List.append_nil])⟩
  | writes share hwrites hmore htook =>
      refine ⟨[], Link.took_write htook, ?_⟩
      rw [List.append_nil]
      cases hwrites with
      | offer =>
          obtain _ | ⟨_, hnone⟩ := hreads
          exact .offering _ hnone
      | confirmation =>
          obtain _ | _ | _ | ⟨_, hanswered⟩ := hreads
          exact .confirming _ hanswered
  | @offered left link after share hnone hflushed =>
      obtain ⟨-, rfl⟩ := Prod.mk.inj hflushed
      obtain _ | ⟨_, hempty⟩ := hreads
      refine ⟨[], .refl link, .awaiting ?_⟩
      rw [hempty]
      exact PacketBuffer.yields_empty limit
  | reads share hread hpush =>
      obtain _ | _ | hyields := hreads
      exact ⟨_, Link.took_read hread, .awaiting (hyields.push_ok hpush)⟩
  | answered share hread hpush hjudged =>
      obtain _ | _ | hyields := hreads
      exact ⟨_, Link.took_read hread, .confirming _ ⟨_, hjudged, hyields.push_ok hpush⟩⟩

theorem holds_of_reached {last : Point}
    (hreached : ReflTransGen (Operates request limit) here last)
    (hholds : PhaseHolds request (front ++ here.link.outgoing) here.phase) :
    PhaseHolds request (front ++ last.link.outgoing) last.phase := by
  induction hreached with
  | refl => exact hholds
  | tail _ hlast ih => exact hlast.holds ih

theorem reads_of_reached {last : Point}
    (hreached : ReflTransGen (Operates request limit) here last)
    (hreads : PhaseReads limit read here.phase) :
    ∃ more, here.link.Took last.link more ∧ PhaseReads limit (read ++ more) last.phase := by
  induction hreached with
  | refl => exact ⟨[], .refl _, by rwa [List.append_nil]⟩
  | tail _ hlast ih =>
      obtain ⟨more, htook, hreads⟩ := ih
      obtain ⟨later, hlater, hreads⟩ := hlast.reads_on hreads
      refine ⟨more ++ later, htook.trans hlater, ?_⟩
      rwa [← List.append_assoc]

theorem offered_or_answered {phase : AttemptPhase} {gone : Bytes}
    (hholds : PhaseHolds request gone phase) (hreads : PhaseReads limit read phase) :
    gone <+: (offer request).bytes ∨ ∃ accepted, Answered limit read accepted := by
  cases hholds with
  | starting hnone =>
      rw [hnone]
      exact .inl List.nil_prefix
  | offering hfits hall => exact .inl ⟨_, hall⟩
  | awaiting buffer hfits hall =>
      rw [hall]
      exact .inl (List.prefix_refl _)
  | confirming accepted hfits hall =>
      obtain _ | _ | _ | ⟨_, hanswered⟩ := hreads
      exact .inr ⟨accepted, hanswered⟩

theorem FailsInTurn.leaves {attempt : Attempt} {now : Nat} {link : Link} {reason : SessionError}
    (hfails : attempt.FailsInTurn now link reason)
    (hholds : PhaseHolds attempt.request (front ++ link.outgoing) attempt.phase)
    (hreads : PhaseReads attempt.limit read attempt.phase) :
    let after := (attempt.poll now link).2
    Part attempt.request (front ++ after.outgoing) ∧
      (front ++ after.outgoing <+: (offer attempt.request).bytes ∨
        ∃ some more accepted, link.Took after (some ++ more) ∧
          Answered attempt.limit (read ++ some) accepted) := by
  obtain ⟨last, hreached, hrest⟩ : ∃ last,
      ReflTransGen (Operates attempt.request attempt.limit) (attempt.point link) last ∧
        last.link.OnlyRead (goOn attempt.request attempt.limit last).2 := by
    cases hfails with
    | cause hreached hfails => exact ⟨_, hreached, hfails.goOn_eq.2⟩
    | late hreached hwaits => exact ⟨_, hreached, hwaits.goOn_eq.2⟩
  obtain ⟨hgone, more, hmore⟩ := hrest
  have hlast := holds_of_reached hreached hholds
  obtain ⟨some, hsome, hread⟩ := reads_of_reached hreached hreads
  rw [snd_poll, advance_of_reached hreached]
  dsimp only
  rw [hgone]
  refine ⟨hlast.part, (offered_or_answered hlast hread).imp_right ?_⟩
  rintro ⟨accepted, hanswered⟩
  exact ⟨some, more, accepted, hsome.trans hmore, hanswered⟩

end

end

end Attempt

end RoutedSession
