import RoutedSession.Outbox.Script
import RoutedSession.Proofs.Outbox.Batches
import RoutedSession.Proofs.Packet.Cut

namespace RoutedSession

namespace Outlet

/-- What has become of an attempt to send a frame. -/
inductive Standing where
  | waiting
  | sent
  | failed (reason : SessionError)
  /-- Whoever sent has gone away. -/
  | givenUp

structure Post where
  frame : Frame
  standing : Standing

def Standing.ofSent : Outbox.Sent → Standing
  | .done => .sent
  | .waiting => .waiting
  | .failed reason => .failed reason

end Outlet

/-- A queue, those who send and a writer, with the record of its stream. -/
structure Outlet (σ : Type) where
  outbox : Outbox
  /-- The writer, when it has been started. -/
  writer : Option Writer := none
  stream : Recorded σ
  /-- The number of handles for sending, apart from those of the senders that wait. -/
  handles : Nat := 1
  /-- All attempts to send. Their places are the names of the senders. -/
  posts : List Outlet.Post := []
  /-- The frames that have entered the queue and who has sent them, in the order of entering. -/
  entered : List (SenderId × Frame) := []

namespace Outlet

inductive Move (σ : Type) where
  | send (frame : Frame)
  | trySend (frame : Frame)
  /-- A sender that waits looks again. -/
  | look (sender : SenderId)
  /-- A sender that waits goes away. -/
  | giveUp (sender : SenderId)
  | addHandle
  | dropHandle
  | stop
  | startWriter
  | turn
  /-- Something changes the stream, so that it may go on, fail or end. -/
  | stir (change : σ → σ)

variable {σ : Type}

/-- Whether anybody can still send. -/
def hasSenders (outlet : Outlet σ) : Bool :=
  0 < outlet.handles || outlet.posts.any fun post => post.standing matches .waiting

/-- An attempt to send without waiting, as one to send. -/
def sentAtOnce : Except SessionError Unit × Outbox → Outbox.Sent × Outbox
  | (.ok (), outbox) => (.done, outbox)
  | (.error reason, outbox) => (.failed reason, outbox)

def post (outlet : Outlet σ) (frame : Frame) : Outlet σ :=
  { outlet with posts := outlet.posts ++ [⟨frame, .waiting⟩] }

/-- The outlet when it is known how far an attempt to send has come. -/
def settle (outlet : Outlet σ) (sender : SenderId) (frame : Frame)
    (attempt : Outbox.Sent × Outbox) : Outlet σ :=
  { outlet with
    outbox := attempt.2
    posts := outlet.posts.set sender ⟨frame, .ofSent attempt.1⟩
    entered :=
      match attempt.1 with
      | .done => outlet.entered ++ [(sender, frame)]
      | .waiting | .failed _ => outlet.entered }

def move (sink : Sink σ) (maxBatch : Nat) (outlet : Outlet σ) : Move σ → Outlet σ
  | .send frame =>
      if outlet.handles = 0 then outlet
      else
        let sender := outlet.posts.length
        (outlet.post frame).settle sender frame (outlet.outbox.send sender frame)
  | .trySend frame =>
      if outlet.handles = 0 then outlet
      else
        (outlet.post frame).settle outlet.posts.length frame
          (sentAtOnce (outlet.outbox.trySend frame))
  | .look sender =>
      match outlet.posts[sender]? with
      | some ⟨frame, .waiting⟩ =>
          outlet.settle sender frame (outlet.outbox.resume sender frame)
      | _ => outlet
  | .giveUp sender =>
      match outlet.posts[sender]? with
      | some ⟨frame, .waiting⟩ =>
          { outlet with
            outbox := outlet.outbox.leave sender
            posts := outlet.posts.set sender ⟨frame, .givenUp⟩ }
      | _ => outlet
  | .addHandle =>
      if outlet.handles = 0 then outlet else { outlet with handles := outlet.handles + 1 }
  | .dropHandle => { outlet with handles := outlet.handles - 1 }
  | .stop => { outlet with outbox := outlet.outbox.stop }
  | .startWriter =>
      match outlet.writer with
      | none =>
          let (writer, outbox) := Writer.start maxBatch outlet.outbox
          { outlet with writer := some writer, outbox }
      | some _ => outlet
  | .turn =>
      match outlet.writer with
      | none => outlet
      | some writer =>
          let work := Writer.poll sink.recorded maxBatch outlet.hasSenders
            ⟨writer, outlet.outbox, outlet.stream⟩
          { outlet with writer := some work.writer, outbox := work.outbox, stream := work.stream }
  | .stir change => { outlet with stream.stream := change outlet.stream.stream }

def follow (sink : Sink σ) (maxBatch : Nat) (outlet : Outlet σ) (moves : List (Move σ)) :
    Outlet σ :=
  moves.foldl (move sink maxBatch) outlet

def start (capacity : Nat) (stream : σ) : Outlet σ :=
  { outbox := .ofCapacity capacity, stream := ⟨stream, []⟩ }

def writerOrIdle (outlet : Outlet σ) : Writer :=
  outlet.writer.getD .idle

def frames (outlet : Outlet σ) : List Frame :=
  outlet.entered.map Prod.snd

/-- What is known of an outlet whatever has happened. -/
structure Sound (capacity maxBatch : Nat) (outlet : Outlet σ) : Prop where
  entered_iff (sender : SenderId) (frame : Frame) :
    (sender, frame) ∈ outlet.entered ↔ outlet.posts[sender]? = some ⟨frame, .sent⟩
  entered_once : (outlet.entered.map Prod.fst).Nodup
  capacity_eq : outlet.outbox.capacity = max capacity 1
  fits : outlet.outbox.Fits
  unbegun : outlet.writer = none → outlet.stream.calls = []
  logged : Writer.Logged (maxBatch - 1 + 1) outlet.frames outlet.outbox outlet.stream.calls
    outlet.writerOrIdle
  ends_last : Writer.EndsLast outlet.writerOrIdle outlet.stream.calls
  closing : outlet.writerOrIdle = .closing →
    outlet.outbox.stopped = true ∨ outlet.hasSenders = false

variable {capacity maxBatch : Nat} {outlet : Outlet σ}

theorem sound_start (capacity maxBatch : Nat) (stream : σ) :
    (start capacity stream).Sound capacity maxBatch where
  entered_iff := by simp [start]
  entered_once := List.nodup_nil
  capacity_eq := rfl
  fits := Outbox.fits_ofCapacity capacity
  unbegun _ := rfl
  logged := .idle (Writer.reached_start _)
  ends_last := Writer.endsLast_nil _
  closing := nofun

theorem hasSenders_of_held {outlet : Outlet σ} (hheld : outlet.handles ≠ 0) :
    outlet.hasSenders = true := by
  simp [hasSenders, Nat.pos_of_ne_zero hheld]

theorem hasSenders_of_waiting {outlet : Outlet σ} {sender : SenderId} {frame : Frame}
    (hpost : outlet.posts[sender]? = some ⟨frame, .waiting⟩) : outlet.hasSenders = true := by
  rw [hasSenders, Bool.or_eq_true]
  exact .inr (List.any_eq_true.mpr ⟨_, List.mem_of_getElem? hpost, rfl⟩)

theorem Sound.stopped_of_closing (hsound : outlet.Sound capacity maxBatch)
    (hsenders : outlet.hasSenders = true) (hclosing : outlet.writerOrIdle = .closing) :
    outlet.outbox.stopped = true :=
  (hsound.closing hclosing).resolve_right fun hnobody => by
    rw [hsenders] at hnobody
    contradiction

theorem sent_set {posts : List Post} {sender other : SenderId} {frame frame' : Frame}
    {standing : Standing} (hpost : posts[sender]? = some ⟨frame, .waiting⟩) :
    (posts.set sender ⟨frame, standing⟩)[other]? = some ⟨frame', .sent⟩ ↔
      posts[other]? = some ⟨frame', .sent⟩ ∨
        other = sender ∧ frame' = frame ∧ standing = .sent := by
  by_cases hsame : sender = other
  · subst hsame
    have hlt := (List.getElem?_eq_some_iff.mp hpost).1
    rw [List.getElem?_set_self hlt, hpost]
    simp [eq_comm]
  · rw [List.getElem?_set_ne hsame]
    simp [Ne.symm hsame]

theorem Sound.post (hsound : outlet.Sound capacity maxBatch) (hheld : outlet.handles ≠ 0)
    (frame : Frame) : (outlet.post frame).Sound capacity maxBatch where
  __ := hsound
  entered_iff sender frame' := by
    refine (hsound.entered_iff sender frame').trans ?_
    simp only [Outlet.post]
    rcases Nat.lt_trichotomy sender outlet.posts.length with hlt | rfl | hgt
    · rw [List.getElem?_append_left hlt]
    · simp
    · rw [List.getElem?_eq_none (Nat.le_of_lt hgt), List.getElem?_eq_none]
      rwa [List.length_append]
  closing hclosing := .inl (hsound.stopped_of_closing (hasSenders_of_held hheld) hclosing)

theorem Sound.setOutbox (hsound : outlet.Sound capacity maxBatch) {outbox : Outbox}
    (hframes : outbox.frames = outlet.outbox.frames)
    (hcapacity : outbox.capacity = outlet.outbox.capacity)
    (hreceiving : outbox.receiving = outlet.outbox.receiving)
    (hstopped : outlet.outbox.stopped = true → outbox.stopped = true) (hfits : outbox.Fits) :
    { outlet with outbox }.Sound capacity maxBatch where
  __ := hsound
  capacity_eq := hcapacity.trans hsound.capacity_eq
  fits := hfits
  logged := by
    have hframes : outbox.frames = outlet.outbox.frames ++ [] := by rw [hframes, List.append_nil]
    have hgrow := hsound.logged.grow hframes hreceiving hstopped nofun
    rwa [List.append_nil] at hgrow
  closing hclosing := (hsound.closing hclosing).imp_left hstopped

theorem Sound.setStanding (hsound : outlet.Sound capacity maxBatch) {sender : SenderId}
    {frame : Frame} {standing : Standing}
    (hpost : outlet.posts[sender]? = some ⟨frame, .waiting⟩) (hunsent : standing ≠ .sent) :
    { outlet with posts := outlet.posts.set sender ⟨frame, standing⟩ }.Sound
      capacity maxBatch where
  __ := hsound
  entered_iff other frame' := by
    rw [hsound.entered_iff, sent_set hpost]
    simp [hunsent]
  closing hclosing := .inl (hsound.stopped_of_closing (hasSenders_of_waiting hpost) hclosing)

theorem Sound.enter (hsound : outlet.Sound capacity maxBatch) {sender : SenderId} {frame : Frame}
    {outbox : Outbox} (hpost : outlet.posts[sender]? = some ⟨frame, .waiting⟩)
    (hframes : outbox.frames = outlet.outbox.frames ++ [frame])
    (hterms : outlet.outbox.SameTerms outbox) (hfits : outbox.Fits)
    (hopen : outlet.outbox.receiving = true ∧ outlet.outbox.stopped = false) :
    { outlet with
      outbox
      posts := outlet.posts.set sender ⟨frame, .sent⟩
      entered := outlet.entered ++ [(sender, frame)] }.Sound capacity maxBatch where
  entered_iff other frame' := by
    rw [sent_set hpost, ← hsound.entered_iff]
    simp
  entered_once := by
    rw [List.map_append]
    refine List.nodup_append.mpr ⟨hsound.entered_once, by simp, ?_⟩
    -- A sender that has entered before is not one that waits.
    rintro other hmem last hlast rfl
    obtain rfl : other = sender := List.mem_singleton.mp hlast
    obtain ⟨⟨_, frame'⟩, hentered, rfl⟩ := List.mem_map.mp hmem
    rw [hsound.entered_iff, hpost] at hentered
    simp at hentered
  capacity_eq := hterms.capacity.trans hsound.capacity_eq
  fits := hfits
  unbegun := hsound.unbegun
  logged := by
    have hstopped (hbefore : outlet.outbox.stopped = true) : outbox.stopped = true :=
      hterms.stopped.trans hbefore
    have hgoing (hclosing : outlet.writerOrIdle = .closing) : False := by
      have hended := hsound.stopped_of_closing (hasSenders_of_waiting hpost) hclosing
      rw [hopen.2] at hended
      contradiction
    have hgrow := hsound.logged.grow hframes hterms.receiving hstopped fun _ => ⟨hopen.1, hgoing⟩
    simp only [Outlet.frames, List.map_append, List.map_singleton]
    exact hgrow
  ends_last := hsound.ends_last
  closing hclosing := .inl (hterms.stopped.trans
    (hsound.stopped_of_closing (hasSenders_of_waiting hpost) hclosing))

theorem Sound.settle (hsound : outlet.Sound capacity maxBatch) {sender : SenderId} {frame : Frame}
    {attempt : Outbox.Sent × Outbox} (hpost : outlet.posts[sender]? = some ⟨frame, .waiting⟩)
    (hadds : Outbox.Adds outlet.outbox.frames frame attempt)
    (hterms : outlet.outbox.SameTerms attempt.2) (hfits : attempt.2.Fits)
    (hopen : attempt.1 = .done →
      outlet.outbox.receiving = true ∧ outlet.outbox.stopped = false) :
    (outlet.settle sender frame attempt).Sound capacity maxBatch := by
  obtain ⟨sent, outbox⟩ := attempt
  have hstopped (hbefore : outlet.outbox.stopped = true) : outbox.stopped = true :=
    hterms.stopped.trans hbefore
  cases sent with
  | done => exact hsound.enter hpost hadds hterms hfits (hopen rfl)
  | waiting =>
      have hqueue := hsound.setOutbox hadds hterms.capacity hterms.receiving hstopped hfits
      exact hqueue.setStanding hpost nofun
  | failed reason =>
      have hqueue := hsound.setOutbox hadds hterms.capacity hterms.receiving hstopped hfits
      exact hqueue.setStanding hpost nofun

theorem adds_sentAtOnce (outbox : Outbox) (frame : Frame) :
    Outbox.Adds outbox.frames frame (sentAtOnce (outbox.trySend frame)) := by
  have hframes := outbox.frames_trySend frame
  generalize outbox.trySend frame = attempt at hframes
  obtain ⟨result, after⟩ := attempt
  cases result with
  | ok => exact hframes
  | error reason => exact hframes

theorem snd_sentAtOnce (attempt : Except SessionError Unit × Outbox) :
    (sentAtOnce attempt).2 = attempt.2 := by
  obtain ⟨result, outbox⟩ := attempt
  cases result <;> rfl

theorem ok_of_sentAtOnce {attempt : Except SessionError Unit × Outbox}
    (hdone : (sentAtOnce attempt).1 = .done) : attempt.1 = .ok () := by
  obtain ⟨result, outbox⟩ := attempt
  cases result with
  | ok => rfl
  | error reason => contradiction

theorem Sound.setHandles (hsound : outlet.Sound capacity maxBatch) {handles : Nat}
    (hheld : handles ≠ 0 → outlet.handles ≠ 0) :
    { outlet with handles }.Sound capacity maxBatch where
  __ := hsound
  closing hclosing := by
    refine (hsound.closing hclosing).imp_right fun hnobody => ?_
    simp only [hasSenders, Bool.or_eq_false_iff, decide_eq_false_iff_not] at hnobody ⊢
    exact ⟨fun hpos => hnobody.1 (Nat.pos_of_ne_zero (hheld (Nat.ne_of_gt hpos))), hnobody.2⟩

theorem Sound.startWriter (hsound : outlet.Sound capacity maxBatch) (hnone : outlet.writer = none) :
    { outlet with
      writer := some (Writer.start maxBatch outlet.outbox).1
      outbox := (Writer.start maxBatch outlet.outbox).2 }.Sound capacity maxBatch := by
  have hlogged := hsound.logged
  rw [writerOrIdle, hnone] at hlogged
  have hnothing := hsound.unbegun hnone
  have hlast (writer : Writer) : Writer.EndsLast writer outlet.stream.calls := by
    rw [hnothing]
    exact Writer.endsLast_nil writer
  unfold Writer.start
  split
  · exact { hsound with
      unbegun := nofun
      logged := hlogged
      ends_last := hlast _
      closing := nofun }
  · exact { hsound with
      fits := Outbox.fits_endReceiving _
      unbegun := nofun
      logged := .unable rfl hnothing
      ends_last := hlast _
      closing := nofun }

theorem Sound.turn (hsound : outlet.Sound capacity maxBatch) (sink : Sink σ) {writer : Writer}
    (hwriter : outlet.writer = some writer) :
    let work := Writer.poll sink.recorded maxBatch outlet.hasSenders
      ⟨writer, outlet.outbox, outlet.stream⟩
    { outlet with writer := some work.writer, outbox := work.outbox, stream := work.stream }.Sound
      capacity maxBatch := by
  intro work
  have hlogged := hsound.logged
  have hlast := hsound.ends_last
  have hclosing := hsound.closing
  rw [writerOrIdle, hwriter] at hlogged hlast hclosing
  have houtbox : work.outbox.capacity = max capacity 1 ∧ work.outbox.Fits := by
    refine Writer.outbox_poll (P := fun outbox => outbox.capacity = max capacity 1 ∧ outbox.Fits)
      sink.recorded ?_ ?_ _ _ _ ⟨hsound.capacity_eq, hsound.fits⟩
    · rintro outbox limit ⟨hcapacity, hfits⟩
      exact ⟨(outbox.sameTerms_takeUpTo limit).capacity.trans hcapacity, hfits.takeUpTo limit⟩
    · rintro outbox ⟨hcapacity, -⟩
      exact ⟨hcapacity, Outbox.fits_endReceiving outbox⟩
  exact { hsound with
    capacity_eq := houtbox.1
    fits := houtbox.2
    unbegun := nofun
    logged := Writer.logged_poll sink _ _ hlogged
    ends_last := Writer.endsLast_poll sink _ _ _ hlast
    closing := Writer.closing_poll sink.recorded _ hclosing }

theorem Sound.move (hsound : outlet.Sound capacity maxBatch) (sink : Sink σ) (move : Move σ) :
    (outlet.move sink maxBatch move).Sound capacity maxBatch := by
  have hnew (frame : Frame) :
      (outlet.post frame).posts[outlet.posts.length]? = some ⟨frame, .waiting⟩ := by
    simp [Outlet.post]
  cases move with
  | send frame =>
      unfold Outlet.move
      dsimp only
      split
      · exact hsound
      · rename_i hheld
        exact (hsound.post hheld frame).settle (hnew frame) (Outbox.adds_send _ _ _)
          (Outbox.sameTerms_send _ _ _) (hsound.fits.send _ _) Outbox.isOpen_of_send
  | trySend frame =>
      unfold Outlet.move
      dsimp only
      split
      · exact hsound
      · rename_i hheld
        refine (hsound.post hheld frame).settle (hnew frame) (adds_sentAtOnce _ _) ?_ ?_
          fun hdone => ?_
        · rw [snd_sentAtOnce]
          exact Outbox.sameTerms_trySend _ _
        · rw [snd_sentAtOnce]
          exact hsound.fits.trySend frame
        · exact Outbox.isOpen_of_trySend (ok_of_sentAtOnce hdone)
  | look sender =>
      unfold Outlet.move
      dsimp only
      split
      · rename_i frame hpost
        exact hsound.settle hpost (Outbox.adds_resume _ _ _)
          (Outbox.sameTerms_resume _ _ _) (hsound.fits.resume _ _) Outbox.isOpen_of_resume
      · exact hsound
  | giveUp sender =>
      unfold Outlet.move
      dsimp only
      split
      · rename_i frame hpost
        have hterms := outlet.outbox.sameTerms_leave sender
        have hqueue := hsound.setOutbox (outlet.outbox.frames_leave sender) hterms.capacity
          hterms.receiving hterms.stopped.trans (hsound.fits.leave sender)
        exact hqueue.setStanding hpost nofun
      · exact hsound
  | addHandle =>
      unfold Outlet.move
      dsimp only
      split
      · exact hsound
      · rename_i hheld
        exact hsound.setHandles fun _ => hheld
  | dropHandle => exact hsound.setHandles (by omega)
  | stop => exact hsound.setOutbox rfl rfl rfl (fun _ => rfl) hsound.fits
  | startWriter =>
      unfold Outlet.move
      dsimp only
      split
      · rename_i hnone
        exact hsound.startWriter hnone
      · exact hsound
  | turn =>
      unfold Outlet.move
      dsimp only
      split
      · exact hsound
      · rename_i writer hwriter
        exact hsound.turn sink hwriter
  | stir change => exact { hsound with }

theorem Sound.follow (hsound : outlet.Sound capacity maxBatch) (sink : Sink σ)
    (moves : List (Move σ)) : (outlet.follow sink maxBatch moves).Sound capacity maxBatch := by
  induction moves generalizing outlet with
  | nil => exact hsound
  | cons move moves ih => exact ih (hsound.move sink move)

theorem writerOrIdle_eq_ended_iff {result : Except SessionError Unit} :
    outlet.writerOrIdle = .ended result ↔ outlet.writer = some (.ended result) := by
  unfold writerOrIdle
  cases outlet.writer with
  | none => simp
  | some writer => simp

theorem move_of_hasEnded {writer : Writer} (hwriter : outlet.writer = some writer)
    (hended : writer.hasEnded = true) (sink : Sink σ) (move : Move σ) :
    (outlet.move sink maxBatch move).writer = some writer ∧
      (outlet.move sink maxBatch move).stream.calls = outlet.stream.calls := by
  cases move with
  | turn =>
      -- The writer is polled again, and does nothing.
      unfold Outlet.move
      simp only [hwriter]
      cases writer with
      | ended result => exact ⟨rfl, rfl⟩
      | unable => exact ⟨rfl, rfl⟩
      | idle => contradiction
      | writing left isBlocked => contradiction
      | closing => contradiction
  | startWriter =>
      unfold Outlet.move
      simp only [hwriter, and_self]
  | _ =>
      unfold Outlet.move
      dsimp only
      first
        | exact ⟨hwriter, rfl⟩
        | split <;> exact ⟨hwriter, rfl⟩

theorem follow_of_hasEnded {writer : Writer} (hwriter : outlet.writer = some writer)
    (hended : writer.hasEnded = true) (sink : Sink σ) (moves : List (Move σ)) :
    (outlet.follow sink maxBatch moves).writer = some writer ∧
      (outlet.follow sink maxBatch moves).stream.calls = outlet.stream.calls := by
  induction moves generalizing outlet with
  | nil => exact ⟨hwriter, rfl⟩
  | cons move moves ih =>
      obtain ⟨hnext, hsame⟩ := @move_of_hasEnded σ maxBatch outlet _ hwriter hended sink move
      obtain ⟨hlast, hcalls⟩ := ih hnext
      exact ⟨hlast, hcalls.trans hsame⟩

/-- The frames that have been sent, and no others, are put into the stream in the order in which
they have entered the queue, and the writer ends as it must. -/
structure WritesInOrder (sink : Sink σ) (capacity maxBatch : Nat) (outlet : Outlet σ) : Prop where
  /-- Just the frames whose sending has succeeded have entered, each once. -/
  entered_iff (sender : SenderId) (frame : Frame) :
    (sender, frame) ∈ outlet.entered ↔ outlet.posts[sender]? = some ⟨frame, .sent⟩
  entered_once : (outlet.entered.map Prod.fst).Nodup
  encoded : ∀ frame ∈ outlet.frames, frame.packet.encode = .ok frame.bytes
  taken_prefix : outlet.stream.taken <+: outlet.frames.flatMap Frame.bytes
  queue_short : outlet.outbox.frames.length ≤ max 1 capacity
  /-- Each write offers what is left of a batch. -/
  in_batches : StreamCall.InBatches (max 1 maxBatch) outlet.frames [] outlet.stream.calls
  /-- The writer ends with an error just if a call fails, and without one just if an attempt
  to end the stream is over. -/
  ended_iff (result : Except SessionError Unit) : outlet.writer = some (.ended result) ↔
    ∃ call ∈ outlet.stream.calls, call.ending? = some result
  /-- No call follows the one with which the writer ends. -/
  ended_last (front back : List StreamCall) (call : StreamCall) :
    outlet.stream.calls = front ++ call :: back → call.ending? ≠ none → back = []
  /-- A stream that has been asked to end is asked for nothing else. -/
  shutdown_last (front back : List StreamCall) (result : Completion) :
    outlet.stream.calls = front ++ .shutdown result :: back →
      ∀ call ∈ back, call.isShutdown = true
  ended_for_good (result : Except SessionError Unit) :
    outlet.writer = some (.ended result) → ∀ moves,
      (outlet.follow sink maxBatch moves).writer = some (.ended result) ∧
        (outlet.follow sink maxBatch moves).stream.calls = outlet.stream.calls
  /-- Unless the shutdown has been signalled, a writer that ends without an error has written all
  frames. -/
  complete : outlet.writer = some (.ended (.ok ())) → outlet.outbox.stopped = false →
    outlet.stream.taken = outlet.frames.flatMap Frame.bytes

/-- Whatever the stream does, and in whatever order frames are sent, senders give up, handles are
dropped, the shutdown is signalled and the writer goes on, the frames that have been sent reach the
stream in their order. -/
theorem follow_writesInOrder (sink : Sink σ) (capacity maxBatch : Nat) (stream : σ)
    (moves : List (Move σ)) :
    WritesInOrder sink capacity maxBatch
      ((start capacity stream).follow sink maxBatch moves) := by
  have hsound := (sound_start capacity maxBatch stream).follow sink moves
  generalize (start capacity stream).follow sink maxBatch moves = outlet at hsound
  exact {
    entered_iff := hsound.entered_iff
    entered_once := hsound.entered_once
    encoded := fun frame _ => Packet.encode_eq_ok_iff.mpr ⟨frame.fits, rfl⟩
    taken_prefix := hsound.logged.taken_prefix
    queue_short := by
      have hshort := hsound.fits.length_frames
      rwa [hsound.capacity_eq, Nat.max_comm] at hshort
    in_batches := by
      have hmost : max 1 maxBatch = maxBatch - 1 + 1 := by omega
      rw [hmost]
      exact hsound.logged.in_batches
    ended_iff := by
      intro result
      rw [← writerOrIdle_eq_ended_iff]
      exact hsound.logged.ended_iff result
    ended_last := fun front back call hcalls hends => hsound.logged.last_of_ending hcalls hends
    shutdown_last := by
      intro front back result hcalls call hmem
      have hordered := hsound.ends_last.ordered
      rw [hcalls] at hordered
      have hbehind := (List.pairwise_append.mp hordered).2.1
      exact (List.pairwise_cons.mp hbehind).1 call hmem rfl
    ended_for_good := fun result hended moves => follow_of_hasEnded hended rfl sink moves
    complete := by
      intro hended hgoing
      have hlogged := hsound.logged
      rw [writerOrIdle_eq_ended_iff.mpr hended] at hlogged
      cases hlogged with
      | ended hgone hconcluded hall => exact hall rfl hgoing }

/-- A stream that takes three bytes at first is offered the fourth, flushed and, when nobody is left
who can send, ended. -/
example :
    let outlet := (start 1 ({ script := [.takeUpTo 3] } : ScriptedStream)).follow
      ScriptedStream.sink 2 [.startWriter, .send (.empty .heartbeat), .turn, .dropHandle, .turn]
    outlet.stream.calls.length = 4 ∧ outlet.stream.taken = [3, 0, 0, 0] := by
  decide +kernel

end Outlet

end RoutedSession
