import RoutedSession.Proofs.Outbox.Fifo

namespace RoutedSession

namespace Writer

variable {σ : Type} {work : Work σ}

theorem poll_of_hasEnded (sink : Sink σ) (maxBatch : Nat) (hasSenders : Bool)
    (hended : work.writer.hasEnded = true) : poll sink maxBatch hasSenders work = work := by
  obtain ⟨writer, outbox, stream⟩ := work
  cases writer with
  | ended result => rfl
  | unable => rfl
  | idle => cases hended
  | writing left isBlocked => cases hended
  | closing => cases hended

theorem poll_of_stopped (sink : Sink σ) (maxBatch : Nat) (hasSenders : Bool)
    (hstopped : work.outbox.stopped = true) (hgoing : work.writer.hasEnded = false) :
    poll sink maxBatch hasSenders work = stop sink work := by
  obtain ⟨writer, outbox, stream⟩ := work
  -- Where it waits for frames, and in the middle of a batch, it looks for the shutdown first.
  cases writer with
  | ended result => cases hgoing
  | unable => cases hgoing
  | idle => exact if_pos hstopped
  | writing left isBlocked => exact if_pos hstopped
  | closing => rfl

theorem isReady_of_stopped {outbox : Outbox} {writer : Writer} (hstopped : outbox.stopped = true)
    (hgoing : writer.hasEnded = false) (hasSenders : Bool) {goesOn : Stall → Bool}
    (hstream : writer = .closing → goesOn .shutdown = true) :
    writer.isReady outbox hasSenders goesOn = true := by
  cases writer with
  | ended result => cases hgoing
  | unable => cases hgoing
  | idle => simp [isReady, hstopped]
  | writing left isBlocked => simp [isReady, hstopped]
  | closing => exact hstream rfl

end Writer

namespace Outlet

variable {σ : Type} {sink : Sink σ} {maxBatch : Nat} {outlet : Outlet σ}

/-- What a move makes of an outlet whose shutdown has been signalled. -/
inductive AfterStop (sink : Sink σ) (maxBatch : Nat) (outlet : Outlet σ) :
    Move σ → Outlet σ → Prop where
  /-- The queue, the writer, its calls and those who send stay as they are. -/
  | aside {move : Move σ} (stream : σ) (handles : Nat)
      (hidle : ∀ writer, move = .turn → outlet.writer = some writer → writer.hasEnded = true)
      (hunseen : ∀ sender frame, move = .look sender →
        outlet.posts[sender]? ≠ some ⟨frame, .waiting⟩) :
      AfterStop sink maxBatch outlet move
        { outlet with stream := { outlet.stream with stream }, handles }
  | sendRefused (frame : Frame) (hheld : 0 < outlet.handles) :
      AfterStop sink maxBatch outlet (.send frame)
        { outlet with posts := outlet.posts ++ [⟨frame, .failed .closed⟩] }
  | trySendRefused (frame : Frame) (hheld : 0 < outlet.handles) :
      AfterStop sink maxBatch outlet (.trySend frame)
        { outlet with posts := outlet.posts ++ [⟨frame, .failed .closed⟩] }
  | failed {sender : SenderId} {frame : Frame}
      (hpost : outlet.posts[sender]? = some ⟨frame, .waiting⟩) :
      AfterStop sink maxBatch outlet (.look sender)
        { outlet with
          outbox := outlet.outbox.leave sender
          posts := outlet.posts.set sender ⟨frame, .failed .closed⟩ }
  | gaveUp {sender : SenderId} {frame : Frame}
      (hpost : outlet.posts[sender]? = some ⟨frame, .waiting⟩) :
      AfterStop sink maxBatch outlet (.giveUp sender)
        { outlet with
          outbox := outlet.outbox.leave sender
          posts := outlet.posts.set sender ⟨frame, .givenUp⟩ }
  | begun (hnone : outlet.writer = none) :
      AfterStop sink maxBatch outlet .startWriter { outlet with writer := some .idle }
  | unable (hnone : outlet.writer = none) (hlarge : Writer.maxReservable < maxBatch) :
      AfterStop sink maxBatch outlet .startWriter
        { outlet with writer := some .unable, outbox := outlet.outbox.endReceiving }
  | closes {writer : Writer} {after : σ} (hwriter : outlet.writer = some writer)
      (hgoing : writer.hasEnded = false)
      (hblocked : sink.shutdown outlet.stream.stream = (.blocked, after)) :
      AfterStop sink maxBatch outlet .turn
        { outlet with
          writer := some .closing
          stream := outlet.stream.note (.shutdown .blocked) after }
  | ended {writer : Writer} {result : Completion} {after : σ}
      (hwriter : outlet.writer = some writer) (hgoing : writer.hasEnded = false)
      (hover : result ≠ .blocked)
      (hended : sink.shutdown outlet.stream.stream = (result, after)) :
      AfterStop sink maxBatch outlet .turn
        { outlet with
          writer := some (.ended (.ok ()))
          outbox := outlet.outbox.endReceiving
          stream := outlet.stream.note (.shutdown result) after }

theorem settle_refused (outlet : Outlet σ) (frame : Frame) (reason : SessionError) :
    (outlet.post frame).settle outlet.posts.length frame (.failed reason, outlet.outbox) =
      { outlet with posts := outlet.posts ++ [⟨frame, .failed reason⟩] } := by
  simp [settle, post, Standing.ofSent]

theorem afterStop_send (hstopped : outlet.outbox.stopped = true) (frame : Frame) :
    AfterStop sink maxBatch outlet (.send frame) (outlet.move sink maxBatch (.send frame)) := by
  unfold move
  dsimp only
  split
  · exact .aside outlet.stream.stream outlet.handles nofun nofun
  · rename_i hheld
    rw [Outbox.send_of_stopped hstopped, settle_refused]
    exact .sendRefused frame (Nat.pos_of_ne_zero hheld)

theorem afterStop_trySend (hstopped : outlet.outbox.stopped = true) (frame : Frame) :
    AfterStop sink maxBatch outlet (.trySend frame)
      (outlet.move sink maxBatch (.trySend frame)) := by
  unfold move
  dsimp only
  split
  · exact .aside outlet.stream.stream outlet.handles nofun nofun
  · rename_i hheld
    rw [Outbox.trySend_of_stopped hstopped, sentAtOnce, settle_refused]
    exact .trySendRefused frame (Nat.pos_of_ne_zero hheld)

theorem posts_send (hstopped : outlet.outbox.stopped = true) (frame : Frame)
    (hheld : 0 < outlet.handles) :
    (outlet.move sink maxBatch (.send frame)).posts =
      outlet.posts ++ [⟨frame, .failed .closed⟩] := by
  unfold move
  dsimp only
  rw [if_neg (Nat.ne_of_gt hheld), Outbox.send_of_stopped hstopped, settle_refused]

theorem posts_trySend (hstopped : outlet.outbox.stopped = true) (frame : Frame)
    (hheld : 0 < outlet.handles) :
    (outlet.move sink maxBatch (.trySend frame)).posts =
      outlet.posts ++ [⟨frame, .failed .closed⟩] := by
  unfold move
  dsimp only
  rw [if_neg (Nat.ne_of_gt hheld), Outbox.trySend_of_stopped hstopped, sentAtOnce, settle_refused]

theorem afterStop_startWriter :
    AfterStop sink maxBatch outlet .startWriter (outlet.move sink maxBatch .startWriter) := by
  unfold move
  dsimp only
  split
  · rename_i hnone
    unfold Writer.start
    split
    · exact .begun hnone
    · rename_i hlarge
      exact .unable hnone (Nat.lt_of_not_le hlarge)
  · exact .aside outlet.stream.stream outlet.handles nofun nofun

theorem afterStop_turn (hstopped : outlet.outbox.stopped = true) :
    AfterStop sink maxBatch outlet .turn (outlet.move sink maxBatch .turn) := by
  unfold move
  dsimp only
  split
  · rename_i hnone
    refine .aside outlet.stream.stream outlet.handles ?_ nofun
    intro writer _ hwriter
    rw [hnone] at hwriter
    cases hwriter
  · rename_i writer hwriter
    cases hended : writer.hasEnded with
    | true =>
        have hsame : AfterStop sink maxBatch outlet .turn outlet := by
          refine .aside outlet.stream.stream outlet.handles ?_ nofun
          intro other _ hother
          rwa [← Option.some.inj (hwriter.symm.trans hother)]
        rw [Writer.poll_of_hasEnded _ _ _ hended]
        simpa only [← hwriter] using hsame
    | false =>
        rw [Writer.poll_of_stopped _ _ _ hstopped hended]
        rcases Writer.stop_cases_of_recorded sink ⟨writer, outlet.outbox, outlet.stream⟩ with
          ⟨after, hblocked, hstop⟩ | ⟨result, after, hover, hresult, hstop⟩
        · rw [hstop]
          exact .closes hwriter hended hblocked
        · rw [hstop]
          exact .ended hwriter hended hover hresult

theorem afterStop (hstopped : outlet.outbox.stopped = true) (move : Move σ) :
    AfterStop sink maxBatch outlet move (outlet.move sink maxBatch move) := by
  cases move with
  | send frame => exact afterStop_send hstopped frame
  | trySend frame => exact afterStop_trySend hstopped frame
  | startWriter => exact afterStop_startWriter
  | turn => exact afterStop_turn hstopped
  | look sender =>
      unfold Outlet.move
      dsimp only
      split
      · rename_i frame hpost
        rw [Outbox.resume_of_stopped hstopped]
        exact .failed hpost
      · rename_i hother
        exact .aside outlet.stream.stream outlet.handles nofun fun _ frame hsame hpost => by
          cases hsame
          exact hother frame hpost
  | giveUp sender =>
      unfold Outlet.move
      dsimp only
      split
      · rename_i frame hpost
        exact .gaveUp hpost
      · exact .aside outlet.stream.stream outlet.handles nofun nofun
  | addHandle =>
      unfold Outlet.move
      dsimp only
      split
      · exact .aside outlet.stream.stream outlet.handles nofun nofun
      · exact .aside outlet.stream.stream _ nofun nofun
  | dropHandle => exact .aside outlet.stream.stream _ nofun nofun
  | stop =>
      have hsame : outlet.outbox.stop = outlet.outbox := by
        rw [Outbox.stop, ← hstopped]
      unfold Outlet.move
      rw [hsame]
      exact .aside outlet.stream.stream outlet.handles nofun nofun
  | stir change => exact .aside (change outlet.stream.stream) outlet.handles nofun nofun

theorem follow_append_singleton (outlet : Outlet σ) (moves : List (Move σ)) (move : Move σ) :
    outlet.follow sink maxBatch (moves ++ [move]) =
      (outlet.follow sink maxBatch moves).move sink maxBatch move := by
  rw [follow, List.foldl_append]
  rfl

/-- What has become of a writer and its stream since the shutdown was signalled. -/
inductive Fate (maxBatch : Nat) (first after : Outlet σ) : Prop where
  | asBefore (hwriter : after.writer = first.writer)
      (hcalls : after.stream.calls = first.stream.calls)
  /-- It has been started since, and has not had a turn. -/
  | begun (hnone : first.writer = none) (hwriter : after.writer = some .idle)
      (hcalls : after.stream.calls = first.stream.calls)
  /-- It was to be started, and had no room for its batches. -/
  | unable (hnone : first.writer = none) (hlarge : Writer.maxReservable < maxBatch)
      (hwriter : after.writer = some .unable) (hcalls : after.stream.calls = first.stream.calls)
  /-- It has tried to end the stream, which has blocked each time. -/
  | closing (hgoing : ∀ writer, first.writer = some writer → writer.hasEnded = false)
      (hwriter : after.writer = some .closing) (attempts : Nat)
      (hcalls : after.stream.calls =
        first.stream.calls ++ List.replicate (attempts + 1) (.shutdown .blocked))
  /-- It has ended with the first attempt to end the stream that was over, however that came out. -/
  | ended (hgoing : ∀ writer, first.writer = some writer → writer.hasEnded = false)
      (hwriter : after.writer = some (.ended (.ok ()))) (attempts : Nat) {result : Completion}
      (hover : result ≠ .blocked)
      (hcalls : after.stream.calls =
        first.stream.calls ++ List.replicate attempts (.shutdown .blocked) ++ [.shutdown result])

theorem Fate.calls_of_running {first after : Outlet σ} (hfate : Fate maxBatch first after)
    {writer : Writer} (hwriter : after.writer = some writer) (hgoing : writer.hasEnded = false) :
    (∃ attempts, after.stream.calls =
        first.stream.calls ++ List.replicate attempts (.shutdown .blocked)) ∧
      ∀ before, first.writer = some before → before.hasEnded = false := by
  cases hfate with
  | asBefore hsame hcalls =>
      refine ⟨⟨0, hcalls.trans (List.append_nil _).symm⟩, fun before hbefore => ?_⟩
      rw [hsame, hbefore] at hwriter
      rwa [Option.some.inj hwriter]
  | begun hnone hidle hcalls =>
      refine ⟨⟨0, hcalls.trans (List.append_nil _).symm⟩, fun before hbefore => ?_⟩
      rw [hnone] at hbefore
      cases hbefore
  | unable hnone hlarge hunable hcalls =>
      rw [hunable] at hwriter
      obtain rfl := Option.some.inj hwriter
      cases hgoing
  | closing hfirst hclosing attempts hcalls => exact ⟨⟨attempts + 1, hcalls⟩, hfirst⟩
  | ended _ hended =>
      rw [hended] at hwriter
      obtain rfl := Option.some.inj hwriter
      cases hgoing

theorem Fate.of_same {first middle after : Outlet σ} (hfate : Fate maxBatch first middle)
    (hwriter : after.writer = middle.writer) (hcalls : after.stream.calls = middle.stream.calls) :
    Fate maxBatch first after := by
  cases hfate with
  | asBefore hsame hnone => exact .asBefore (hwriter.trans hsame) (hcalls.trans hnone)
  | begun hfirst hidle hnone => exact .begun hfirst (hwriter.trans hidle) (hcalls.trans hnone)
  | unable hfirst hlarge hunable hnone =>
      exact .unable hfirst hlarge (hwriter.trans hunable) (hcalls.trans hnone)
  | closing hgoing hclosing attempts hlast =>
      exact .closing hgoing (hwriter.trans hclosing) attempts (hcalls.trans hlast)
  | ended hgoing hended attempts hover hlast =>
      exact .ended hgoing (hwriter.trans hended) attempts hover (hcalls.trans hlast)

theorem Fate.of_unbegun {first after : Outlet σ} (hfate : Fate maxBatch first after)
    (hnone : after.writer = none) :
    first.writer = none ∧ after.stream.calls = first.stream.calls := by
  cases hfate with
  | asBefore hsame hcalls => exact ⟨hsame.symm.trans hnone, hcalls⟩
  | begun _ hidle => cases hidle.symm.trans hnone
  | unable _ _ hunable => cases hunable.symm.trans hnone
  | closing _ hclosing => cases hclosing.symm.trans hnone
  | ended _ hended => cases hended.symm.trans hnone

/-- What is known of an outlet since its shutdown was signalled. -/
structure Halted (maxBatch : Nat) (first after : Outlet σ) : Prop where
  stopped : after.outbox.stopped = true
  entered : after.entered = first.entered
  frames : after.outbox.frames <:+ first.outbox.frames
  fate : Fate maxBatch first after

theorem Halted.move {first after : Outlet σ} (hhalted : Halted maxBatch first after)
    (move : Move σ) : Halted maxBatch first (after.move sink maxBatch move) := by
  obtain ⟨hstopped, hentered, hframes, hfate⟩ := hhalted
  have hmove := @afterStop σ sink maxBatch after hstopped move
  generalize after.move sink maxBatch move = last at hmove
  cases hmove with
  | aside stream handles => exact ⟨hstopped, hentered, hframes, hfate.of_same rfl rfl⟩
  | sendRefused frame => exact ⟨hstopped, hentered, hframes, hfate.of_same rfl rfl⟩
  | trySendRefused frame => exact ⟨hstopped, hentered, hframes, hfate.of_same rfl rfl⟩
  | @failed sender frame hpost =>
      refine ⟨?_, hentered, ?_, hfate.of_same rfl rfl⟩
      · exact (after.outbox.sameTerms_leave sender).stopped.trans hstopped
      · rwa [Outbox.frames_leave]
  | @gaveUp sender frame hpost =>
      refine ⟨?_, hentered, ?_, hfate.of_same rfl rfl⟩
      · exact (after.outbox.sameTerms_leave sender).stopped.trans hstopped
      · rwa [Outbox.frames_leave]
  | begun hnone =>
      obtain ⟨hfirst, hcalls⟩ := hfate.of_unbegun hnone
      exact ⟨hstopped, hentered, hframes, .begun hfirst rfl hcalls⟩
  | unable hnone hlarge =>
      obtain ⟨hfirst, hcalls⟩ := hfate.of_unbegun hnone
      exact ⟨hstopped, hentered, List.nil_suffix, .unable hfirst hlarge rfl hcalls⟩
  | closes hwriter hgoing hblocked =>
      obtain ⟨⟨attempts, hcalls⟩, hfirst⟩ := hfate.calls_of_running hwriter hgoing
      refine ⟨hstopped, hentered, hframes, .closing hfirst rfl attempts ?_⟩
      rw [List.replicate_succ', ← List.append_assoc, ← hcalls]
      rfl
  | ended hwriter hgoing hover hended =>
      obtain ⟨⟨attempts, hcalls⟩, hfirst⟩ := hfate.calls_of_running hwriter hgoing
      refine ⟨hstopped, hentered, List.nil_suffix, .ended hfirst rfl attempts hover ?_⟩
      rw [← hcalls]
      rfl

theorem follow_append (outlet : Outlet σ) (moves more : List (Move σ)) :
    outlet.follow sink maxBatch (moves ++ more) =
      (outlet.follow sink maxBatch moves).follow sink maxBatch more :=
  List.foldl_append

theorem halted_follow (hstopped : outlet.outbox.stopped = true) (moves : List (Move σ)) :
    Halted maxBatch outlet (outlet.follow sink maxBatch moves) := by
  induction moves using List.reverseRecOn with
  | nil => exact ⟨hstopped, rfl, List.suffix_refl _, .asBefore rfl rfl⟩
  | append_singleton moves move ih =>
      rw [follow_append_singleton]
      exact ih.move move

/-- What a move makes of an attempt to send. -/
inductive PostMoved (sender : SenderId) (post : Post) : Move σ → Post → Prop where
  | aside {move : Move σ} (hunseen : move = .look sender → post.standing ≠ .waiting) :
      PostMoved sender post move post
  | failed : PostMoved sender post (.look sender) ⟨post.frame, .failed .closed⟩
  | gaveUp (hwaits : post.standing = .waiting) :
      PostMoved sender post (.giveUp sender) ⟨post.frame, .givenUp⟩

theorem AfterStop.exists_postMoved {move : Move σ} {after : Outlet σ}
    (hmove : AfterStop sink maxBatch outlet move after) {sender : SenderId} {post : Post}
    (hpost : outlet.posts[sender]? = some post) :
    ∃ next, after.posts[sender]? = some next ∧ PostMoved sender post move next := by
  obtain ⟨hsender, -⟩ := List.getElem?_eq_some_iff.mp hpost
  cases hmove with
  | aside stream handles hidle hunseen =>
      refine ⟨post, hpost, .aside fun hlook hwaits => ?_⟩
      apply hunseen sender post.frame hlook
      rw [hpost, ← hwaits]
  | sendRefused frame =>
      exact ⟨post, (List.getElem?_append_left hsender).trans hpost, .aside nofun⟩
  | trySendRefused frame =>
      exact ⟨post, (List.getElem?_append_left hsender).trans hpost, .aside nofun⟩
  | @failed other frame hfound =>
      by_cases hsame : other = sender
      · subst hsame
        obtain rfl := Option.some.inj (hpost.symm.trans hfound)
        exact ⟨_, List.getElem?_set_self hsender, .failed⟩
      · refine ⟨post, (List.getElem?_set_ne hsame).trans hpost, .aside fun hlook => ?_⟩
        injection hlook with hother
        exact absurd hother hsame
  | @gaveUp other frame hfound =>
      by_cases hsame : other = sender
      · subst hsame
        obtain rfl := Option.some.inj (hpost.symm.trans hfound)
        exact ⟨_, List.getElem?_set_self hsender, .gaveUp rfl⟩
      · exact ⟨post, (List.getElem?_set_ne hsame).trans hpost, .aside nofun⟩
  | begun => exact ⟨post, hpost, .aside nofun⟩
  | unable => exact ⟨post, hpost, .aside nofun⟩
  | closes => exact ⟨post, hpost, .aside nofun⟩
  | ended => exact ⟨post, hpost, .aside nofun⟩

theorem stopped_move (hstopped : outlet.outbox.stopped = true) (move : Move σ) :
    (outlet.move sink maxBatch move).outbox.stopped = true :=
  (halted_follow hstopped [move]).stopped

theorem failed_follow (hstopped : outlet.outbox.stopped = true) {sender : SenderId} {frame : Frame}
    (hpost : outlet.posts[sender]? = some ⟨frame, .failed .closed⟩) (moves : List (Move σ)) :
    (outlet.follow sink maxBatch moves).posts[sender]? = some ⟨frame, .failed .closed⟩ := by
  induction moves generalizing outlet with
  | nil => exact hpost
  | cons move moves ih =>
      have hmove : AfterStop sink maxBatch outlet move _ := afterStop hstopped move
      obtain ⟨next, hnext, hmoved⟩ := hmove.exists_postMoved hpost
      apply ih (stopped_move hstopped move)
      cases hmoved with
      | aside => exact hnext
      | failed => exact hnext
      | gaveUp hwaits => cases hwaits

theorem waiting_follow (hstopped : outlet.outbox.stopped = true) {sender : SenderId} {frame : Frame}
    (hpost : outlet.posts[sender]? = some ⟨frame, .waiting⟩) {moves : List (Move σ)}
    (hstays : .giveUp sender ∉ moves) (hlooks : .look sender ∈ moves) :
    (outlet.follow sink maxBatch moves).posts[sender]? = some ⟨frame, .failed .closed⟩ := by
  induction moves generalizing outlet with
  | nil => cases hlooks
  | cons move moves ih =>
      have hmove : AfterStop sink maxBatch outlet move _ := afterStop hstopped move
      have hafter : (outlet.move sink maxBatch move).outbox.stopped = true :=
        stopped_move hstopped move
      obtain ⟨next, hnext, hmoved⟩ := hmove.exists_postMoved hpost
      cases hmoved with
      | aside hunseen =>
          apply ih hafter hnext
          · exact fun hmem => hstays (List.mem_cons_of_mem _ hmem)
          · rcases List.mem_cons.mp hlooks with hnow | hlater
            · exact absurd rfl (hunseen hnow.symm)
            · exact hlater
      | failed => exact failed_follow hafter hnext moves
      | gaveUp => exact absurd List.mem_cons_self hstays

/-- What holds from the moment on at which the shutdown of an outlet is signalled. -/
structure StopsAtOnce (sink : Sink σ) (maxBatch : Nat) (first : Outlet σ) : Prop where
  /-- The stream gets no call any more but those to end it, and the writer makes them before it
  ends. -/
  fate : ∀ moves, Fate maxBatch first (first.follow sink maxBatch moves)
  takes_nothing : ∀ moves,
    (first.follow sink maxBatch moves).stream.taken = first.stream.taken
  /-- A writer that is running has something to do, unless its stream blocks when it is to end. -/
  ready : ∀ moves writer, (first.follow sink maxBatch moves).writer = some writer →
    writer.hasEnded = false → ∀ hasSenders goesOn,
      (writer = .closing → goesOn .shutdown = true) →
      writer.isReady (first.follow sink maxBatch moves).outbox hasSenders goesOn = true
  /-- A writer that is running tries to end the stream in its next turn, and ends in that turn
  unless the stream blocks. Then it tries again in the turn after that. -/
  ends_next : ∀ moves writer, (first.follow sink maxBatch moves).writer = some writer →
    writer.hasEnded = false →
      let attempt := (sink.shutdown (first.follow sink maxBatch moves).stream.stream).1
      let next := first.follow sink maxBatch (moves ++ [.turn])
      next.stream.calls = (first.follow sink maxBatch moves).stream.calls ++ [.shutdown attempt] ∧
        next.writer = some (if attempt = .blocked then .closing else .ended (.ok ()))
  /-- On a stream that never blocks when it is to end, at least from now on, a running writer ends
  in its next turn and has tried once more to end the stream. -/
  ends : ∀ moves writer, (first.follow sink maxBatch moves).writer = some writer →
    writer.hasEnded = false → ∀ more, .turn ∈ more →
      (∀ front, front <+: more →
        (sink.shutdown (first.follow sink maxBatch (moves ++ front)).stream.stream).1 ≠ .blocked) →
      (first.follow sink maxBatch (moves ++ more)).writer = some (.ended (.ok ())) ∧
        ∃ result, (first.follow sink maxBatch (moves ++ more)).stream.calls =
          (first.follow sink maxBatch moves).stream.calls ++ [.shutdown result]
  /-- A sender that waits has something to do, and fails when it looks again. -/
  waiting_fail : ∀ (sender : SenderId) frame, first.posts[sender]? = some ⟨frame, .waiting⟩ →
    ∀ moves, (first.follow sink maxBatch moves).outbox.canResume sender = true ∧
      (.giveUp sender ∉ moves → .look sender ∈ moves →
        (first.follow sink maxBatch moves).posts[sender]? = some ⟨frame, .failed .closed⟩)
  /-- Whoever begins to send fails at once, however many slots are free. -/
  sends_fail : ∀ moves frame, 0 < (first.follow sink maxBatch moves).handles →
    (first.follow sink maxBatch (moves ++ [.send frame])).posts =
        (first.follow sink maxBatch moves).posts ++ [⟨frame, .failed .closed⟩] ∧
      (first.follow sink maxBatch (moves ++ [.trySend frame])).posts =
        (first.follow sink maxBatch moves).posts ++ [⟨frame, .failed .closed⟩]
  /-- No frame enters the queue. -/
  enters_nothing : ∀ moves, (first.follow sink maxBatch moves).entered = first.entered ∧
    (first.follow sink maxBatch moves).outbox.frames <:+ first.outbox.frames

theorem taken_replicate_shutdown (attempts : Nat) :
    (List.replicate attempts (.shutdown .blocked)).flatMap StreamCall.taken = [] := by
  rw [List.flatMap_eq_nil_iff]
  intro call hmem
  rw [List.eq_of_mem_replicate hmem]
  rfl

theorem Fate.taken_eq {first after : Outlet σ} (hfate : Fate maxBatch first after) :
    after.stream.taken = first.stream.taken := by
  unfold Recorded.taken
  cases hfate with
  | asBefore hwriter hcalls => rw [hcalls]
  | begun hnone hwriter hcalls => rw [hcalls]
  | unable hnone hlarge hwriter hcalls => rw [hcalls]
  | closing hgoing hwriter attempts hcalls =>
      rw [hcalls, List.flatMap_append, taken_replicate_shutdown, List.append_nil]
  | ended hgoing hwriter attempts hover hcalls =>
      rw [hcalls, List.flatMap_append, List.flatMap_append, taken_replicate_shutdown,
        List.flatMap_singleton, List.append_nil]
      exact List.append_nil _

theorem follow_of_no_turn (hstopped : outlet.outbox.stopped = true) {writer : Writer}
    (hwriter : outlet.writer = some writer) {moves : List (Move σ)} (hnone : .turn ∉ moves) :
    (outlet.follow sink maxBatch moves).writer = some writer ∧
      (outlet.follow sink maxBatch moves).stream.calls = outlet.stream.calls := by
  induction moves generalizing outlet with
  | nil => exact ⟨hwriter, rfl⟩
  | cons move moves ih =>
      rw [List.mem_cons, not_or] at hnone
      obtain ⟨hfirst, hrest⟩ := hnone
      have hmove : AfterStop sink maxBatch outlet move _ := afterStop hstopped move
      have hsame : (outlet.move sink maxBatch move).writer = some writer ∧
          (outlet.move sink maxBatch move).stream.calls = outlet.stream.calls := by
        generalize outlet.move sink maxBatch move = after at hmove
        cases hmove with
        | begun hunbegun => cases hunbegun.symm.trans hwriter
        | unable hunbegun => cases hunbegun.symm.trans hwriter
        | closes => exact absurd rfl hfirst
        | ended => exact absurd rfl hfirst
        | _ => exact ⟨hwriter, rfl⟩
      obtain ⟨hlast, hcalls⟩ := ih (stopped_move hstopped move) hsame.1 hrest
      exact ⟨hlast, hcalls.trans hsame.2⟩

theorem turn_of_running (hstopped : outlet.outbox.stopped = true) {writer : Writer}
    (hwriter : outlet.writer = some writer) (hgoing : writer.hasEnded = false) :
    let attempt := (sink.shutdown outlet.stream.stream).1
    (outlet.move sink maxBatch .turn).stream.calls =
        outlet.stream.calls ++ [.shutdown attempt] ∧
      (outlet.move sink maxBatch .turn).writer =
        some (if attempt = .blocked then .closing else .ended (.ok ())) := by
  intro attempt
  have hmove : AfterStop sink maxBatch outlet .turn _ := afterStop hstopped .turn
  generalize outlet.move sink maxBatch .turn = after at hmove
  cases hmove with
  | aside stream handles hidle =>
      rw [hidle writer rfl hwriter] at hgoing
      contradiction
  | closes _ _ hblocked =>
      have hattempt : attempt = .blocked := congrArg Prod.fst hblocked
      rw [hattempt]
      exact ⟨rfl, rfl⟩
  | ended _ _ hover hended =>
      have hattempt : attempt = _ := congrArg Prod.fst hended
      rw [hattempt, if_neg hover]
      exact ⟨rfl, rfl⟩

/-- Whatever has happened before, whoever waits and whatever the writer is doing, the shutdown wins
when it is signalled. -/
theorem follow_stopsAtOnce (sink : Sink σ) (capacity maxBatch : Nat) (stream : σ)
    (before : List (Move σ)) :
    StopsAtOnce sink maxBatch
      ((start capacity stream).follow sink maxBatch (before ++ [.stop])) := by
  have hfirst : ((start capacity stream).follow sink maxBatch
      (before ++ [.stop])).outbox.stopped = true := by
    rw [follow_append_singleton]
    rfl
  generalize (start capacity stream).follow sink maxBatch (before ++ [.stop]) = first at hfirst
  have hhalted (moves : List (Move σ)) :
      Halted maxBatch first (first.follow sink maxBatch moves) := halted_follow hfirst moves
  constructor
  case fate => exact fun moves => (hhalted moves).fate
  case takes_nothing => exact fun moves => (hhalted moves).fate.taken_eq
  case ready =>
    intro moves writer _ hgoing hasSenders goesOn hstream
    exact Writer.isReady_of_stopped (hhalted moves).stopped hgoing hasSenders hstream
  case ends_next =>
    intro moves writer hwriter hgoing
    rw [follow_append_singleton]
    exact turn_of_running (hhalted moves).stopped hwriter hgoing
  case ends =>
    intro moves writer hwriter hgoing more hturn hover
    have hstopped := (hhalted moves).stopped
    -- Up to its next turn the writer stays as it is, and behind that turn too.
    obtain ⟨front, back, rfl, hnone⟩ := List.eq_append_cons_of_mem hturn
    obtain ⟨hfront, hcalls⟩ := follow_of_no_turn hstopped hwriter hnone
    have hlater := (@halted_follow σ sink maxBatch _ hstopped front).stopped
    obtain ⟨hlast, hended⟩ := turn_of_running hlater hfront hgoing
    have hnext := hover front (List.prefix_append front _)
    rw [follow_append] at hnext
    rw [if_neg hnext] at hended
    obtain ⟨hstays, hsame⟩ := follow_of_hasEnded hended rfl sink back
    rw [follow_append, follow_append]
    exact ⟨hstays, _, hsame.trans (hlast.trans (by rw [hcalls]))⟩
  case waiting_fail =>
    intro sender frame hpost moves
    constructor
    · rw [Outbox.canResume, (hhalted moves).stopped]
      rfl
    · exact waiting_follow hfirst hpost
  case sends_fail =>
    intro moves frame hheld
    have hstopped := (hhalted moves).stopped
    rw [follow_append_singleton, follow_append_singleton]
    exact ⟨posts_send hstopped frame hheld, posts_trySend hstopped frame hheld⟩
  case enters_nothing => exact fun moves => ⟨(hhalted moves).entered, (hhalted moves).frames⟩

/-- A stream stalls within a frame, one more frame is queued and its sender's successor waits. Then
the stream blocks once when it is to end. -/
example :
    let frame : Frame := .empty .heartbeat
    let stream : ScriptedStream := { script := [.takeUpTo 3, .block], holdShutdown := true }
    let outlet := (start 1 stream).follow ScriptedStream.sink 2
      [.startWriter, .send frame, .turn, .send frame, .send frame, .stop, .look 2, .turn,
        .stir ({ · with holdShutdown := false }), .turn]
    outlet.entered.length = 2 ∧ outlet.posts.length = 3 ∧ outlet.stream.taken = [3, 0, 0] ∧
      outlet.stream.calls.length = 4 ∧ outlet.writer.any Writer.hasEnded = true := by
  decide +kernel

end Outlet

end RoutedSession
