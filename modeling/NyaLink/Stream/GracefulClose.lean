import NyaLink.Stream.Conservation

/-!
# Graceful close

The two directions of a stream close independently.  `maybe_count_graceful`
removes a stream as soon as the own FIN is sent and the peer's is applied, and
the unacked pieces go with it.  What the peer had not received by then is lost;
the stream loses nothing when no piece is unacked by then.
-/

namespace NyaLink

open StreamState

/-- The stream has ended gracefully: both FINs, no reset, and the table no longer holds it. -/
structure Ended (e : Endpoint) : Prop where
  gone : e.st.gone = true
  finSent : e.st.sendFinSent = true
  finApplied : e.st.recvFin = true
  unreset : e.st.reset = false

/-- This step removes the stream of one side by a graceful end. -/
def Link.removesGracefully (link : Link) (action : LinkAction) (side : Side) : Bool :=
  (link.step action).any fun next =>
    !(link.endAt side).st.gone && (next.endAt side).st.gone &&
      (next.endAt side).st.sendFinSent && (next.endAt side).st.recvFin &&
      !(next.endAt side).st.reset

/-- A graceful end finds no unacked piece. -/
def Link.endsAcknowledged (link : Link) (action : LinkAction) : Prop :=
  ∀ side, link.removesGracefully action side = true →
    (link.endAt side).st.unacked.entries = []

instance (property : Side → Prop) [DecidablePred property] : Decidable (∀ side, property side) :=
  decidable_of_iff (property .opener ∧ property .acceptor)
    ⟨fun ⟨first, second⟩ side => by cases side <;> assumption, fun all => ⟨all _, all _⟩⟩

instance (link : Link) (action : LinkAction) : Decidable (link.endsAcknowledged action) :=
  inferInstanceAs (Decidable (∀ side, link.removesGracefully action side = true →
    (link.endAt side).st.unacked.entries = []))

/-- After the FIN nothing is left to cut, and a graceful end leaves every byte received. -/
structure Closing (sender receiver : Endpoint) : Prop where
  stopped : sender.st.sendFinSent = true → sender.phase = .stopped []
  delivered : Ended sender → ∀ position < sender.st.sendNext, receiver.st.Received position

section

variable {e peer sender receiver : Endpoint}

/-! ## A stream that has left the table -/

/-- The flags of a graceful end. -/
structure FlagsKept (before after : StreamState) : Prop where
  gone : after.gone = before.gone
  sendFinSent : after.sendFinSent = before.sendFinSent
  recvFin : after.recvFin = before.recvFin
  reset : after.reset = before.reset

theorem FlagsKept.refl (st : StreamState) : FlagsKept st st := ⟨rfl, rfl, rfl, rfl⟩

theorem Ended.before {after : Endpoint} (ended : Ended after)
    (flags : FlagsKept e.st after.st) : Ended e := by
  constructor
  · rw [← flags.gone]
    exact ended.gone
  · rw [← flags.sendFinSent]
    exact ended.finSent
  · rw [← flags.recvFin]
    exact ended.finApplied
  · rw [← flags.reset]
    exact ended.unreset

theorem replayEarly_of_absent (inputs : CapInputs) (early : List (Nat × StreamData))
    (absent : e.live = false) : (Endpoint.replayEarly inputs early e).1 = e := by
  induction early with
  | nil => rfl
  | cons entry rest inductionHypothesis =>
      simp only [Endpoint.replayEarly, absent, Bool.false_eq_true, if_false]
      exact inductionHypothesis

theorem live_of_gone (gone : e.st.gone = true) : e.live = false := by
  simp [Endpoint.live, gone]

/-- A step of the send loop either sends the FIN, with nothing left to cut, or leaves the
flags of the stream alone; a loop that has ended stays so. -/
theorem sends_cases {action : LocalAction} {result : Endpoint × Output}
    (sends : action.sends = true) (taken : e.step action = some result) :
    (e.live = true ∧ e.phase = .idle ∧ result.1.phase = .stopped [] ∧
      result.1.st.sendNext = e.st.sendNext) ∨
    (FlagsKept e.st result.1.st ∧ (e.phase = .stopped [] →
      result.1.phase = .stopped [] ∧ result.1.st.sendNext = e.st.sendNext)) := by
  cases action with
  | submit data =>
      simp only [Endpoint.step, Endpoint.submit] at taken
      split at taken
      · rename_i idle
        apply Or.inr
        split at taken
        · cases taken
        · split at taken
          · cases taken
            exact ⟨FlagsKept.refl e.st, fun ended => by simp [idle] at ended⟩
          · cases taken
            exact ⟨FlagsKept.refl e.st, fun ended => by simp [idle] at ended⟩
      · cases taken
  | testWindow =>
      simp only [Endpoint.step, Endpoint.testWindow] at taken
      split at taken
      · rename_i waiting
        apply Or.inr
        split at taken
        · cases taken
          exact ⟨FlagsKept.refl e.st, fun ended => by simp [waiting] at ended⟩
        · split at taken
          · cases taken
            exact ⟨FlagsKept.refl e.st, fun ended => by simp [waiting] at ended⟩
          · cases taken
      · cases taken
  | loadWindow =>
      simp only [Endpoint.step, Endpoint.loadWindow] at taken
      split at taken
      · rename_i room
        cases taken
        exact .inr ⟨FlagsKept.refl e.st, fun ended => by simp [room] at ended⟩
      · cases taken
  | cut =>
      simp only [Endpoint.step, Endpoint.cut] at taken
      split at taken
      · rename_i loaded
        split at taken
        · cases taken
        · cases taken
          exact .inr ⟨⟨rfl, rfl, rfl, rfl⟩, fun ended => by simp [loaded] at ended⟩
      · cases taken
  | place path now =>
      simp only [Endpoint.step, Endpoint.place] at taken
      split at taken
      · rename_i placing
        cases taken
        exact .inr ⟨⟨rfl, rfl, rfl, rfl⟩, fun ended => by simp [placing] at ended⟩
      · cases taken
  | giveUp =>
      simp only [Endpoint.step, Endpoint.giveUp] at taken
      split at taken
      · rename_i waiting
        cases taken
        exact .inr ⟨FlagsKept.refl e.st, fun ended => by simp [waiting] at ended⟩
      · rename_i placing
        cases taken
        exact .inr ⟨FlagsKept.refl e.st, fun ended => by simp [placing] at ended⟩
      · cases taken
  | transmit index path now =>
      simp only [Endpoint.step, Endpoint.transmit] at taken
      split at taken
      · cases taken
      · split at taken
        · cases taken
        · cases taken
          exact .inr ⟨⟨rfl, rfl, rfl, rfl⟩, fun ended => ⟨ended, rfl⟩⟩
  | closeSend path =>
      obtain ⟨idle, rfl | ⟨live, st, close, ending, rfl⟩⟩ := closeSend_cases taken
      · exact .inr ⟨FlagsKept.refl e.st, fun ended => by simp [idle] at ended⟩
      · exact .inl ⟨live, idle, rfl, ending.sendNext⟩
  | resendClose | sendOpen | appTake | appRead | appGone | tuneRecvCap | expireRecvCloses
  | expireEarlyData | resetStream | reapHalfClosed | reapStream => cases sends

theorem flagsKept_step (gone : e.st.gone = true) {action : LocalAction}
    {result : Endpoint × Output} (taken : e.step action = some result) :
    FlagsKept e.st result.1.st := by
  have absent := live_of_gone gone
  cases sends : action.sends with
  | true =>
      rcases sends_cases sends taken with ⟨live, -⟩ | ⟨flags, -⟩
      · rw [absent] at live
        cases live
      · exact flags
  | false =>
      cases action with
      | submit | testWindow | loadWindow | cut | place | giveUp | transmit | closeSend =>
          cases sends
      | resendClose | sendOpen | tuneRecvCap | expireRecvCloses | resetStream | reapHalfClosed
      | reapStream =>
          simp [Endpoint.step, Endpoint.resendClose, Endpoint.sendOpen, absent] at taken
      | appTake =>
          simp only [Endpoint.step, Endpoint.appTake] at taken
          split at taken
          · cases taken
            exact ⟨rfl, rfl, rfl, rfl⟩
          · cases taken
            exact ⟨rfl, rfl, rfl, rfl⟩
          · cases taken
      | appRead inputs =>
          simp only [Endpoint.step, Endpoint.reportRead, absent] at taken
          split at taken
          · cases taken
            exact FlagsKept.refl e.st
          · cases taken
      | appGone =>
          simp only [Endpoint.step, Endpoint.appGone] at taken
          split at taken
          · cases taken
            exact ⟨rfl, rfl, rfl, rfl⟩
          · cases taken
      | expireEarlyData count =>
          cases taken
          exact FlagsKept.refl e.st

theorem flagsKept_handleFrame (gone : e.st.gone = true) (path : Nat) (frame : Frame) (now : Nat)
    (inputs : CapInputs) : FlagsKept e.st (e.handleFrame path frame now inputs).1.st := by
  have absent := live_of_gone gone
  cases frame with
  | streamOpen body =>
      simp only [Endpoint.handleFrame, Endpoint.acceptRemoteStream]
      split
      · exact FlagsKept.refl e.st
      · have accepted : ({ e with accepted := true, early := [] } : Endpoint).live = false :=
          live_of_gone gone
        rw [replayEarly_of_absent inputs e.early accepted]
        exact FlagsKept.refl e.st
  | streamData | streamAck | streamClose | streamReset =>
      simp only [Endpoint.handleFrame, absent]
      exact FlagsKept.refl e.st

/-! ## The end of the sender -/

theorem Closing.acts {after : Endpoint} (closing : Closing e peer) (flow : Flow e peer)
    (stopped : after.st.sendFinSent = true → after.phase = .stopped [])
    (flags : e.st.gone = true → FlagsKept e.st after.st)
    (quiet : Ended after → e.phase.inHand = none ∧ after.st.sendNext = e.st.sendNext)
    (safe : e.st.gone = false → Ended after → e.st.unacked.entries = []) : Closing after peer := by
  refine ⟨stopped, ?_⟩
  intro ended position below
  obtain ⟨nothing, sendNext⟩ := quiet ended
  rw [sendNext] at below
  cases gone : e.st.gone with
  | true => exact closing.delivered (ended.before (flags gone)) position below
  | false =>
      rcases flow.covered gone position below with
        ⟨offset, u, found, -⟩ | received | ⟨offset, piece, held, -⟩
      · have listed : (offset, u) ∈ e.st.unacked.entries := OrdMap.get?_eq_some_iff.mp found
        rw [safe gone ended] at listed
        cases listed
      · exact received
      · rw [nothing] at held
        cases held

theorem Closing.quiet {after : Endpoint} (closing : Closing e peer) (kept : SenderKept e after)
    (ended : Ended after) :
    e.phase.inHand = none ∧ after.st.sendNext = e.st.sendNext := by
  have finSent := ended.finSent
  rw [kept.sendFinSent] at finSent
  rw [closing.stopped finSent]
  exact ⟨rfl, kept.sendNext⟩

theorem Closing.stopped_of_kept {after : Endpoint} (closing : Closing e peer)
    (kept : SenderKept e after) :
    after.st.sendFinSent = true → after.phase = .stopped [] := by
  rw [kept.sendFinSent, kept.phase]
  exact closing.stopped

theorem closing_step (closing : Closing e peer) (flow : Flow e peer) {action : LocalAction}
    {result : Endpoint × Output} (taken : e.step action = some result)
    (safe : e.st.gone = false → Ended result.1 → e.st.unacked.entries = []) :
    Closing result.1 peer := by
  cases sends : action.sends with
  | false =>
      have kept := senderKept_step sends taken
      exact closing.acts flow (closing.stopped_of_kept kept) (fun gone => flagsKept_step gone taken)
        (closing.quiet kept) safe
  | true =>
      refine closing.acts flow ?_ (fun gone => flagsKept_step gone taken) ?_ safe
      · intro finSent
        rcases sends_cases sends taken with ⟨-, -, stopped, -⟩ | ⟨flags, stays⟩
        · exact stopped
        · rw [flags.sendFinSent] at finSent
          exact (stays (closing.stopped finSent)).1
      · intro ended
        rcases sends_cases sends taken with ⟨-, idle, -, sendNext⟩ | ⟨flags, stays⟩
        · rw [idle]
          exact ⟨rfl, sendNext⟩
        · have finSent := ended.finSent
          rw [flags.sendFinSent] at finSent
          have stopped := closing.stopped finSent
          refine ⟨?_, (stays stopped).2⟩
          rw [stopped]
          rfl

theorem closing_handleFrame (closing : Closing e peer) (flow : Flow e peer) (path : Nat)
    (frame : Frame) (now : Nat) (inputs : CapInputs)
    (safe : e.st.gone = false → Ended (e.handleFrame path frame now inputs).1 →
      e.st.unacked.entries = []) :
    Closing (e.handleFrame path frame now inputs).1 peer := by
  by_cases isAck : ∃ ack, frame = .streamAck ack
  · obtain ⟨ack, rfl⟩ := isAck
    rw [handleFrame_ack] at safe ⊢
    split
    · rename_i live
      have kept := ackKept_onAck e.st ack now
      have flags : FlagsKept e.st (e.st.onAck ack now) :=
        ⟨kept.gone, kept.sendFinSent, kept.recvFin, kept.reset⟩
      rw [if_pos live] at safe
      refine closing.acts flow ?_ (fun _ => flags) ?_ safe
      · intro finSent
        exact closing.stopped (kept.sendFinSent.symm.trans finSent)
      · intro ended
        rw [closing.stopped (kept.sendFinSent.symm.trans ended.finSent)]
        exact ⟨rfl, kept.sendNext⟩
    · exact closing
  · have kept : SenderKept e (e.handleFrame path frame now inputs).1 :=
      senderKept_handleFrame path now inputs fun ack same => isAck ⟨ack, same⟩
    exact closing.acts flow (closing.stopped_of_kept kept)
      (fun gone => flagsKept_handleFrame gone path frame now inputs) (closing.quiet kept) safe

end

/-! ## Runs -/

theorem closing_initial {link : Link} (initial : Link.Initial link) (side : Side) :
    Closing (link.endAt side) (link.endAt side.other) := by
  obtain ⟨id, openWindow, openChan, acceptWindow, acceptChan, -, -, rfl⟩ := initial
  cases side
  · exact ⟨fun finSent => (by cases finSent), fun ended => by cases ended.gone⟩
  · exact ⟨fun finSent => (by cases finSent), fun ended => by cases ended.gone⟩

/-- The condition on a step, at the side that acts. -/
theorem acknowledged_of_ended {link next : Link} {action : LinkAction} {side : Side}
    {result : Endpoint × Output} (acknowledged : link.endsAcknowledged action)
    (taken : link.step action = some next) (own : next.endAt side = result.1)
    (live : (link.endAt side).st.gone = false) (ended : Ended result.1) :
    (link.endAt side).st.unacked.entries = [] := by
  apply acknowledged side
  simp [Link.removesGracefully, taken, own, live, ended.gone, ended.finSent, ended.finApplied,
    ended.unreset]

theorem closing_run_step {link next : Link} (sound : Sound link)
    (closing : ∀ side, Closing (link.endAt side) (link.endAt side.other)) {action : LinkAction}
    (acknowledged : link.endsAcknowledged action) (taken : link.step action = some next) :
    ∀ side, Closing (next.endAt side) (next.endAt side.other) := by
  refine Link.directional_step taken closing ?_ ?_
  · intro side result acts
    have safe := acknowledged_of_ended acknowledged taken (acts.endAt taken)
    cases acts with
    | alone stepped => exact closing_step (closing side) (sound.flows side) stepped safe
    | @arrival index now inputs f found =>
        exact closing_handleFrame (closing f.dest) (sound.flows f.dest) f.path f.frame now inputs
          safe
  · intro side result acts
    have before := closing side.other
    rw [Side.other_other] at before
    refine { before with delivered := ?_ }
    intro ended position below
    exact (sound.keeps acts).advances.received position (before.delivered ended position below)

/-- In every run whose graceful ends find no unacked piece, whatever the application wrote before
its FIN has been received when the stream has ended gracefully. -/
theorem written_received_of_ended {link : Link}
    (reachable : Link.machine.ReachableWhen Link.endsAcknowledged link) {side : Side}
    (ended : Ended (link.endAt side)) :
    ∀ position < (link.endAt side).written.length,
      (link.endAt side.other).st.Received position := by
  have closing : ∀ side, Closing (link.endAt side) (link.endAt side.other) := by
    refine reachable.invariant_of
      (fun link => ∀ side, Closing (link.endAt side) (link.endAt side.other))
      (fun _ reached => sound_of_reachable reached.reachable) ?_ ?_
    · exact fun _ initial => closing_initial initial
    · exact fun _ _ _ sound held acknowledged taken =>
        closing_run_step sound held acknowledged taken
  have flow := (sound_of_reachable reachable.reachable).flows side
  intro position below
  rw [flow.wrote, (closing side).stopped ended.finSent, SendPhase.rest, List.append_nil,
    ← flow.sent] at below
  exact (closing side).delivered ended position below

/-- One byte is sent and acknowledged, then both sides close. -/
theorem written_received_of_ended_acknowledged :
    ∃ link, Link.machine.ReachableWhen Link.endsAcknowledged link ∧ Ended (link.endAt .opener) ∧
      link.opener.written.length = 1 ∧ (link.endAt .acceptor).st.Received 0 := by
  have reached : ∃ link, Link.machine.runWhen Link.endsAcknowledged freshLink (openSchedule ++
      sendSchedule .opener [7] ++ [.arrive 0 0 ⟨0, 0⟩, .arrive 0 0 ⟨0, 0⟩,
        .act .acceptor (.closeSend 1), .arrive 0 0 ⟨0, 0⟩, .act .opener (.closeSend 1)]) =
      some link ∧ link.opener.st.gone = true ∧ link.opener.st.sendFinSent = true ∧
      link.opener.st.recvFin = true ∧ link.opener.st.reset = false ∧
      link.opener.written.length = 1 := ⟨_, rfl, rfl, rfl, rfl, rfl, rfl⟩
  obtain ⟨link, replayed, gone, finSent, finApplied, unreset, written⟩ := reached
  have reachable := Machine.ReachableWhen.runWhen freshLink_started replayed
  have ended : Ended (link.endAt .opener) := ⟨gone, finSent, finApplied, unreset⟩
  have received := written_received_of_ended reachable ended 0
  rw [Link.endAt, written] at received
  exact ⟨link, reachable, ended, written, received Nat.one_pos⟩

/-- The peer has closed its direction; the own FIN then drops the byte that is in flight on a
path, and the path fails. -/
def halfCloseSchedule : List LinkAction :=
  [.pathUp 1, .pathUp 2] ++ openSchedule ++ sendSchedule .opener [7] ++
    [.act .acceptor (.closeSend 2), .arrive 1 0 ⟨0, 0⟩, .act .opener (.closeSend 2),
      .pathDown 1, .arrive 0 0 ⟨0, 0⟩]

/-- Nothing is in flight, a path is alive, and the byte is nowhere. -/
theorem written_not_received_of_ended :
    ¬ ∀ link, Link.machine.Reachable link → ∀ side, Ended (link.endAt side) →
      (link.endAt side.other).st.reset = false →
      ∀ position < (link.endAt side).written.length,
        (link.endAt side.other).st.Received position ∨
          Unacknowledged (link.endAt side) position := by
  intro always
  have reached : ∃ link, Link.machine.run freshLink halfCloseSchedule = some link ∧
      link.opener.st.gone = true ∧ link.opener.st.sendFinSent = true ∧
      link.opener.st.recvFin = true ∧ link.opener.st.reset = false ∧
      link.acceptor.st.reset = false ∧ link.opener.written.length = 1 ∧
      link.acceptor.st.recvNext = 0 ∧ link.acceptor.st.recvBuf = .empty ∧
      link.opener.st.unacked = .empty ∧ link.flight = [] ∧ link.paths = [2] :=
    ⟨_, rfl, rfl, rfl, rfl, rfl, rfl, rfl, rfl, rfl, rfl, rfl, rfl⟩
  obtain ⟨link, replayed, gone, finSent, finApplied, unreset, peerUnreset, written, recvNext,
    recvBuf, unacked, -, -⟩ := reached
  have below : 0 < (link.endAt .opener).written.length := by
    rw [Link.endAt, written]
    exact Nat.one_pos
  rcases always link (freshLink_reachable.run replayed) .opener
    ⟨gone, finSent, finApplied, unreset⟩ peerUnreset 0 below with
    (received | ⟨offset, chunk, found, -⟩) | ⟨offset, u, found, -⟩
  · rw [Side.other, Link.endAt, recvNext] at received
    cases received
  · rw [Side.other, Link.endAt, recvBuf] at found
    cases found
  · rw [Link.endAt, unacked] at found
    cases found

end NyaLink
