import NyaLink.Stream.Conservation

/-!
# The zero-window probe that is not there

A window update is sent once.  What the newest ACK says about the receive side
stays true until the next one is generated, so a sender that applied the newest
ACK last is not blocked when everything it sent has been read.  A sender that
applied an older one last may stay blocked for ever.
-/

namespace NyaLink

open StreamState

/-- The receive cap is never below the initial window, which is at least one. -/
structure Tuned (st : StreamState) : Prop where
  positive : 1 ≤ st.initialWindow
  bounded : st.initialWindow ≤ st.capCeil
  cap : st.initialWindow ≤ st.recvCap

/-- The newest ACK describes the receive side, under some receive cap. -/
structure Reports (e : Endpoint) : Prop where
  tuned : Tuned e.st
  silent : e.acks = [] → e.st.recvNext = 0
  newest : ∀ ack, e.acks.head? = some ack → ack.ackedOffset = e.st.recvNext ∧
    ∃ cap, e.st.initialWindow ≤ cap ∧
      ack.window = min (cap - e.st.bufferedIn - e.st.recvBuffered) u32Max

/-- The send window is that of the ACK applied last, and its offset has been taken. -/
structure Applies (e : Endpoint) : Prop where
  fresh : e.applied = none → e.st.sendWindow = e.st.initialWindow
  last : ∀ ack, e.applied = some ack →
    e.st.sendWindow = ack.window ∧ ack.ackedOffset ≤ e.st.sendAcked

section

variable {e : Endpoint} {st : StreamState}

/-! ## The receive cap -/

theorem Tuned.kept {after : StreamState} (tuned : Tuned st) (kept : RecvKept st after) :
    Tuned after := by
  refine ⟨?_, ?_, ?_⟩
  · rw [kept.initialWindow]
    exact tuned.positive
  · rw [capCeil, kept.initialWindow, kept.capacity]
    exact tuned.bounded
  · rw [kept.initialWindow, kept.recvCap]
    exact tuned.cap

theorem tuned_tuneRecvCap (tuned : Tuned st) (inputs : CapInputs) :
    Tuned (st.tuneRecvCap inputs) :=
  { tuned with cap := (clamp_bounds tuned.bounded _).1 }

theorem tuned_drainRecv (tuned : Tuned st) (inputs : CapInputs) :
    Tuned (st.drainRecv inputs).1 := by
  have drained : Tuned (drainLoop st.recvBuf.size st) := by
    refine drainLoop_induction ?_ _ tuned
    intro before chunk inbound held _ sent
    refine { held with bounded := ?_ }
    simp only [deliverHead, capCeil, Inbox.trySend_eq_some sent]
    exact held.bounded
  obtain ⟨tunedSt, origin, result⟩ := drainRecv_eq st inputs
  rw [result]
  refine Tuned.kept ?_ (ending_tryFinishRecvClose tunedSt).toRecvKept
  rcases origin with rfl | rfl
  · exact drained
  · exact tuned_tuneRecvCap drained inputs

theorem tuned_deliverData (tuned : Tuned st) (path : Nat) (data : StreamData)
    (inputs : CapInputs) : Tuned (st.deliverData path data inputs).1 := by
  have arrived : Tuned (st.noteArrival path) := { tuned with }
  simp only [deliverData]
  split
  · exact tuned
  · split
    · exact tuned
    · split
      · exact arrived
      · split
        · exact { arrived with }
        · have buffered : Tuned ((st.noteArrival path).bufferChunk data.offset data.data) :=
            { arrived with }
          exact tuned_drainRecv buffered inputs

/-! ## The newest ACK -/

theorem Reports.kept {after : Endpoint} (reports : Reports e) (kept : RecvKept e.st after.st)
    (acks : after.acks = e.acks) : Reports after where
  tuned := reports.tuned.kept kept
  silent := by
    rw [acks, kept.recvNext]
    exact reports.silent
  newest := by
    rw [acks, kept.recvNext, kept.initialWindow, kept.bufferedIn, kept.recvBuffered]
    exact reports.newest

theorem reports_acknowledge {path : Nat} {result : StreamState × Option StreamAck}
    (tuned : Tuned result.1) (sent : result.2 = some result.1.ackFrame) :
    Reports (e.acknowledge path result).1 where
  tuned := tuned
  silent := by simp [Endpoint.acknowledge, sent]
  newest := by
    intro ack newest
    simp only [Endpoint.acknowledge, sent, Option.toList_some, List.singleton_append,
      List.head?_cons, Option.some.injEq] at newest
    subst newest
    exact ⟨rfl, result.1.recvCap, tuned.cap, rfl⟩

theorem reports_deliver (reports : Reports e) (path : Nat) (data : StreamData)
    (inputs : CapInputs) : Reports (e.deliver path data inputs).1 := by
  have sent := deliverData_ack e.st path data inputs
  cases reset : e.st.reset with
  | true =>
      have ignored : e.st.deliverData path data inputs = (e.st, none) := by
        simp [deliverData, reset]
      simp only [Endpoint.deliver, Endpoint.acknowledge, ignored]
      exact { reports with }
  | false =>
      rw [reset, if_neg Bool.false_ne_true] at sent
      exact reports_acknowledge (tuned_deliverData reports.tuned path data inputs) sent

theorem reports_replayEarly (inputs : CapInputs) (early : List (Nat × StreamData))
    {e : Endpoint} (reports : Reports e) :
    Reports (Endpoint.replayEarly inputs early e).1 := by
  induction early generalizing e with
  | nil => exact reports
  | cons entry rest inductionHypothesis =>
      apply inductionHypothesis
      split
      · exact reports_deliver reports entry.1 entry.2 inputs
      · exact reports

theorem reports_reportRead (reports : Reports e) {inputs : CapInputs}
    {result : Endpoint × Output} (taken : e.reportRead inputs = some result) :
    Reports result.1 := by
  simp only [Endpoint.reportRead] at taken
  split at taken
  · rename_i n held
    split at taken
    · cases taken
      have credited : Tuned { e.st with bufferedIn := e.st.bufferedIn - n } :=
        { reports.tuned with }
      have sent := congrArg some (noteAppRead_ack e.st n inputs)
      exact @reports_acknowledge _ _ (_, some _) (tuned_drainRecv credited inputs) sent
    · cases taken
      exact { reports with }
  · cases taken

theorem reports_step (reports : Reports e) {action : LocalAction} {result : Endpoint × Output}
    (taken : e.step action = some result) : Reports result.1 := by
  cases sends : action.sends with
  | true =>
      have kept := sendLoopKept_step sends taken
      exact reports.kept kept.toRecvKept kept.acks
  | false =>
      cases action with
      | submit | testWindow | loadWindow | cut | place | giveUp | transmit | closeSend =>
          cases sends
      | appRead inputs => exact reports_reportRead reports taken
      | resendClose path =>
          simp only [Endpoint.step, Endpoint.resendClose] at taken
          split at taken
          · cases taken
            exact reports
          · cases taken
      | sendOpen target path =>
          simp only [Endpoint.step, Endpoint.sendOpen] at taken
          split at taken
          · cases taken
            exact reports
          · cases taken
      | appTake =>
          simp only [Endpoint.step, Endpoint.appTake] at taken
          split at taken
          · cases taken
            exact { reports with tuned := { reports.tuned with } }
          · cases taken
            exact { reports with tuned := { reports.tuned with } }
          · cases taken
      | appGone =>
          simp only [Endpoint.step, Endpoint.appGone] at taken
          split at taken
          · cases taken
            exact { reports with tuned := { reports.tuned with } }
          · cases taken
      | tuneRecvCap inputs =>
          simp only [Endpoint.step] at taken
          split at taken
          · cases taken
            exact { reports with tuned := tuned_tuneRecvCap reports.tuned inputs }
          · cases taken
      | expireRecvCloses =>
          simp only [Endpoint.step] at taken
          split at taken
          · cases taken
            exact reports.kept (ending_tryFinishRecvClose e.st).toRecvKept rfl
          · cases taken
      | expireEarlyData count =>
          cases taken
          exact { reports with }
      | resetStream reason path =>
          simp only [Endpoint.step] at taken
          split at taken
          · cases taken
            exact reports.kept (ending_finishStream e.st reason _).toRecvKept rfl
          · cases taken
      | reapHalfClosed path =>
          simp only [Endpoint.step] at taken
          split at taken
          · cases taken
            exact reports.kept (reaped_reapHalfClosed e.st _ _).ending.toRecvKept rfl
          · cases taken
      | reapStream path =>
          simp only [Endpoint.step] at taken
          split at taken
          · cases taken
            exact reports.kept (reaped_reapStream e.st _).ending.toRecvKept rfl
          · cases taken

theorem reports_handleFrame (reports : Reports e) (path : Nat) (frame : Frame) (now : Nat)
    (inputs : CapInputs) : Reports (e.handleFrame path frame now inputs).1 := by
  cases frame with
  | streamAck ack =>
      have kept := receiverKept_ack (e := e) path ack now inputs
      exact reports.kept kept.toRecvKept kept.acks
  | streamOpen body =>
      simp only [Endpoint.handleFrame, Endpoint.acceptRemoteStream]
      split
      · exact reports
      · exact reports_replayEarly inputs e.early { reports with }
  | streamData data =>
      simp only [Endpoint.handleFrame]
      split
      · exact reports_deliver reports path data inputs
      · exact { reports with }
  | streamClose close =>
      simp only [Endpoint.handleFrame]
      split
      · exact reports.kept (ending_onPeerClose e.st close).toRecvKept rfl
      · exact reports
  | streamReset reset =>
      simp only [Endpoint.handleFrame]
      split
      · exact reports.kept (ending_finishStream e.st reset.reason _).toRecvKept rfl
      · exact reports

/-! ## The applied ACK -/

theorem Applies.senderKept {after : Endpoint} (applies : Applies e) (kept : SenderKept e after) :
    Applies after := by
  constructor
  · rw [kept.applied, kept.sendWindow, kept.initialWindow]
    exact applies.fresh
  · rw [kept.applied, kept.sendWindow, kept.sendAcked]
    exact applies.last

/-- The send loop touches neither the window nor the acknowledged offset. -/
theorem applies_step (applies : Applies e) {action : LocalAction} {result : Endpoint × Output}
    (taken : e.step action = some result) : Applies result.1 := by
  cases sends : action.sends with
  | false => exact applies.senderKept (senderKept_step sends taken)
  | true =>
      have kept := sendLoopKept_step sends taken
      constructor
      · rw [kept.applied, kept.sendWindow, kept.initialWindow]
        exact applies.fresh
      · rw [kept.applied, kept.sendWindow, kept.sendAcked]
        exact applies.last

theorem applies_handleFrame (applies : Applies e) (path : Nat) (frame : Frame) (now : Nat)
    (inputs : CapInputs) : Applies (e.handleFrame path frame now inputs).1 := by
  by_cases isAck : ∃ ack, frame = .streamAck ack
  · obtain ⟨ack, rfl⟩ := isAck
    rw [handleFrame_ack]
    split
    · constructor
      · intro none
        cases none
      · intro last same
        cases same
        refine ⟨onAck_sendWindow _ _ _, ?_⟩
        rw [onAck_sendAcked]
        exact le_max_right _ _
    · exact applies
  · exact applies.senderKept
      (senderKept_handleFrame path now inputs fun ack same => isAck ⟨ack, same⟩)

end

/-! ## Runs -/

theorem reports_new (isClient accepted : Bool) {id window chan : Nat}
    (tuning : 1 ≤ window ∧ window ≤ u32Max ∧ 1 ≤ chan) :
    Reports (.new isClient accepted id window chan) where
  tuned := {
    positive := tuning.1
    bounded := le_min (Nat.le_mul_of_pos_right window tuning.2.2) tuning.2.1
    cap := le_rfl }
  silent := fun _ => rfl
  newest := by simp [Endpoint.new]

theorem applies_new (isClient accepted : Bool) (id window chan : Nat) :
    Applies (.new isClient accepted id window chan) where
  fresh := fun _ => rfl
  last := by simp [Endpoint.new]

/-- What every endpoint of every reachable link satisfies on its own. -/
theorem reports_and_applies {link : Link} (reachable : Link.machine.Reachable link) (side : Side) :
    Reports (link.endAt side) ∧ Applies (link.endAt side) := by
  refine reachable.invariant
    (fun link => ∀ side, Reports (link.endAt side) ∧ Applies (link.endAt side)) ?_ ?_ side
  · rintro link ⟨id, openWindow, openChan, acceptWindow, acceptChan, opening, accepting, rfl⟩
      (_ | _)
    · exact ⟨reports_new _ _ opening, applies_new _ _ _ _ _⟩
    · exact ⟨reports_new _ _ accepting, applies_new _ _ _ _ _⟩
  · intro link action next held taken
    refine @Link.directional_step (fun sender _ => Reports sender ∧ Applies sender) _ _ _ taken
      held ?_ fun side _ _ => held side.other
    intro side result acts
    cases acts with
    | alone stepped =>
        exact ⟨reports_step (held side).1 stepped, applies_step (held side).2 stepped⟩
    | arrival found =>
        exact ⟨reports_handleFrame (held _).1 _ _ _ _, applies_handleFrame (held _).2 _ _ _ _⟩

/-- Nothing of the stream is on its way, some path is alive, and the application has read every
byte the sender ever sent. -/
structure Quiescent (link : Link) (side : Side) : Prop where
  alive : link.paths ≠ []
  flight : link.flight = []
  unacked : (link.endAt side).st.unacked = .empty
  read : (link.endAt side.other).appRead = (link.endAt side).st.sendNext

/-- Once everything has been delivered in order, nothing is left in the reorder buffer. -/
theorem recvBuffered_eq_zero {sender receiver : Endpoint} (flow : Flow sender receiver)
    (complete : receiver.st.recvNext = sender.st.sendNext) : receiver.st.recvBuffered = 0 := by
  rw [flow.receiving.counted]
  apply OrdMap.total_eq_zero
  intro offset chunk found
  obtain ⟨ahead, segment⟩ := flow.receiving.buffered offset chunk found
  have inside := segment.end_le
  rw [← flow.sent, ← complete] at inside
  simp only [chunkLength]
  omega

/-- In every reachable quiescent link in which the ACK applied last is the newest one the
receiver generated, an advertised window means an open send window. -/
theorem windowOk_of_quiescent {link : Link} (reachable : Link.machine.Reachable link)
    {side : Side} (quiescent : Quiescent link side)
    (newest : (link.endAt side).applied = (link.endAt side.other).acks.head?) :
    1 ≤ (link.endAt side.other).st.advertisedWindow →
      (link.endAt side).st.windowOk 1 = true := by
  intro _
  have flow := (sound_of_reachable reachable).flows side
  have applies := (reports_and_applies reachable side).2
  have reports := (reports_and_applies reachable side.other).1
  have sendTuned := (reports_and_applies reachable side).1.tuned
  have credit := flow.receiving.credit
  have bounded := flow.receiving.cut.le_length
  rw [← flow.sent] at bounded
  rw [quiescent.read] at credit
  have drained : (link.endAt side.other).st.bufferedIn = 0 := by omega
  have allRead : (link.endAt side.other).st.recvNext = (link.endAt side).st.sendNext := by omega
  refine decide_eq_true ?_
  cases known : (link.endAt side).applied with
  | none =>
      have unsent := reports.silent (List.head?_eq_none_iff.mp (newest.symm.trans known))
      have window := applies.fresh known
      have positive := sendTuned.positive
      simp only [inflightSend]
      omega
  | some ack =>
      obtain ⟨window, taken⟩ := applies.last ack known
      obtain ⟨offset, cap, floor, granted⟩ := reports.newest ack (newest.symm.trans known)
      have empty := recvBuffered_eq_zero flow allRead
      have positive := reports.tuned.positive
      have largest : 1 ≤ u32Max := by decide
      simp only [inflightSend]
      omega

/-- Ten bytes fill the window; they are sent on two paths, and read.  Three ACKs are left on
their way: two with a closed window, the newest with an open one. -/
def threeAcksSchedule : List LinkAction :=
  [.pathUp 1, .pathUp 2] ++ openSchedule ++
    sendSchedule .opener [1, 2, 3, 4, 5, 6, 7, 8, 9, 10] ++
    [.act .opener (.transmit 0 2 0), .arrive 0 0 ⟨0, 0⟩, .arrive 0 0 ⟨0, 0⟩,
      .act .acceptor .appTake, .act .acceptor (.appRead ⟨0, 0⟩)]

/-- Applied in the order they were generated, the ACKs open the window. -/
theorem windowOk_of_quiescent_in_order :
    ∃ link, Link.machine.Reachable link ∧ Quiescent link .opener ∧
      (link.endAt .opener).st.windowOk 1 = true := by
  have reached : ∃ link, Link.machine.run freshLink (threeAcksSchedule ++
      [.arrive 0 0 ⟨0, 0⟩, .arrive 0 0 ⟨0, 0⟩, .arrive 0 0 ⟨0, 0⟩]) = some link ∧
      link.paths = [1, 2] ∧ link.flight = [] ∧ link.opener.st.unacked = .empty ∧
      link.acceptor.appRead = link.opener.st.sendNext ∧
      link.opener.applied = link.acceptor.acks.head? ∧
      link.acceptor.st.advertisedWindow = 10 :=
    ⟨_, rfl, rfl, rfl, rfl, rfl, rfl, rfl⟩
  obtain ⟨link, replayed, paths, flight, unacked, read, newest, advertised⟩ := reached
  have reachable := freshLink_reachable.run replayed
  have quiescent : Quiescent link .opener := ⟨by simp [paths], flight, unacked, read⟩
  have positive : 1 ≤ (link.endAt (Side.other .opener)).st.advertisedWindow := by
    rw [Side.other, Link.endAt, advertised]
    decide
  exact ⟨link, reachable, quiescent, windowOk_of_quiescent reachable quiescent newest positive⟩

/-- The oldest ACK arrives last and closes the window for good. -/
theorem windowOk_not_of_quiescent :
    ¬ ∀ link, Link.machine.Reachable link → ∀ side, Quiescent link side →
      1 ≤ (link.endAt side.other).st.advertisedWindow →
        (link.endAt side).st.windowOk 1 = true := by
  intro always
  have reached : ∃ link, Link.machine.run freshLink (threeAcksSchedule ++
      [.arrive 1 0 ⟨0, 0⟩, .arrive 1 0 ⟨0, 0⟩, .arrive 0 0 ⟨0, 0⟩]) = some link ∧
      link.paths = [1, 2] ∧ link.flight = [] ∧ link.opener.st.unacked = .empty ∧
      link.acceptor.appRead = link.opener.st.sendNext ∧
      link.acceptor.st.advertisedWindow = 10 ∧ link.opener.st.windowOk 1 = false :=
    ⟨_, rfl, rfl, rfl, rfl, rfl, rfl, rfl⟩
  obtain ⟨link, replayed, paths, flight, unacked, read, advertised, blocked⟩ := reached
  have quiescent : Quiescent link .opener := ⟨by simp [paths], flight, unacked, read⟩
  have positive : 1 ≤ (link.endAt (Side.other .opener)).st.advertisedWindow := by
    rw [Side.other, Link.endAt, advertised]
    decide
  have ok := always link (freshLink_reachable.run replayed) .opener quiescent positive
  rw [Link.endAt, blocked] at ok
  cases ok

end NyaLink
