import NyaLink.Stream.Conservation

/-!
# Flow control

The right edge of the send window against the edges the receiver has granted.
`on_ack` takes the offset of an ACK monotonically but its window as it comes, so
the bound on `sendNext` holds exactly as long as no stale window is combined
with a newer offset.
-/

namespace NyaLink

open StreamState

/-- Largest right edge granted so far: the initial window, or an ACK the receiver generated. -/
def largestEdge (sender receiver : Endpoint) : Nat :=
  receiver.acks.foldr (fun ack bound => max ack.edge bound) sender.st.initialWindow

theorem foldr_edge_le_iff (acks : List StreamAck) (initial bound : Nat) :
    acks.foldr (fun ack bound => max ack.edge bound) initial ≤ bound ↔
      initial ≤ bound ∧ ∀ ack ∈ acks, ack.edge ≤ bound := by
  induction acks with
  | nil => simp
  | cons ack rest inductionHypothesis =>
      rw [List.foldr_cons, max_le_iff, inductionHypothesis, List.forall_mem_cons]
      exact and_left_comm

theorem largestEdge_le_iff {sender receiver : Endpoint} {bound : Nat} :
    largestEdge sender receiver ≤ bound ↔
      sender.st.initialWindow ≤ bound ∧ ∀ ack ∈ receiver.acks, ack.edge ≤ bound :=
  foldr_edge_le_iff _ _ _

theorem largestEdge_mono {sender receiver sender' receiver' : Endpoint}
    (window : sender'.st.initialWindow = sender.st.initialWindow)
    (acks : ∀ ack ∈ receiver.acks, ack ∈ receiver'.acks) :
    largestEdge sender receiver ≤ largestEdge sender' receiver' := by
  have bounds := largestEdge_le_iff.mp (le_refl (largestEdge sender' receiver'))
  rw [window] at bounds
  exact largestEdge_le_iff.mpr ⟨bounds.1, fun ack membership => bounds.2 ack (acks ack membership)⟩

/-- The window loop has let the current piece through. -/
def SendPhase.pastWindow : SendPhase → Bool
  | .room _ => true
  | .loaded _ _ => true
  | _ => false

/-- The send side stays within the edges granted so far. -/
structure Granted (sender receiver : Endpoint) : Prop where
  next : sender.st.sendNext ≤ largestEdge sender receiver
  window : sender.st.sendAcked + sender.st.sendWindow ≤ largestEdge sender receiver
  tested : sender.phase.pastWindow = true →
    sender.st.sendNext + 1 ≤ largestEdge sender receiver

/-- The edge `on_ack` would install is one that was granted; and so is the edge
`send_data` computes its room from, with a window it has read before. -/
def Link.windowHonest (link : Link) : LinkAction → Bool
  | .arrive index _ _ =>
      match link.flight[index]? with
      | some ⟨dest, _, .streamAck ack⟩ =>
          !(link.endAt dest).live ||
            decide (max (link.endAt dest).st.sendAcked ack.ackedOffset + ack.window ≤
              largestEdge (link.endAt dest) (link.endAt dest.other))
      | _ => true
  | .act side .cut =>
      match (link.endAt side).phase with
      | .loaded _ window =>
          decide ((link.endAt side).st.sendAcked + window ≤
            largestEdge (link.endAt side) (link.endAt side.other))
      | _ => true
  | _ => true

section

variable {sender receiver e peer : Endpoint}

theorem Granted.senderKept {after : Endpoint} (granted : Granted sender receiver)
    (kept : SenderKept sender after) : Granted after receiver := by
  have edges : largestEdge sender receiver ≤ largestEdge after receiver :=
    largestEdge_mono kept.initialWindow fun _ held => held
  refine ⟨?_, ?_, ?_⟩
  · rw [kept.sendNext]
    exact granted.next.trans edges
  · rw [kept.sendAcked, kept.sendWindow]
    exact granted.window.trans edges
  · rw [kept.phase, kept.sendNext]
    exact fun past => (granted.tested past).trans edges

theorem Granted.receives {after : Endpoint} (granted : Granted sender receiver)
    (acks : ∀ ack ∈ receiver.acks, ack ∈ after.acks) : Granted sender after := by
  have edges : largestEdge sender receiver ≤ largestEdge sender after := largestEdge_mono rfl acks
  exact ⟨granted.next.trans edges, granted.window.trans edges,
    fun past => (granted.tested past).trans edges⟩

theorem Granted.phase {phase : SendPhase} (granted : Granted sender receiver)
    (tested : phase.pastWindow = true →
      sender.st.sendNext + 1 ≤ largestEdge sender receiver) :
    Granted { sender with phase := phase } receiver :=
  { granted with tested := tested }

theorem sendNext_lt_of_windowOk {st : StreamState} (isOpen : st.windowOk 1 = true) :
    st.sendNext + 1 ≤ st.sendAcked + st.sendWindow := by
  have room : st.sendNext - st.sendAcked + 1 ≤ st.sendWindow := of_decide_eq_true isOpen
  omega

theorem sendNext_add_pieceLength_le {rest : Bytes} {window bound : Nat}
    (acked : e.st.sendAcked ≤ e.st.sendNext) (one : e.st.sendNext + 1 ≤ bound)
    (fits : e.st.sendAcked + window ≤ bound) :
    e.st.sendNext + e.pieceLength rest window ≤ bound := by
  simp only [Endpoint.pieceLength, inflightSend]
  omega

theorem granted_cut (granted : Granted e peer) (flow : Flow e peer)
    {result : Endpoint × Output}
    (honest : ∀ rest window, e.phase = .loaded rest window →
      e.st.sendAcked + window ≤ largestEdge e peer)
    (taken : e.cut = some result) : Granted result.1 peer := by
  have acked : e.st.sendAcked ≤ e.st.sendNext := by
    rw [flow.sent]
    exact flow.acked.trans flow.receiving.cut.le_length
  simp only [Endpoint.cut] at taken
  split at taken
  · rename_i rest window loaded
    split at taken
    · cases taken
    · cases taken
      have one := granted.tested (by rw [loaded]; rfl)
      have fits := honest rest window loaded
      refine ⟨sendNext_add_pieceLength_le acked one fits, granted.window, ?_⟩
      intro past
      cases past
  · cases taken

theorem granted_testWindow (granted : Granted e peer) {result : Endpoint × Output}
    (taken : e.testWindow = some result) : Granted result.1 peer := by
  simp only [Endpoint.testWindow] at taken
  split at taken
  · split at taken
    · rename_i isOpen
      cases taken
      exact granted.phase fun _ => (sendNext_lt_of_windowOk isOpen).trans granted.window
    · split at taken
      · cases taken
        exact granted.phase fun past => by cases past
      · cases taken
  · cases taken

theorem granted_step (granted : Granted e peer) (flow : Flow e peer) {action : LocalAction}
    {result : Endpoint × Output}
    (honest : action = .cut → ∀ rest window, e.phase = .loaded rest window →
      e.st.sendAcked + window ≤ largestEdge e peer)
    (taken : e.step action = some result) : Granted result.1 peer := by
  cases sends : action.sends with
  | false => exact granted.senderKept (senderKept_step sends taken)
  | true =>
      cases action with
      | testWindow => exact granted_testWindow granted taken
      | cut => exact granted_cut granted flow (honest rfl) taken
      | submit data =>
          simp only [Endpoint.step, Endpoint.submit] at taken
          split at taken
          · split at taken
            · cases taken
            · split at taken
              · cases taken
                exact { granted with tested := fun past => by cases past }
              · cases taken
                exact { granted with tested := fun past => by cases past }
          · cases taken
      | loadWindow =>
          simp only [Endpoint.step, Endpoint.loadWindow] at taken
          split at taken
          · rename_i room
            cases taken
            exact granted.phase fun _ => granted.tested (by rw [room]; rfl)
          · cases taken
      | place path now =>
          simp only [Endpoint.step, Endpoint.place] at taken
          split at taken
          · rename_i rest _
            cases taken
            refine { granted with tested := ?_ }
            intro past
            simp only [Endpoint.placePiece, SendPhase.next] at past
            split at past <;> cases past
          · cases taken
      | giveUp =>
          simp only [Endpoint.step, Endpoint.giveUp] at taken
          split at taken
          · cases taken
            exact granted.phase fun past => by cases past
          · cases taken
            exact granted.phase fun past => by cases past
          · cases taken
      | transmit index path now =>
          simp only [Endpoint.step, Endpoint.transmit] at taken
          split at taken
          · cases taken
          · split at taken
            · cases taken
            · cases taken
              exact { granted with }
      | closeSend path =>
          obtain ⟨_, rest⟩ := closeSend_cases taken
          have stopped : Granted { e with phase := .stopped [] } peer :=
            granted.phase fun past => by cases past
          rcases rest with rfl | ⟨_, st, close, ending, rfl⟩
          · exact stopped
          · have flagged : Granted { e with
                st := { e.st with sendFinSent := true }, phase := .stopped [] } peer :=
              { stopped with }
            exact flagged.senderKept { ending.toSendKept with
              phase := rfl, pieces := rfl, written := rfl, applied := rfl }
      | resendClose | sendOpen | appTake | appRead | appGone | tuneRecvCap | expireRecvCloses
      | expireEarlyData | resetStream | reapHalfClosed | reapStream => cases sends

theorem granted_handleFrame (granted : Granted e peer) (path : Nat) {frame : Frame}
    (now : Nat) (inputs : CapInputs)
    (honest : ∀ ack, frame = .streamAck ack → e.live = true →
      max e.st.sendAcked ack.ackedOffset + ack.window ≤ largestEdge e peer) :
    Granted (e.handleFrame path frame now inputs).1 peer := by
  by_cases isAck : ∃ ack, frame = .streamAck ack
  · obtain ⟨ack, rfl⟩ := isAck
    have kept := receiverKept_ack (e := e) path ack now inputs
    rw [handleFrame_ack] at kept ⊢
    cases live : e.live with
    | false => exact granted
    | true =>
        rw [live] at kept
        have edges := @largestEdge_mono e peer _ peer kept.initialWindow fun _ held => held
        have acked := ackKept_onAck e.st ack now
        refine ⟨?_, ?_, ?_⟩
        · exact (acked.sendNext.trans_le granted.next).trans edges
        · refine le_trans ?_ edges
          simp only [if_true, onAck_sendAcked, onAck_sendWindow]
          exact honest ack rfl live
        · intro past
          have tested := granted.tested past
          exact (Nat.succ_le_succ acked.sendNext.le).trans (tested.trans edges)
  · exact granted.senderKept
      (senderKept_handleFrame path now inputs fun ack same => isAck ⟨ack, same⟩)

end

/-! ## Runs -/

theorem granted_initial {link : Link} (initial : Link.Initial link) (side : Side) :
    Granted (link.endAt side) (link.endAt side.other) := by
  obtain ⟨id, openWindow, openChan, acceptWindow, acceptChan, -, -, rfl⟩ := initial
  cases side
  · exact ⟨Nat.zero_le _, (Nat.zero_add _).le, fun past => by cases past⟩
  · exact ⟨Nat.zero_le _, (Nat.zero_add _).le, fun past => by cases past⟩

theorem granted_run_step {link next : Link} (sound : Sound link)
    (granted : ∀ side, Granted (link.endAt side) (link.endAt side.other)) {action : LinkAction}
    (honest : link.windowHonest action = true) (taken : link.step action = some next) :
    ∀ side, Granted (next.endAt side) (next.endAt side.other) := by
  refine Link.directional_step taken granted ?_ ?_
  · intro side result acts
    cases acts with
    | alone stepped =>
        refine granted_step (granted side) (sound.flows side) ?_ stepped
        rintro rfl rest window loaded
        simp only [Link.windowHonest, loaded, decide_eq_true_iff] at honest
        exact honest
    | @arrival index now inputs f found =>
        refine granted_handleFrame (granted f.dest) f.path now inputs ?_
        obtain ⟨dest, path, frame⟩ := f
        rintro ack rfl live
        simp only [Link.windowHonest, found, live, Bool.not_true, Bool.false_or,
          decide_eq_true_iff] at honest
        exact honest
  · intro side result acts
    have before := granted side.other
    rw [Side.other_other] at before
    exact before.receives (sound.keeps acts).acks

/-- In every run in which no stale window is combined with a newer offset, `sendNext` stays
within the largest right edge granted so far. -/
theorem sendNext_le_largestEdge {link : Link}
    (reachable : Link.machine.ReachableWhen (fun link action => link.windowHonest action = true)
      link) (side : Side) :
    (link.endAt side).st.sendNext ≤ largestEdge (link.endAt side) (link.endAt side.other) := by
  have granted : ∀ side, Granted (link.endAt side) (link.endAt side.other) := by
    refine reachable.invariant_of
      (fun link => ∀ side, Granted (link.endAt side) (link.endAt side.other))
      (fun _ reached => sound_of_reachable reached.reachable) ?_ ?_
    · exact fun _ initial => granted_initial initial
    · exact fun _ _ _ sound held honest taken => granted_run_step sound held honest taken
  exact (granted side).next

/-- One byte sent, acknowledged in order, and two more sent. -/
theorem sendNext_le_largestEdge_in_order :
    ∃ link, Link.machine.ReachableWhen (fun link action => link.windowHonest action = true) link ∧
      link.opener.st.sendNext = 3 ∧
      (link.endAt .opener).st.sendNext ≤ largestEdge (link.endAt .opener)
        (link.endAt .acceptor) := by
  have reached : ∃ link, Link.machine.runWhen (fun link action => link.windowHonest action = true)
      freshLink (openSchedule ++ sendSchedule .opener [7] ++ [.arrive 0 0 ⟨0, 0⟩,
        .arrive 0 0 ⟨0, 0⟩] ++ sendSchedule .opener [8, 9]) = some link ∧
      link.opener.st.sendNext = 3 := ⟨_, rfl, rfl⟩
  obtain ⟨link, replayed, sent⟩ := reached
  have reachable := Machine.ReachableWhen.runWhen freshLink_started replayed
  exact ⟨link, reachable, sent, sendNext_le_largestEdge reachable .opener⟩

/-- Two bytes travel on two paths, the second ACK overtakes the first, and the first one's
window is then added to the second one's offset. -/
def staleWindowSchedule : List LinkAction :=
  [.pathUp 1, .pathUp 2] ++ openSchedule ++
    cutSchedule .opener [7] ++ [.act .opener (.place 1 0), .arrive 0 0 ⟨0, 0⟩] ++
    cutSchedule .opener [8] ++ [.act .opener (.place 2 0), .arrive 1 0 ⟨0, 0⟩] ++
    [.arrive 1 0 ⟨0, 0⟩, .arrive 0 0 ⟨0, 0⟩] ++
    cutSchedule .opener [1, 2, 3, 4, 5, 6, 7, 8, 9]

/-- The sender cuts a byte beyond every edge it was granted. -/
theorem sendNext_passes_largestEdge :
    ¬ ∀ link, Link.machine.Reachable link → ∀ side,
      (link.endAt side).st.sendNext ≤
        largestEdge (link.endAt side) (link.endAt side.other) := by
  intro always
  have reached : ∃ link, Link.machine.run freshLink staleWindowSchedule = some link ∧
      (link.endAt .opener).st.sendNext = 11 ∧
      largestEdge (link.endAt .opener) (link.endAt .acceptor) = 10 := ⟨_, rfl, rfl, rfl⟩
  obtain ⟨link, replayed, sent, edge⟩ := reached
  have bound := always link (freshLink_reachable.run replayed) .opener
  rw [sent, Side.other, edge] at bound
  omega

end NyaLink
