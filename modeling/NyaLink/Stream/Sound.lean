import NyaLink.Stream.Flow

/-!
# Every step keeps both flows

One lemma per step of an endpoint, and from these the same for a whole step and
for the handling of any frame that the peer emitted.
-/

namespace NyaLink

open StreamState

section

variable {e peer : Endpoint}

theorem Emitted.mono {before after : Endpoint} {frame : Frame} (emitted : Emitted before frame)
    (pieces : before.pieces <+: after.pieces) (acks : ∀ ack ∈ before.acks, ack ∈ after.acks) :
    Emitted after frame := by
  cases frame with
  | streamData data =>
      obtain ⟨more, extended⟩ := pieces
      simp only [Emitted, ← extended]
      exact SegmentAt.append emitted more
  | streamAck ack => exact acks ack emitted
  | streamOpen | streamClose | streamReset => trivial

/-! ## The send loop -/

/-- A step of the send loop: what is left to show is the flow it sends into. -/
theorem keeps_sending {after : Endpoint} {output : Output} (receiving : Flow peer e)
    (kept : ReceiverKept e after) (sending : Flow after peer) (pieces : e.pieces <+: after.pieces)
    (emitted : ∀ sent ∈ output, Emitted after sent.2) : Keeps e peer (after, output) where
  asSender := sending
  asReceiver := receiving.receiverKept kept
  emitted := emitted
  pieces := pieces
  advances := kept.toRecvKept.advances
  acks := by
    rw [kept.acks]
    exact fun ack membership => membership
  initialWindow := kept.initialWindow

theorem flow_submit (sending : Flow e peer) {data : Bytes} {result : Endpoint × Output}
    (taken : e.submit data = some result) :
    Flow result.1 peer ∧ e.pieces <+: result.1.pieces ∧ result.2 = [] := by
  simp only [Endpoint.submit] at taken
  split at taken
  · rename_i idle
    split at taken
    · cases taken
    · split at taken
      · cases taken
        exact ⟨sending.submit idle data rfl rfl, List.prefix_rfl, rfl⟩
      · cases taken
        exact ⟨sending.submit idle data rfl rfl, List.prefix_rfl, rfl⟩
  · cases taken

theorem flow_testWindow (sending : Flow e peer) {result : Endpoint × Output}
    (taken : e.testWindow = some result) :
    Flow result.1 peer ∧ e.pieces <+: result.1.pieces ∧ result.2 = [] := by
  simp only [Endpoint.testWindow] at taken
  split at taken
  · rename_i rest window
    split at taken
    · cases taken
      exact ⟨sending.phase (by rw [window]; rfl) (by rw [window]; rfl), List.prefix_rfl, rfl⟩
    · split at taken
      · cases taken
        exact ⟨sending.phase (by rw [window]; rfl) (by rw [window]; rfl), List.prefix_rfl, rfl⟩
      · cases taken
  · cases taken

theorem flow_loadWindow (sending : Flow e peer) {result : Endpoint × Output}
    (taken : e.loadWindow = some result) :
    Flow result.1 peer ∧ e.pieces <+: result.1.pieces ∧ result.2 = [] := by
  simp only [Endpoint.loadWindow] at taken
  split at taken
  · rename_i rest room
    cases taken
    exact ⟨sending.phase (by rw [room]; rfl) (by rw [room]; rfl), List.prefix_rfl, rfl⟩
  · cases taken

theorem flow_cut (sending : Flow e peer) {result : Endpoint × Output}
    (taken : e.cut = some result) :
    Flow result.1 peer ∧ e.pieces <+: result.1.pieces ∧ result.2 = [] := by
  simp only [Endpoint.cut] at taken
  split at taken
  · rename_i rest window loaded
    split at taken
    · cases taken
    · rename_i filled
      cases taken
      exact ⟨sending.cutPiece loaded filled, List.prefix_append _ _, rfl⟩
  · cases taken

theorem flow_giveUp (sending : Flow e peer) {result : Endpoint × Output}
    (taken : e.giveUp = some result) :
    Flow result.1 peer ∧ e.pieces <+: result.1.pieces ∧ result.2 = [] := by
  simp only [Endpoint.giveUp] at taken
  split at taken
  · rename_i rest window
    cases taken
    exact ⟨sending.phase (by rw [window]; rfl) (by rw [window]; rfl), List.prefix_rfl, rfl⟩
  · rename_i offset piece rest placing
    cases taken
    exact ⟨sending.phase (by rw [placing]; rfl) (by rw [placing]; rfl), List.prefix_rfl, rfl⟩
  · cases taken

theorem keeps_place (sending : Flow e peer) (receiving : Flow peer e) {path now : Nat}
    {result : Endpoint × Output} (taken : e.place path now = some result) :
    Keeps e peer result := by
  have kept := @sendLoopKept_step e (.place path now) result rfl taken
  simp only [Endpoint.place] at taken
  split at taken
  · rename_i offset piece rest placing
    cases taken
    have segment := sending.inHand offset piece (by rw [placing]; rfl)
    refine keeps_sending receiving kept.toReceiverKept (sending.placePiece placing path now)
      List.prefix_rfl ?_
    intro sent membership
    rw [List.mem_singleton.mp membership]
    exact segment
  · cases taken

theorem segmentAt_getElem {chunks : List Bytes} {index : Nat} {piece : Bytes}
    (found : chunks[index]? = some piece) :
    SegmentAt chunks (chunks.take index).flatten.length piece := by
  obtain ⟨bounded, rfl⟩ := List.getElem?_eq_some_iff.mp found
  refine ⟨chunks.take index, chunks.drop (index + 1), ?_, rfl⟩
  rw [List.getElem_cons_drop, List.take_append_drop]

theorem keeps_transmit (sending : Flow e peer) (receiving : Flow peer e)
    {index path now : Nat} {result : Endpoint × Output}
    (taken : e.transmit index path now = some result) : Keeps e peer result := by
  have kept := @sendLoopKept_step e (.transmit index path now) result rfl taken
  simp only [Endpoint.transmit] at taken
  split at taken
  · cases taken
  · rename_i piece found
    split at taken
    · cases taken
    · cases taken
      refine keeps_sending receiving kept.toReceiverKept (sending.reassign _ fun _ => rfl)
        List.prefix_rfl ?_
      intro sent membership
      rw [List.mem_singleton.mp membership]
      exact segmentAt_getElem found

theorem keeps_closeSend (sending : Flow e peer) (receiving : Flow peer e) {path : Nat}
    {result : Endpoint × Output} (taken : e.closeSend path = some result) :
    Keeps e peer result := by
  have kept := @sendLoopKept_step e (.closeSend path) result rfl taken
  obtain ⟨idle, rest⟩ := closeSend_cases taken
  have stopped : Flow { e with phase := .stopped [] } peer :=
    sending.phase (by rw [idle]; rfl) (by rw [idle]; rfl)
  rcases rest with rfl | ⟨_, st, close, ending, rfl⟩
  · exact keeps_sending receiving kept.toReceiverKept stopped List.prefix_rfl (by simp)
  · have flagged : Flow { e with
        st := { e.st with sendFinSent := true }, phase := .stopped [] } peer :=
      { stopped with }
    refine keeps_sending receiving kept.toReceiverKept
      (flagged.senderKept { ending.toSendKept with
        phase := rfl, pieces := rfl, written := rfl, applied := rfl }) List.prefix_rfl ?_
    intro sent membership
    rw [List.mem_singleton.mp membership]
    trivial

/-! ## The receive side -/

/-- A step outside the send loop: what is left to show is the flow it receives from. -/
theorem keeps_receiving {after : Endpoint} {output : Output} (sending : Flow e peer)
    (kept : SenderKept e after) (receiving : Flow peer after) (advances : Advances e.st after.st)
    (acks : ∀ ack ∈ e.acks, ack ∈ after.acks)
    (emitted : ∀ sent ∈ output, Emitted after sent.2) : Keeps e peer (after, output) where
  asSender := sending.senderKept kept
  asReceiver := receiving
  emitted := emitted
  pieces := kept.pieces.symm ▸ List.prefix_rfl
  advances := advances
  acks := acks
  initialWindow := kept.initialWindow

theorem keeps_refl (sending : Flow e peer) (receiving : Flow peer e) : Keeps e peer (e, []) :=
  keeps_receiving sending (SenderKept.refl e) receiving (Advances.refl e.st)
    (fun _ held => held) (by simp)

/-- A control frame of the endpoint, without a change of its state. -/
theorem keeps_control (sending : Flow e peer) (receiving : Flow peer e) {path : Nat}
    {frame : Frame} (control : Emitted e frame) : Keeps e peer (e, [(path, frame)]) := by
  refine keeps_receiving sending (SenderKept.refl e) receiving (Advances.refl e.st)
    (fun _ held => held) ?_
  intro sent membership
  rw [List.mem_singleton.mp membership]
  exact control

theorem keeps_ending (sending : Flow e peer) (receiving : Flow peer e) {st : StreamState}
    (ending : Ending e.st st) : Keeps e peer ({ e with st := st }, []) :=
  keeps_receiving sending (SenderKept.ofSt ending.toSendKept)
    (receiving.receiverKept (ReceiverKept.ofSt ending.toRecvKept)) ending.toRecvKept.advances
    (fun _ held => held) (by simp)

theorem keeps_finish (sending : Flow e peer) (receiving : Flow peer e) (path : Nat)
    {result : StreamState × Option StreamReset} (ending : Ending e.st result.1) :
    Keeps e peer (e.finish path result) := by
  refine { keeps_ending sending receiving ending with emitted := ?_ }
  intro sent membership
  obtain ⟨reset, -, rfl⟩ := List.mem_map.mp membership
  trivial

/-- The receive side changed without an ACK. -/
theorem keeps_silently {after : Endpoint} (sending : Flow e peer) (receiving : Flow peer e)
    (kept : SenderKept e after)
    (received : Receiving peer.pieces after.appRead (after.taken.getD 0) after.st)
    (advances : Advances e.st after.st) (acks : after.acks = e.acks)
    (early : ∀ entry ∈ after.early, entry ∈ e.early ∨
      SegmentAt peer.pieces entry.2.offset entry.2.data) : Keeps e peer (after, []) := by
  refine keeps_receiving sending kept (receiving.receive received advances ?_ early) advances ?_
    (by simp)
  · rw [acks]
    exact fun _ => .inl
  · rw [acks]
    exact fun _ held => held

theorem keeps_appTake (sending : Flow e peer) (receiving : Flow peer e)
    {result : Endpoint × Output} (taken : e.appTake = some result) : Keeps e peer result := by
  have kept := @senderKept_step e .appTake result rfl taken
  have owed := receiving.receiving.owed
  simp only [Endpoint.appTake] at taken
  split at taken
  · rename_i bytes rest _ none queue
    cases taken
    refine keeps_silently sending receiving kept ?_ { Advances.refl e.st with } rfl fun _ => .inl
    refine { receiving.receiving with owed := ?_ }
    simp only [Inbox.queuedBytes, queue, none, List.flatMap_cons, Inbound.payload,
      List.length_append, Option.getD] at owed ⊢
    omega
  · rename_i message rest _ _ none queue
    cases taken
    refine keeps_silently sending receiving kept ?_ { Advances.refl e.st with } rfl fun _ => .inl
    refine { receiving.receiving with owed := ?_ }
    have shorter : (rest.flatMap Inbound.payload).length ≤ e.st.inbound.queuedBytes := by
      simp [Inbox.queuedBytes, queue]
    exact (Nat.add_le_add_left shorter _).trans owed
  · cases taken

theorem keeps_reportRead (sending : Flow e peer) (receiving : Flow peer e)
    {inputs : CapInputs} {result : Endpoint × Output}
    (taken : e.reportRead inputs = some result) : Keeps e peer result := by
  have kept := senderKept_reportRead taken
  simp only [Endpoint.reportRead] at taken
  split at taken
  · rename_i n held
    have before := receiving.receiving
    rw [held] at before
    split at taken
    · cases taken
      refine keeps_receiving sending kept
        (receiving.receive (receiving_noteAppRead before inputs)
          (advances_noteAppRead e.st n inputs) ?_ fun _ => .inl)
        (advances_noteAppRead e.st n inputs)
        (fun ack membership => List.mem_append_right _ membership) ?_
      · intro ack membership
        rcases List.mem_cons.mp membership with rfl | old
        · rw [noteAppRead_ack]
          exact .inr (justifies_ackFrame _)
        · exact .inl old
      · intro sent membership
        rw [List.mem_singleton.mp membership]
        exact List.mem_cons_self
    · cases taken
      exact keeps_silently sending receiving kept before.unreported (Advances.refl _) rfl
        fun _ => .inl
  · cases taken

theorem keeps_appGone (sending : Flow e peer) (receiving : Flow peer e)
    {result : Endpoint × Output} (taken : e.appGone = some result) : Keeps e peer result := by
  have kept := @senderKept_step e .appGone result rfl taken
  simp only [Endpoint.appGone] at taken
  split at taken
  · cases taken
    exact keeps_silently sending receiving kept { receiving.receiving.unreported with }
      { Advances.refl e.st with } rfl fun _ => .inl
  · cases taken

/-- Every step of an endpoint on its own keeps both flows. -/
theorem keeps_step (sending : Flow e peer) (receiving : Flow peer e) {action : LocalAction}
    {result : Endpoint × Output} (taken : e.step action = some result) :
    Keeps e peer result := by
  have silent : ∀ {result : Endpoint × Output}, ReceiverKept e result.1 →
      Flow result.1 peer ∧ e.pieces <+: result.1.pieces ∧ result.2 = [] →
      Keeps e peer result := by
    rintro ⟨after, output⟩ kept ⟨flow, pieces, rfl⟩
    exact keeps_sending receiving kept flow pieces (by simp)
  cases action with
  | submit data =>
      exact silent (sendLoopKept_step rfl taken).toReceiverKept (flow_submit sending taken)
  | testWindow =>
      exact silent (sendLoopKept_step rfl taken).toReceiverKept (flow_testWindow sending taken)
  | loadWindow =>
      exact silent (sendLoopKept_step rfl taken).toReceiverKept (flow_loadWindow sending taken)
  | cut => exact silent (sendLoopKept_step rfl taken).toReceiverKept (flow_cut sending taken)
  | place path now => exact keeps_place sending receiving taken
  | giveUp => exact silent (sendLoopKept_step rfl taken).toReceiverKept (flow_giveUp sending taken)
  | transmit index path now => exact keeps_transmit sending receiving taken
  | closeSend path => exact keeps_closeSend sending receiving taken
  | resendClose path =>
      simp only [Endpoint.step, Endpoint.resendClose] at taken
      split at taken
      · cases taken
        exact keeps_control sending receiving trivial
      · cases taken
  | sendOpen target path =>
      simp only [Endpoint.step, Endpoint.sendOpen] at taken
      split at taken
      · cases taken
        exact keeps_control sending receiving trivial
      · cases taken
  | appTake => exact keeps_appTake sending receiving taken
  | appRead inputs => exact keeps_reportRead sending receiving taken
  | appGone => exact keeps_appGone sending receiving taken
  | tuneRecvCap inputs =>
      have kept := senderKept_step rfl taken
      simp only [Endpoint.step] at taken
      split at taken
      · cases taken
        exact keeps_silently sending receiving kept { receiving.receiving with }
          { Advances.refl e.st with } rfl fun _ => .inl
      · cases taken
  | expireRecvCloses =>
      simp only [Endpoint.step] at taken
      split at taken
      · cases taken
        exact keeps_ending sending receiving (ending_tryFinishRecvClose e.st)
      · cases taken
  | expireEarlyData count =>
      have kept := senderKept_step rfl taken
      cases taken
      exact keeps_silently sending receiving kept receiving.receiving (Advances.refl _) rfl
        fun _ membership => .inl (List.mem_of_mem_drop membership)
  | resetStream reason path =>
      simp only [Endpoint.step] at taken
      split at taken
      · cases taken
        exact keeps_finish sending receiving path (ending_finishStream e.st reason _)
      · cases taken
  | reapHalfClosed path =>
      simp only [Endpoint.step] at taken
      split at taken
      · cases taken
        exact keeps_finish sending receiving path (reaped_reapHalfClosed e.st _ _).ending
      · cases taken
  | reapStream path =>
      simp only [Endpoint.step] at taken
      split at taken
      · cases taken
        exact keeps_finish sending receiving path (reaped_reapStream e.st _).ending
      · cases taken

/-! ## Arriving frames -/

theorem keeps_deliver (sending : Flow e peer) (receiving : Flow peer e) (path : Nat)
    {data : StreamData} (segment : SegmentAt peer.pieces data.offset data.data)
    (inputs : CapInputs) : Keeps e peer (e.deliver path data inputs) := by
  refine keeps_receiving sending (senderKept_deliver path data inputs)
    (receiving.deliver path segment inputs)
    (advances_deliverData receiving.receiving receiving.nonempty path segment inputs)
    (fun ack membership => List.mem_append_right _ membership) ?_
  intro sent membership
  obtain ⟨ack, produced, rfl⟩ := List.mem_map.mp membership
  exact List.mem_append_left _ produced

/-- Early DATA is replayed piece by piece. -/
theorem keeps_replayEarly (inputs : CapInputs) (early : List (Nat × StreamData))
    {e : Endpoint} (sending : Flow e peer) (receiving : Flow peer e)
    (segments : ∀ entry ∈ early, SegmentAt peer.pieces entry.2.offset entry.2.data) :
    Keeps e peer (Endpoint.replayEarly inputs early e) := by
  induction early generalizing e with
  | nil => exact keeps_refl sending receiving
  | cons entry rest inductionHypothesis =>
      have first : Keeps e peer
          (if e.live then e.deliver entry.1 entry.2 inputs else (e, [])) := by
        split
        · exact keeps_deliver sending receiving entry.1 (segments entry (by simp)) inputs
        · exact keeps_refl sending receiving
      have others := inductionHypothesis first.asSender first.asReceiver
        fun other membership => segments other (by simp [membership])
      refine ⟨others.asSender, others.asReceiver, ?_, first.pieces.trans others.pieces,
        first.advances.trans others.advances,
        fun ack membership => others.acks ack (first.acks ack membership),
        others.initialWindow.trans first.initialWindow⟩
      intro sent membership
      rcases List.mem_append.mp membership with inFirst | inOthers
      · exact (first.emitted sent inFirst).mono others.pieces others.acks
      · exact others.emitted sent inOthers

/-- Every frame the peer emitted is handled so that both flows are kept. -/
theorem keeps_handleFrame (sending : Flow e peer) (receiving : Flow peer e) (path : Nat)
    {frame : Frame} (emitted : Emitted peer frame) (now : Nat) (inputs : CapInputs) :
    Keeps e peer (e.handleFrame path frame now inputs) := by
  cases frame with
  | streamOpen body =>
      simp only [Endpoint.handleFrame, Endpoint.acceptRemoteStream]
      split
      · exact keeps_refl sending receiving
      · have accepted : Keeps e peer ({ e with accepted := true, early := [] }, []) :=
          keeps_silently sending receiving { SenderKept.refl e with } receiving.receiving
            (Advances.refl _) rfl (by simp)
        have replayed := keeps_replayEarly inputs e.early accepted.asSender accepted.asReceiver
          receiving.early
        exact { replayed with }
  | streamData data =>
      simp only [Endpoint.handleFrame]
      split
      · exact keeps_deliver sending receiving path emitted inputs
      · refine keeps_silently sending receiving { SenderKept.refl e with } receiving.receiving
          (Advances.refl _) rfl ?_
        intro entry membership
        rcases List.mem_append.mp membership with old | new
        · exact .inl old
        · rw [List.mem_singleton.mp new]
          exact .inr emitted
  | streamAck ack =>
      have kept := receiverKept_ack (e := e) path ack now inputs
      rw [handleFrame_ack] at kept ⊢
      split at kept
      · rename_i live
        rw [if_pos live]
        exact keeps_sending receiving kept (sending.onAck emitted now) List.prefix_rfl (by simp)
      · rename_i absent
        rw [if_neg absent]
        exact keeps_refl sending receiving
  | streamClose close =>
      simp only [Endpoint.handleFrame]
      split
      · exact keeps_ending sending receiving (ending_onPeerClose e.st close)
      · exact keeps_refl sending receiving
  | streamReset reset =>
      simp only [Endpoint.handleFrame]
      split
      · exact keeps_ending sending receiving (ending_finishStream e.st reset.reason _)
      · exact keeps_refl sending receiving

end

end NyaLink
