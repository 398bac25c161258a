import NyaLink.Stream.Link

/-!
# What a step of one endpoint leaves alone

A step either advances the send loop, and then the receive side is as before, or
it does not, and then the send side is as before.  Frames are sorted the same
way: only an ACK reaches the send side.
-/

namespace NyaLink

open StreamState

/-- The send side and the books kept on it are as before. -/
structure SenderKept (before after : Endpoint) : Prop extends
    SendKept before.st after.st where
  phase : after.phase = before.phase
  pieces : after.pieces = before.pieces
  written : after.written = before.written
  applied : after.applied = before.applied

/-- The receive side and the books kept on it are as before. -/
structure ReceiverKept (before after : Endpoint) : Prop extends
    RecvKept before.st after.st where
  appRead : after.appRead = before.appRead
  taken : after.taken = before.taken
  acks : after.acks = before.acks
  early : after.early = before.early

/-- The receive side is as before, and so is what the sender knows from ACKs. -/
structure SendLoopKept (before after : Endpoint) : Prop extends ReceiverKept before after where
  sendWindow : after.st.sendWindow = before.st.sendWindow
  sendAcked : after.st.sendAcked = before.st.sendAcked
  applied : after.applied = before.applied

/-- The step belongs to the pump's send loop. -/
def LocalAction.sends : LocalAction → Bool
  | .submit _ => true
  | .testWindow => true
  | .loadWindow => true
  | .cut => true
  | .place _ _ => true
  | .giveUp => true
  | .transmit _ _ _ => true
  | .closeSend _ => true
  | _ => false

section

variable {e : Endpoint}

theorem SenderKept.refl (e : Endpoint) : SenderKept e e :=
  { SendKept.refl e.st with phase := rfl, pieces := rfl, written := rfl, applied := rfl }

theorem SenderKept.trans {first second third : Endpoint} (earlier : SenderKept first second)
    (later : SenderKept second third) : SenderKept first third :=
  { earlier.toSendKept.trans later.toSendKept with
    phase := later.phase.trans earlier.phase
    pieces := later.pieces.trans earlier.pieces
    written := later.written.trans earlier.written
    applied := later.applied.trans earlier.applied }

theorem ReceiverKept.refl (e : Endpoint) : ReceiverKept e e :=
  { RecvKept.refl e.st with appRead := rfl, taken := rfl, acks := rfl, early := rfl }

theorem SendLoopKept.refl (e : Endpoint) : SendLoopKept e e :=
  { ReceiverKept.refl e with sendWindow := rfl, sendAcked := rfl, applied := rfl }

theorem SenderKept.ofSt {st : StreamState} (kept : SendKept e.st st) :
    SenderKept e { e with st := st } :=
  { kept with phase := rfl, pieces := rfl, written := rfl, applied := rfl }

theorem ReceiverKept.ofSt {st : StreamState} (kept : RecvKept e.st st) :
    ReceiverKept e { e with st := st } :=
  { kept with appRead := rfl, taken := rfl, acks := rfl, early := rfl }

theorem senderKept_deliver (path : Nat) (data : StreamData) (inputs : CapInputs) :
    SenderKept e (e.deliver path data inputs).1 :=
  { sendKept_deliverData e.st path data inputs with
    phase := rfl, pieces := rfl, written := rfl, applied := rfl }

theorem senderKept_replayEarly (inputs : CapInputs) (early : List (Nat × StreamData))
    (e : Endpoint) : SenderKept e (Endpoint.replayEarly inputs early e).1 := by
  induction early generalizing e with
  | nil => exact SenderKept.refl e
  | cons entry rest inductionHypothesis =>
      refine SenderKept.trans ?_ (inductionHypothesis _)
      split
      · exact senderKept_deliver entry.1 entry.2 inputs
      · exact SenderKept.refl e

theorem senderKept_appTake {result : Endpoint × Output} (taken : e.appTake = some result) :
    SenderKept e result.1 := by
  simp only [Endpoint.appTake] at taken
  split at taken
  · cases taken
    exact { SenderKept.refl e with }
  · cases taken
    exact { SenderKept.refl e with }
  · cases taken

theorem senderKept_reportRead {inputs : CapInputs} {result : Endpoint × Output}
    (taken : e.reportRead inputs = some result) : SenderKept e result.1 := by
  simp only [Endpoint.reportRead] at taken
  split at taken
  · rename_i n held
    split at taken
    · cases taken
      exact { sendKept_noteAppRead e.st n inputs with
        phase := rfl, pieces := rfl, written := rfl, applied := rfl }
    · cases taken
      exact { SenderKept.refl e with }
  · cases taken

/-- A step outside the send loop leaves the send side alone. -/
theorem senderKept_step {action : LocalAction} {result : Endpoint × Output}
    (other : action.sends = false) (taken : e.step action = some result) :
    SenderKept e result.1 := by
  cases action with
  | submit | testWindow | loadWindow | cut | place | giveUp | transmit | closeSend => cases other
  | resendClose path =>
      simp only [Endpoint.step, Endpoint.resendClose] at taken
      split at taken
      · cases taken
        exact SenderKept.refl e
      · cases taken
  | sendOpen target path =>
      simp only [Endpoint.step, Endpoint.sendOpen] at taken
      split at taken
      · cases taken
        exact SenderKept.refl e
      · cases taken
  | appTake => exact senderKept_appTake taken
  | appRead inputs => exact senderKept_reportRead taken
  | appGone =>
      simp only [Endpoint.step, Endpoint.appGone] at taken
      split at taken
      · cases taken
        exact { SenderKept.refl e with }
      · cases taken
  | tuneRecvCap inputs =>
      simp only [Endpoint.step] at taken
      split at taken
      · cases taken
        exact SenderKept.ofSt (sendKept_tuneRecvCap e.st inputs)
      · cases taken
  | expireRecvCloses =>
      simp only [Endpoint.step] at taken
      split at taken
      · cases taken
        exact SenderKept.ofSt (ending_tryFinishRecvClose e.st).toSendKept
      · cases taken
  | expireEarlyData count =>
      cases taken
      exact { SenderKept.refl e with }
  | resetStream reason path =>
      simp only [Endpoint.step] at taken
      split at taken
      · cases taken
        exact SenderKept.ofSt (ending_finishStream e.st reason _).toSendKept
      · cases taken
  | reapHalfClosed path =>
      simp only [Endpoint.step] at taken
      split at taken
      · cases taken
        exact SenderKept.ofSt (reaped_reapHalfClosed e.st _ _).ending.toSendKept
      · cases taken
  | reapStream path =>
      simp only [Endpoint.step] at taken
      split at taken
      · cases taken
        exact SenderKept.ofSt (reaped_reapStream e.st _).ending.toSendKept
      · cases taken

theorem ending_closeSend {st after : StreamState} {close : StreamClose}
    (closed : st.closeSend = some (after, close)) :
    Ending { st with sendFinSent := true } after := by
  simp only [closeSend] at closed
  split at closed
  · cases closed
  · cases closed
    exact (ending_unstick _).trans (ending_maybeCountGraceful _)

/-- The send loop ends; a stream of the table that has not sent its FIN sends it. -/
theorem closeSend_cases {path : Nat} {result : Endpoint × Output}
    (taken : e.closeSend path = some result) : e.phase = .idle ∧
      (result = ({ e with phase := .stopped [] }, []) ∨
        e.live = true ∧ ∃ st close, Ending { e.st with sendFinSent := true } st ∧
          result = ({ e with st, phase := .stopped [] }, [(path, .streamClose close)])) := by
  unfold Endpoint.closeSend at taken
  split at taken
  · rename_i idle
    refine ⟨idle, ?_⟩
    split at taken
    · rename_i live
      split at taken
      · rename_i st close closed
        cases taken
        exact .inr ⟨live, st, close, ending_closeSend closed, rfl⟩
      · cases taken
        exact .inl rfl
    · cases taken
      exact .inl rfl
  · cases taken

/-- A step of the send loop leaves the receive side alone, and waits for ACKs to move the
window. -/
theorem sendLoopKept_step {action : LocalAction} {result : Endpoint × Output}
    (sends : action.sends = true) (taken : e.step action = some result) :
    SendLoopKept e result.1 := by
  cases action with
  | submit data =>
      simp only [Endpoint.step, Endpoint.submit] at taken
      split at taken
      · split at taken
        · cases taken
        · split at taken
          · cases taken
            exact { SendLoopKept.refl e with }
          · cases taken
            exact { SendLoopKept.refl e with }
      · cases taken
  | testWindow =>
      simp only [Endpoint.step, Endpoint.testWindow] at taken
      split at taken
      · split at taken
        · cases taken
          exact { SendLoopKept.refl e with }
        · split at taken
          · cases taken
            exact { SendLoopKept.refl e with }
          · cases taken
      · cases taken
  | loadWindow =>
      simp only [Endpoint.step, Endpoint.loadWindow] at taken
      split at taken
      · cases taken
        exact { SendLoopKept.refl e with }
      · cases taken
  | cut =>
      simp only [Endpoint.step, Endpoint.cut] at taken
      split at taken
      · split at taken
        · cases taken
        · cases taken
          exact { SendLoopKept.refl e with }
      · cases taken
  | place path now =>
      simp only [Endpoint.step, Endpoint.place] at taken
      split at taken
      · cases taken
        exact { SendLoopKept.refl e with }
      · cases taken
  | giveUp =>
      simp only [Endpoint.step, Endpoint.giveUp] at taken
      split at taken
      · cases taken
        exact { SendLoopKept.refl e with }
      · cases taken
        exact { SendLoopKept.refl e with }
      · cases taken
  | transmit index path now =>
      simp only [Endpoint.step, Endpoint.transmit] at taken
      split at taken
      · cases taken
      · split at taken
        · cases taken
        · cases taken
          exact { SendLoopKept.refl e with }
  | closeSend path =>
      obtain ⟨_, rfl | ⟨_, st, close, ending, rfl⟩⟩ := closeSend_cases taken
      · exact { SendLoopKept.refl e with }
      · exact { ending.toRecvKept with
          appRead := rfl, taken := rfl, acks := rfl, early := rfl, applied := rfl
          sendWindow := ending.sendWindow, sendAcked := ending.sendAcked }
  | resendClose | sendOpen | appTake | appRead | appGone | tuneRecvCap | expireRecvCloses
  | expireEarlyData | resetStream | reapHalfClosed | reapStream => cases sends

theorem senderKept_handleFrame (path : Nat) {frame : Frame} (now : Nat) (inputs : CapInputs)
    (other : ∀ ack, frame ≠ .streamAck ack) :
    SenderKept e (e.handleFrame path frame now inputs).1 := by
  cases frame with
  | streamAck ack => exact absurd rfl (other ack)
  | streamOpen body =>
      simp only [Endpoint.handleFrame, Endpoint.acceptRemoteStream]
      split
      · exact SenderKept.refl e
      · have accepted : SenderKept e { e with accepted := true, early := [] } :=
          { SenderKept.refl e with }
        exact accepted.trans (senderKept_replayEarly inputs e.early _)
  | streamData data =>
      simp only [Endpoint.handleFrame]
      split
      · exact senderKept_deliver path data inputs
      · exact { SenderKept.refl e with }
  | streamClose close =>
      simp only [Endpoint.handleFrame]
      split
      · exact SenderKept.ofSt (ending_onPeerClose e.st close).toSendKept
      · exact SenderKept.refl e
  | streamReset reset =>
      simp only [Endpoint.handleFrame]
      split
      · exact SenderKept.ofSt (ending_finishStream e.st reset.reason _).toSendKept
      · exact SenderKept.refl e

/-- An ACK changes the send side by `on_ack`, if the table holds the stream. -/
theorem handleFrame_ack (path : Nat) (ack : StreamAck) (now : Nat) (inputs : CapInputs) :
    e.handleFrame path (.streamAck ack) now inputs =
      if e.live then
        ({ e with st := e.st.onAck ack now, openPending := false, applied := some ack }, [])
      else (e, []) := rfl

theorem receiverKept_ack (path : Nat) (ack : StreamAck) (now : Nat) (inputs : CapInputs) :
    ReceiverKept e (e.handleFrame path (.streamAck ack) now inputs).1 := by
  rw [handleFrame_ack]
  split
  · exact { (ackKept_onAck e.st ack now).toRecvKept with
      appRead := rfl, taken := rfl, acks := rfl, early := rfl }
  · exact ReceiverKept.refl e

end

end NyaLink
