import NyaLink.Stream.Delivery

/-!
# What may end a stream

The operations of a session, other than sending and acknowledging, that act on
one stream.  Any of them may be the one that takes the stream out of the table.
-/

namespace NyaLink

/-- `openPending` says whether the `opens` table holds the stream. -/
inductive StreamEvent where
  | data (path : Nat) (body : StreamData) (inputs : CapInputs)
  | appRead (n : Nat) (inputs : CapInputs)
  | closeSend
  | peerClose (close : StreamClose)
  | expireRecvClose
  | reset (reason : ResetReason) (openPending : Bool)
  | reapHalfClosed (isClient openPending : Bool)
  | reapStream (openPending : Bool)
  deriving DecidableEq, Repr

namespace StreamEvent

open StreamState

def apply : StreamEvent → StreamState → StreamState
  | .data path body inputs, st => (st.deliverData path body inputs).1
  | .appRead n inputs, st => (st.noteAppRead n inputs).1
  | .closeSend, st => (st.closeSend.map Prod.fst).getD st
  | .peerClose close, st => st.onPeerClose close
  | .expireRecvClose, st => st.tryFinishRecvClose
  | .reset reason openPending, st => st.finishStream reason openPending
  | .reapHalfClosed isClient openPending, st => (st.reapHalfClosed isClient openPending).1
  | .reapStream openPending, st => (st.reapStream openPending).1

/-! ## Resets -/

theorem reset_removeHeldStream (st : StreamState) : st.removeHeldStream.reset = st.reset := by
  unfold removeHeldStream
  split
  · rfl
  · rfl

theorem reset_countClose (st : StreamState) : st.countClose.reset = st.reset := by
  unfold countClose observeStreamEnd
  split
  · rfl
  · split
    · rfl
    · rfl

theorem reset_maybeCountGraceful (st : StreamState) : st.maybeCountGraceful.reset = st.reset := by
  unfold maybeCountGraceful
  split
  · rfl
  · exact (reset_removeHeldStream _).trans (reset_countClose st)

theorem reset_setRecvFin (st : StreamState) : st.setRecvFin.reset = st.reset := by
  unfold setRecvFin
  split
  · rfl
  · rfl

theorem reset_tryFinishRecvClose (st : StreamState) : st.tryFinishRecvClose.reset = st.reset := by
  unfold tryFinishRecvClose
  split
  · rfl
  · split
    · rfl
    · exact (reset_maybeCountGraceful _).trans (reset_setRecvFin st)

theorem reset_drainRecv (st : StreamState) (inputs : CapInputs) :
    (st.drainRecv inputs).1.reset = st.reset := by
  obtain ⟨tuned, origin, result⟩ := drainRecv_eq st inputs
  have drained : (drainLoop st.recvBuf.size st).reset = st.reset :=
    @drainLoop_induction (fun reached => reached.reset = st.reset) (fun _ _ _ same _ _ => same)
      st.recvBuf.size st rfl
  rw [result, reset_tryFinishRecvClose]
  rcases origin with rfl | rfl
  · exact drained
  · exact drained

/-- A reap resets a stream only by removing it. -/
theorem gone_of_reaped {st after : StreamState} {openPending : Bool}
    (reaped : Reaped st openPending after) (reset : after.reset = true) :
    st.reset = true ∨ after.gone = true := by
  cases reaped with
  | kept => exact .inl reset
  | removed => exact .inr (gone_removeHeldStream st)
  | counted => exact .inl ((reset_maybeCountGraceful st).symm.trans reset)
  | quiet => exact .inr (gone_removeHeldStream _)
  | reset => exact .inr (gone_finishStream st _ _)

/-- Only what removes the stream resets it. -/
theorem apply_reset (event : StreamEvent) (st : StreamState)
    (reset : (event.apply st).reset = true) :
    st.reset = true ∨ (event.apply st).gone = true := by
  cases event with
  | data path body inputs =>
      apply Or.inl
      rw [← reset]
      simp only [apply, deliverData]
      split
      · rfl
      · split
        · rfl
        · split
          · rfl
          · split
            · rfl
            · exact (reset_drainRecv ((st.noteArrival path).bufferChunk body.offset body.data)
                inputs).symm
  | appRead n inputs =>
      exact .inl
        ((reset_drainRecv { st with bufferedIn := st.bufferedIn - n } inputs).symm.trans reset)
  | closeSend =>
      apply Or.inl
      rw [← reset]
      simp only [apply, StreamState.closeSend]
      split
      · rfl
      · exact (reset_maybeCountGraceful { st with sendFinSent := true }.unstick).symm
  | peerClose close =>
      apply Or.inl
      rw [← reset]
      simp only [apply, onPeerClose]
      split
      · exact (reset_tryFinishRecvClose st).symm
      · exact (reset_tryFinishRecvClose { st with
          recvCloseOff := some (close.finalOffset.getD st.recvNext) }).symm
  | expireRecvClose => exact .inl ((reset_tryFinishRecvClose st).symm.trans reset)
  | reset reason openPending => exact .inr (gone_finishStream st reason openPending)
  | reapHalfClosed isClient openPending =>
      exact gone_of_reaped (st.reaped_reapHalfClosed isClient openPending) reset
  | reapStream openPending => exact gone_of_reaped (st.reaped_reapStream openPending) reset

/-- An event does not send; it leaves the pieces alone or removes the stream with all of them. -/
theorem apply_held (event : StreamEvent) (st : StreamState) :
    (event.apply st).sendNext = st.sendNext ∧
      ((event.apply st).gone = st.gone ∧ (event.apply st).unacked = st.unacked ∨
        (event.apply st).gone = true ∧ (event.apply st).unacked = .empty) := by
  have of_sendKept : ∀ {after : StreamState}, SendKept st after → after.sendNext = st.sendNext ∧
      (after.gone = st.gone ∧ after.unacked = st.unacked ∨
        after.gone = true ∧ after.unacked = .empty) :=
    fun kept => ⟨kept.sendNext, kept.held⟩
  cases event with
  | data path body inputs => exact of_sendKept (st.sendKept_deliverData path body inputs)
  | appRead n inputs => exact of_sendKept (st.sendKept_noteAppRead n inputs)
  | closeSend =>
      simp only [apply, StreamState.closeSend]
      split
      · exact of_sendKept (SendKept.refl st)
      · have closed := (ending_unstick { st with sendFinSent := true }).trans
          (ending_maybeCountGraceful _)
        exact ⟨closed.sendNext, closed.held⟩
  | peerClose close => exact of_sendKept (st.ending_onPeerClose close).toSendKept
  | expireRecvClose => exact of_sendKept st.ending_tryFinishRecvClose.toSendKept
  | reset reason openPending =>
      exact of_sendKept (st.ending_finishStream reason openPending).toSendKept
  | reapHalfClosed isClient openPending =>
      exact of_sendKept (st.reaped_reapHalfClosed isClient openPending).ending.toSendKept
  | reapStream openPending => exact of_sendKept (st.reaped_reapStream openPending).ending.toSendKept

end StreamEvent

end NyaLink
