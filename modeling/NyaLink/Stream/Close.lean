import NyaLink.Stream.State

/-!
# Ending a stream

FIN in both directions, reset, and the reaping of half-closed streams.  Every
function here only ends things: `Ending` states once what they leave alone, and
that a stream loses its unacked pieces exactly by leaving the table.
-/

namespace NyaLink.StreamState

/-- `remove_held_stream`, as far as the stream itself goes. -/
def removeHeldStream (st : StreamState) : StreamState :=
  if st.gone then st else { st with sticky := 0, unacked := .empty, gone := true }

def observeStreamEnd (st : StreamState) : StreamState :=
  if st.stalled then { st with stalled := false, stallFromMs := 0 } else st

/-- The compare-exchange on `counted_close` and the accounting of its winner. -/
def countClose (st : StreamState) : StreamState :=
  if st.countedClose then st else { st with countedClose := true }.observeStreamEnd

def maybeCountGraceful (st : StreamState) : StreamState :=
  if !st.sendFinSent || !st.recvFin then st else st.countClose.removeHeldStream

/-- Set `recv_fin`; the first to do so puts the Close on the inbound channel. -/
def setRecvFin (st : StreamState) : StreamState :=
  if st.recvFin then st else { st with recvFin := true, inbound := st.inbound.offer .close }

def unstick (st : StreamState) : StreamState := { st with sticky := 0 }

def applyRecvFin (st : StreamState) : StreamState :=
  st.setRecvFin.unstick.maybeCountGraceful

def tryFinishRecvClose (st : StreamState) : StreamState :=
  match st.recvCloseOff with
  | none => st
  | some off => if st.recvFin || decide (st.recvNext < off) then st else st.applyRecvFin

def onPeerClose (st : StreamState) (close : StreamClose) : StreamState :=
  match st.recvCloseOff with
  | some _ => st.tryFinishRecvClose
  | none =>
      { st with recvCloseOff := some (close.finalOffset.getD st.recvNext) }.tryFinishRecvClose

def announceFinal (st : StreamState) (close : StreamClose) : StreamState :=
  match st.recvCloseOff with
  | some _ => st
  | none => { st with recvCloseOff := some (close.finalOffset.getD st.recvNext) }

/-- `close_send`: `none` when the FIN was sent before. -/
def closeSend (st : StreamState) : Option (StreamState × StreamClose) :=
  if st.sendFinSent then none
  else some ({ st with sendFinSent := true }.unstick.maybeCountGraceful,
    { streamId := st.id, finalOffset := some st.sendNext })

/-- `openPending` says whether the session's `opens` table still holds the stream. -/
def overlayProgressFine (st : StreamState) (openPending : Bool) : Bool :=
  if st.sendAcked < st.sendNext then false
  else if st.recvCloseOff.any fun off => st.recvNext < off then false
  else if st.recvFin then true
  else if !st.sendFinSent then false
  else !openPending

/-- The first reset of a stream tells the application, unless the peer's reset follows its
FIN on a stream that has made all its progress. -/
def setReset (st : StreamState) (reason : ResetReason) (openPending : Bool) : StreamState :=
  if st.reset then st
  else if st.recvFin && st.overlayProgressFine openPending then { st with reset := true }
  else { st with reset := true, inbound := st.inbound.offer (.reset reason) }

def finishStream (st : StreamState) (reason : ResetReason) (openPending : Bool) : StreamState :=
  (st.setReset reason openPending).countClose.removeHeldStream

def lingerReapProgressFine (st : StreamState) (openPending : Bool) : StreamState :=
  if !st.overlayProgressFine openPending then st.finishStream .timeout openPending
  else if st.countedClose then st
  else st.countClose.setRecvFin.removeHeldStream

/-- `residual_d_client`, with the frame it sends on the wire. -/
def residualDClient (st : StreamState) (openPending : Bool) :
    StreamState × Option StreamReset :=
  if st.recvFin || !st.overlayProgressFine openPending then
    if st.overlayProgressFine openPending then (st.lingerReapProgressFine openPending, none)
    else (st.finishStream .timeout openPending, some ⟨st.id, .timeout⟩)
  else if st.countedClose then (st, none)
  else (st.countClose.setRecvFin.removeHeldStream, some ⟨st.id, .timeout⟩)

/-- One half-closed stream in `reap_closed_streams`, past its linger. -/
def reapHalfClosed (st : StreamState) (isClient openPending : Bool) :
    StreamState × Option StreamReset :=
  if st.countedClose || st.reset then (st.removeHeldStream, none)
  else if !st.sendFinSent && !st.recvFin then (st, none)
  else if st.overlayProgressFine openPending then
    if st.recvFin || !isClient then (st.lingerReapProgressFine openPending, none)
    else st.residualDClient openPending
  else (st.finishStream .timeout openPending, some ⟨st.id, .timeout⟩)

/-- `reap_stream`, when both loops of the pump have ended. -/
def reapStream (st : StreamState) (openPending : Bool) : StreamState × Option StreamReset :=
  if st.countedClose then (st.removeHeldStream, none)
  else if st.sendFinSent && st.recvFin then (st.maybeCountGraceful, none)
  else if st.overlayProgressFine openPending then (st, none)
  else (st.finishStream .timeout openPending, some ⟨st.id, .timeout⟩)

/-! ## What a reap does -/

/-- What the reaping of a half-closed or finished stream leaves of it. -/
inductive Reaped (st : StreamState) (openPending : Bool) : StreamState → Prop where
  | kept : Reaped st openPending st
  | removed : Reaped st openPending st.removeHeldStream
  | counted : Reaped st openPending st.maybeCountGraceful
  | quiet (fine : st.overlayProgressFine openPending = true) (running : st.countedClose = false) :
      Reaped st openPending st.countClose.setRecvFin.removeHeldStream
  | reset : Reaped st openPending (st.finishStream .timeout openPending)

theorem reaped_lingerReapProgressFine (st : StreamState) (openPending : Bool) :
    Reaped st openPending (st.lingerReapProgressFine openPending) := by
  unfold lingerReapProgressFine
  cases fine : st.overlayProgressFine openPending with
  | false => exact .reset
  | true =>
      simp only [Bool.not_true, Bool.false_eq_true, if_false]
      split
      · exact .kept
      · rename_i running
        exact .quiet fine (Bool.of_not_eq_true running)

theorem reaped_residualDClient (st : StreamState) (openPending : Bool) :
    Reaped st openPending (st.residualDClient openPending).1 := by
  unfold residualDClient
  cases fine : st.overlayProgressFine openPending with
  | false =>
      simp only [Bool.not_false, Bool.or_true, if_true, Bool.false_eq_true, if_false]
      exact .reset
  | true =>
      simp only [Bool.not_true, Bool.or_false, if_true]
      split
      · exact reaped_lingerReapProgressFine st openPending
      · split
        · exact .kept
        · rename_i running
          exact .quiet fine (Bool.of_not_eq_true running)

theorem reaped_reapHalfClosed (st : StreamState) (isClient openPending : Bool) :
    Reaped st openPending (st.reapHalfClosed isClient openPending).1 := by
  unfold reapHalfClosed
  split
  · exact .removed
  · split
    · exact .kept
    · split
      · split
        · exact reaped_lingerReapProgressFine st openPending
        · exact reaped_residualDClient st openPending
      · exact .reset

theorem reaped_reapStream (st : StreamState) (openPending : Bool) :
    Reaped st openPending (st.reapStream openPending).1 := by
  unfold reapStream
  split
  · exact .removed
  · split
    · exact .counted
    · split
      · exact .kept
      · exact .reset

/-! ## What ending leaves alone -/

/-- `after` differs from `before` only by flags, by a Close or Reset offered to the
application, and by having left the table together with all unacked pieces. -/
structure Ending (before after : StreamState) : Prop extends
    SendKept before after, RecvKept before after

theorem Ending.refl (st : StreamState) : Ending st st :=
  { SendKept.refl st, RecvKept.refl st with }

theorem Ending.trans {first second third : StreamState} (earlier : Ending first second)
    (later : Ending second third) : Ending first third :=
  { earlier.toSendKept.trans later.toSendKept, earlier.toRecvKept.trans later.toRecvKept with }

theorem Ending.offer {before after : StreamState} (ending : Ending before after)
    {message : Inbound} (empty : message.payload = []) :
    Ending before { after with inbound := after.inbound.offer message } :=
  { ending with
    capacity := (Inbox.capacity_offer _ _).trans ending.capacity
    delivered := (Inbox.delivered_offer empty).trans ending.delivered
    queuedBytes := (Inbox.queuedBytes_offer empty).trans ending.queuedBytes }

theorem ending_removeHeldStream (st : StreamState) : Ending st st.removeHeldStream := by
  simp only [removeHeldStream]
  split
  · exact Ending.refl st
  · exact { Ending.refl st with held := .inr ⟨rfl, rfl⟩ }

theorem ending_countClose (st : StreamState) : Ending st st.countClose := by
  simp only [countClose, observeStreamEnd]
  split
  · exact Ending.refl st
  · split
    · exact { Ending.refl st with }
    · exact { Ending.refl st with }

theorem ending_maybeCountGraceful (st : StreamState) : Ending st st.maybeCountGraceful := by
  simp only [maybeCountGraceful]
  split
  · exact Ending.refl st
  · exact (ending_countClose st).trans (ending_removeHeldStream _)

theorem ending_setRecvFin (st : StreamState) : Ending st st.setRecvFin := by
  simp only [setRecvFin]
  split
  · exact Ending.refl st
  · have flagged : Ending st { st with recvFin := true } := { Ending.refl st with }
    exact flagged.offer rfl

theorem ending_unstick (st : StreamState) : Ending st st.unstick :=
  { Ending.refl st with }

theorem ending_applyRecvFin (st : StreamState) : Ending st st.applyRecvFin :=
  ((ending_setRecvFin st).trans (ending_unstick _)).trans (ending_maybeCountGraceful _)

theorem ending_tryFinishRecvClose (st : StreamState) : Ending st st.tryFinishRecvClose := by
  simp only [tryFinishRecvClose]
  split
  · exact Ending.refl st
  · split
    · exact Ending.refl st
    · exact ending_applyRecvFin st

theorem ending_onPeerClose (st : StreamState) (close : StreamClose) :
    Ending st (st.onPeerClose close) := by
  simp only [onPeerClose]
  split
  · exact ending_tryFinishRecvClose st
  · have announced : Ending st { st with
        recvCloseOff := some (close.finalOffset.getD st.recvNext) } := { Ending.refl st with }
    exact announced.trans (ending_tryFinishRecvClose _)

theorem ending_setReset (st : StreamState) (reason : ResetReason) (openPending : Bool) :
    Ending st (st.setReset reason openPending) := by
  simp only [setReset]
  split
  · exact Ending.refl st
  · have flagged : Ending st { st with reset := true } :=
      { Ending.refl st with reset := fun _ => rfl }
    split
    · exact flagged
    · exact flagged.offer rfl

theorem ending_finishStream (st : StreamState) (reason : ResetReason) (openPending : Bool) :
    Ending st (st.finishStream reason openPending) :=
  ((ending_setReset st reason openPending).trans (ending_countClose _)).trans
    (ending_removeHeldStream _)

theorem Reaped.ending {st after : StreamState} {openPending : Bool}
    (reaped : Reaped st openPending after) : Ending st after := by
  cases reaped with
  | kept => exact Ending.refl st
  | removed => exact ending_removeHeldStream st
  | counted => exact ending_maybeCountGraceful st
  | quiet =>
      exact ((ending_countClose st).trans (ending_setRecvFin _)).trans (ending_removeHeldStream _)
  | reset => exact ending_finishStream st _ _

/-! ## Leaving the table -/

theorem gone_removeHeldStream (st : StreamState) : st.removeHeldStream.gone = true := by
  unfold removeHeldStream
  split
  · assumption
  · rfl

theorem gone_finishStream (st : StreamState) (reason : ResetReason) (openPending : Bool) :
    (st.finishStream reason openPending).gone = true :=
  gone_removeHeldStream _

end NyaLink.StreamState
