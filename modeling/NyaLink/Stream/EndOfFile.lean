import NyaLink.Library.Machine
import NyaLink.Stream.Ack

/-!
# End of file

When the application is told that a stream has ended: `Close` on the inbound
channel.  The operations of the receive side are split where they let go of the
stream, so a run is any interleaving of the parts of `deliver_data`,
`note_app_read`, `on_peer_close` and the reaping timers with the pump.  A reap
is one step.
-/

namespace NyaLink

open StreamState

/-- The receive side of a stream, and what the pump took and has not reported as read. -/
structure Receiver where
  st : StreamState
  taken : Option Nat
  deriving DecidableEq

/-- Parts of the operations on a stream of the table.  `openPending` says whether the `opens`
table holds it. -/
inductive RecvPart where
  /-- `deliver_data` up to the drain. -/
  | arrive (path : Nat) (data : StreamData)
  /-- `drain_recv` up to the ACK. -/
  | drain (inputs : CapInputs)
  /-- `try_finish_recv_close`, after a drain, a StreamClose or on a maintain tick. -/
  | lookAtFin
  /-- `on_peer_close` up to its look at the FIN. -/
  | announce (close : StreamClose)
  | send (n : Nat)
  | acked (ack : StreamAck) (now : Nat)
  | closeSend
  | reset (reason : ResetReason) (openPending : Bool)
  | lingerReap (openPending : Bool)
  | residual (openPending : Bool)
  | reapHalfClosed (isClient openPending : Bool)
  | reapStream (openPending : Bool)
  deriving DecidableEq, Repr

inductive RecvAction where
  | part (part : RecvPart)
  | take
  /-- `note_app_read` up to the drain. -/
  | report
  | writeFailed
  deriving DecidableEq, Repr

namespace StreamState

/-- `deliver_data` up to the drain. -/
def bufferArrival (st : StreamState) (path : Nat) (data : StreamData) : StreamState :=
  if st.reset || st.pastFinal data.offset then st
  else
    let st := st.noteArrival path
    if data.offset < st.recvNext then st
    else
      match st.recvBuf.get? data.offset with
      | some old => st.replaceChunk data.offset old data.data
      | none => st.bufferChunk data.offset data.data

theorem deliverData_eq {st : StreamState} {data : StreamData} (path : Nat) (inputs : CapInputs)
    (takes : (st.reset || st.pastFinal data.offset) = false) (ahead : st.recvNext ≤ data.offset)
    (fresh : st.recvBuf.get? data.offset = none) :
    (st.deliverData path data inputs).1 =
      ((st.bufferArrival path data).drainTuned inputs).tryFinishRecvClose := by
  have notReset : st.reset = false := (Bool.or_eq_false_iff.mp takes).1
  have within : st.pastFinal data.offset = false := (Bool.or_eq_false_iff.mp takes).2
  have notBehind : ¬ data.offset < (st.noteArrival path).recvNext := Nat.not_lt.mpr ahead
  have freshArrived : (st.noteArrival path).recvBuf.get? data.offset = none := fresh
  simp only [deliverData, bufferArrival, notReset, within, Bool.or_false, Bool.false_eq_true,
    if_false, if_neg notBehind, freshArrived, drainRecv_fst]

end StreamState

def RecvPart.apply : RecvPart → StreamState → StreamState
  | .arrive path data, st => st.bufferArrival path data
  | .drain inputs, st => st.drainTuned inputs
  | .lookAtFin, st => st.tryFinishRecvClose
  | .announce close, st => st.announceFinal close
  | .send n, st => { st with sendNext := st.sendNext + n }
  | .acked ack now, st => st.onAck ack now
  | .closeSend, st => (st.closeSend.map Prod.fst).getD st
  | .reset reason openPending, st => st.finishStream reason openPending
  | .lingerReap openPending, st => st.lingerReapProgressFine openPending
  | .residual openPending, st => (st.residualDClient openPending).1
  | .reapHalfClosed isClient openPending, st => (st.reapHalfClosed isClient openPending).1
  | .reapStream openPending, st => (st.reapStream openPending).1

namespace Receiver

def new (id initialWindow chan : Nat) : Receiver := ⟨.new id initialWindow chan, none⟩

/-- The pump's receive loop ends with the first message that is not data. -/
def takeMessage (r : Receiver) : Option Receiver :=
  match r.st.inbound.closed, r.taken, r.st.inbound.queue with
  | false, none, .data bytes :: rest =>
      some ⟨{ r.st with inbound := { r.st.inbound with queue := rest } }, some bytes.length⟩
  | false, none, _ :: rest =>
      some { r with st := { r.st with
        inbound := { r.st.inbound with queue := rest, closed := true } } }
  | _, _, _ => none

def report (r : Receiver) : Option Receiver :=
  match r.taken with
  | none => none
  | some n =>
      if r.st.gone then some { r with taken := none }
      else some ⟨{ r.st with bufferedIn := r.st.bufferedIn - n }, none⟩

def writeFailed (r : Receiver) : Option Receiver :=
  match r.taken with
  | none => none
  | some _ => some ⟨{ r.st with inbound := { r.st.inbound with closed := true } }, none⟩

def step (r : Receiver) : RecvAction → Option Receiver
  | .part part => if r.st.gone then none else some { r with st := part.apply r.st }
  | .take => r.takeMessage
  | .report => r.report
  | .writeFailed => r.writeFailed

/-- A new stream, on a channel with at least one slot. -/
def Initial (r : Receiver) : Prop :=
  ∃ id initialWindow chan, 1 ≤ chan ∧ r = new id initialWindow chan

def machine : Machine Receiver RecvAction := ⟨Initial, step⟩

end Receiver

/-! ## The messages of the channel -/

/-- Every Close of the log comes after this many bytes of data. -/
def CloseAfter (log : List Inbound) (bytes : Nat) : Prop :=
  ∀ before after, log = before ++ .close :: after →
    bytes ≤ (before.flatMap Inbound.payload).length

theorem closeAfter_of_not_mem {log : List Inbound} (untold : .close ∉ log) (bytes : Nat) :
    CloseAfter log bytes := by
  intro before after same
  exact absurd (by simp [same]) untold

theorem CloseAfter.concat {log : List Inbound} {bytes : Nat} (held : CloseAfter log bytes)
    {message : Inbound} (other : message ≠ .close) : CloseAfter (log ++ [message]) bytes := by
  intro before after same
  rcases List.eq_nil_or_concat after with rfl | ⟨earlier, last, rfl⟩
  · have lastIs := (List.append_inj' same rfl).2
    exact absurd (List.singleton_inj.mp lastIs) other
  · apply held before earlier
    have same : log ++ [message] = (before ++ .close :: earlier) ++ [last] := by
      rw [same]
      simp
    exact (List.append_inj' same rfl).1

theorem closeAfter_concat_close {log : List Inbound} {bytes : Nat} (untold : .close ∉ log)
    (enough : bytes ≤ (log.flatMap Inbound.payload).length) :
    CloseAfter (log ++ [.close]) bytes := by
  intro before after same
  rcases List.eq_nil_or_concat after with rfl | ⟨earlier, last, rfl⟩
  · rw [(List.append_inj' same rfl).1] at enough
    exact enough
  · have same : log ++ [.close] = (before ++ .close :: earlier) ++ [last] := by
      rw [same]
      simp
    rw [(List.append_inj' same rfl).1] at untold
    exact absurd (by simp) untold

/-- The Close was put once, after everything else. -/
def ToldLast (log : List Inbound) : Prop :=
  ∃ before, log = before ++ [.close] ∧ .close ∉ before

theorem log_offer (box : Inbox) (message : Inbound) :
    (box.offer message).log = box.log ∨ (box.offer message).log = box.log ++ [message] := by
  unfold Inbox.offer
  cases accepted : box.trySend message with
  | none => exact .inl rfl
  | some after => exact .inr (by simp [Inbox.trySend_eq_some accepted])

/-! ## What leaves the end of the stream alone -/

namespace StreamState

/-- The receive side up to its counters, the marks of its end, and what the channel was given;
the receiver may be dropped. -/
structure SameRecv (before after : StreamState) : Prop where
  recvNext : after.recvNext = before.recvNext
  recvBuf : after.recvBuf = before.recvBuf
  log : after.inbound.log = before.inbound.log
  closed : before.inbound.closed = true → after.inbound.closed = true
  recvFin : after.recvFin = before.recvFin
  recvCloseOff : after.recvCloseOff = before.recvCloseOff
  reset : after.reset = before.reset

theorem SameRecv.refl (st : StreamState) : SameRecv st st :=
  ⟨rfl, rfl, rfl, fun dropped => dropped, rfl, rfl, rfl⟩

theorem SameRecv.trans {first second third : StreamState} (earlier : SameRecv first second)
    (later : SameRecv second third) : SameRecv first third where
  recvNext := later.recvNext.trans earlier.recvNext
  recvBuf := later.recvBuf.trans earlier.recvBuf
  log := later.log.trans earlier.log
  closed := fun dropped => later.closed (earlier.closed dropped)
  recvFin := later.recvFin.trans earlier.recvFin
  recvCloseOff := later.recvCloseOff.trans earlier.recvCloseOff
  reset := later.reset.trans earlier.reset

theorem sameRecv_removeHeldStream (st : StreamState) : SameRecv st st.removeHeldStream := by
  unfold removeHeldStream
  split
  · exact SameRecv.refl st
  · exact { SameRecv.refl st with }

theorem sameRecv_countClose (st : StreamState) : SameRecv st st.countClose := by
  unfold countClose observeStreamEnd
  split
  · exact SameRecv.refl st
  · split
    · exact { SameRecv.refl st with }
    · exact { SameRecv.refl st with }

theorem sameRecv_maybeCountGraceful (st : StreamState) : SameRecv st st.maybeCountGraceful := by
  unfold maybeCountGraceful
  split
  · exact SameRecv.refl st
  · exact (sameRecv_countClose st).trans (sameRecv_removeHeldStream _)

theorem sameRecv_closeSend (st : StreamState) :
    SameRecv st ((st.closeSend.map Prod.fst).getD st) := by
  unfold closeSend
  split
  · exact SameRecv.refl st
  · have flagged : SameRecv st { st with sendFinSent := true }.unstick :=
      { SameRecv.refl st with }
    exact flagged.trans (sameRecv_maybeCountGraceful _)

theorem sameRecv_onAck (st : StreamState) (ack : StreamAck) (now : Nat) :
    SameRecv st (st.onAck ack now) := by
  simp only [onAck, ackSelective, ackCumulative]
  split
  · split
    · exact { SameRecv.refl st with }
    · exact { SameRecv.refl st with }
  · split
    · exact { SameRecv.refl st with }
    · exact { SameRecv.refl st with }

theorem drainTuned_of_none {st : StreamState} (inputs : CapInputs)
    (missing : st.recvBuf.get? st.recvNext = none) : st.drainTuned inputs = st := by
  have stays : drainLoop st.recvBuf.size st = st := by
    cases st.recvBuf.size with
    | zero => rfl
    | succ rounds => exact drainLoop_of_none rounds missing
  simp only [drainTuned, stays, lt_irrefl, if_false]

/-- What a drain keeps, whatever it delivers. -/
theorem drainTuned_induction {invariant : StreamState → Prop} {st : StreamState}
    (inputs : CapInputs)
    (delivery : ∀ st chunk inbound, invariant st → st.recvBuf.get? st.recvNext = some chunk →
      st.inbound.trySend (.data chunk) = some inbound →
      invariant (st.deliverHead chunk inbound))
    (tuning : ∀ st, invariant st → invariant (st.tuneRecvCap inputs)) (held : invariant st) :
    invariant (st.drainTuned inputs) := by
  have drained := drainLoop_induction delivery st.recvBuf.size held
  simp only [drainTuned]
  split
  · exact tuning _ drained
  · exact drained

/-! ## The end is never early -/

structure Truthful (st : StreamState) : Prop where
  delivered : st.inbound.delivered.length = st.recvNext
  untold : st.recvFin = false → .close ∉ st.inbound.log
  covered : ∀ off, st.recvCloseOff = some off → CloseAfter st.inbound.log off

theorem Truthful.of_same {before after : StreamState} (truthful : before.Truthful)
    (same : SameRecv before after) : after.Truthful where
  delivered := by
    rw [Inbox.delivered, same.log, same.recvNext]
    exact truthful.delivered
  untold := by
    rw [same.recvFin, same.log]
    exact truthful.untold
  covered := by
    rw [same.recvCloseOff, same.log]
    exact truthful.covered

theorem Truthful.offer {st : StreamState} (truthful : st.Truthful) {message : Inbound}
    (empty : message.payload = []) (other : message ≠ .close) :
    { st with inbound := st.inbound.offer message }.Truthful where
  delivered := (congrArg List.length (Inbox.delivered_offer empty)).trans truthful.delivered
  untold := by
    intro noFin
    have untold := truthful.untold noFin
    rcases log_offer st.inbound message with same | longer
    · simpa only [same] using untold
    · simpa only [longer, List.mem_append, List.mem_singleton, not_or] using
        ⟨untold, Ne.symm other⟩
  covered := by
    intro off announced
    have covered := truthful.covered off announced
    rcases log_offer st.inbound message with same | longer
    · simpa only [same] using covered
    · simpa only [longer] using covered.concat other

theorem Truthful.setRecvFin {st : StreamState} (truthful : st.Truthful)
    (due : ∀ off, st.recvCloseOff = some off → off ≤ st.recvNext) : st.setRecvFin.Truthful := by
  unfold StreamState.setRecvFin
  split
  · exact truthful
  · rename_i noFin
    constructor
    · exact (congrArg List.length (Inbox.delivered_offer rfl)).trans truthful.delivered
    · intro impossible
      cases impossible
    · intro off announced
      rcases log_offer st.inbound .close with same | longer
      · simpa only [same] using truthful.covered off announced
      · have enough : off ≤ (st.inbound.log.flatMap Inbound.payload).length :=
          (due off announced).trans_eq truthful.delivered.symm
        simpa only [longer] using
          closeAfter_concat_close (truthful.untold (Bool.of_not_eq_true noFin)) enough

theorem Truthful.deliverHead {st : StreamState} (truthful : st.Truthful) {chunk : Bytes}
    {inbound : Inbox} (sent : st.inbound.trySend (.data chunk) = some inbound) :
    (st.deliverHead chunk inbound).Truthful := by
  obtain rfl := Inbox.trySend_eq_some sent
  constructor
  · have delivered := truthful.delivered
    simp only [Inbox.delivered] at delivered
    simp [StreamState.deliverHead, Inbox.delivered, Inbound.payload, delivered]
  · intro noFin
    simpa [StreamState.deliverHead] using truthful.untold noFin
  · intro off announced
    exact (truthful.covered off announced).concat (by simp)

theorem Truthful.drainTuned {st : StreamState} (truthful : st.Truthful) (inputs : CapInputs) :
    (st.drainTuned inputs).Truthful := by
  apply drainTuned_induction inputs
  · exact fun _ _ _ truthful _ sent => truthful.deliverHead sent
  · exact fun st truthful => truthful.of_same { SameRecv.refl st with }
  · exact truthful

theorem Truthful.bufferArrival {st : StreamState} (truthful : st.Truthful) (path : Nat)
    (data : StreamData) : (st.bufferArrival path data).Truthful := by
  obtain ⟨delivered, untold, covered⟩ := truthful
  simp only [StreamState.bufferArrival]
  split
  · exact ⟨delivered, untold, covered⟩
  · split
    · exact ⟨delivered, untold, covered⟩
    · split
      · exact ⟨delivered, untold, covered⟩
      · exact ⟨delivered, untold, covered⟩

theorem due_of_overlayProgressFine {st : StreamState} {openPending : Bool}
    (fine : st.overlayProgressFine openPending = true) :
    ∀ off, st.recvCloseOff = some off → off ≤ st.recvNext := by
  intro off announced
  simp only [overlayProgressFine, announced, Option.any_some] at fine
  split at fine
  · cases fine
  · split at fine
    · cases fine
    · rename_i _ reached
      simpa using reached

theorem Truthful.setReset {st : StreamState} (truthful : st.Truthful) (reason : ResetReason)
    (openPending : Bool) : (st.setReset reason openPending).Truthful := by
  obtain ⟨delivered, untold, covered⟩ := truthful
  unfold StreamState.setReset
  split
  · exact ⟨delivered, untold, covered⟩
  · have marked : { st with reset := true }.Truthful := ⟨delivered, untold, covered⟩
    split
    · exact marked
    · exact marked.offer rfl (by simp)

theorem Truthful.finishStream {st : StreamState} (truthful : st.Truthful) (reason : ResetReason)
    (openPending : Bool) : (st.finishStream reason openPending).Truthful := by
  apply (truthful.setReset reason openPending).of_same
  exact (sameRecv_countClose _).trans (sameRecv_removeHeldStream _)

theorem Truthful.tryFinishRecvClose {st : StreamState} (truthful : st.Truthful) :
    st.tryFinishRecvClose.Truthful := by
  unfold StreamState.tryFinishRecvClose
  split
  · exact truthful
  · rename_i off announced
    split
    · exact truthful
    · rename_i looked
      have reached : off ≤ st.recvNext := by
        simp only [Bool.or_eq_true, decide_eq_true_eq, not_or, not_lt] at looked
        exact looked.2
      have finished := truthful.setRecvFin fun other announcedOther => by
        rw [announced] at announcedOther
        cases announcedOther
        exact reached
      have unstuck : SameRecv st.setRecvFin st.setRecvFin.unstick :=
        { SameRecv.refl st.setRecvFin with }
      exact finished.of_same (unstuck.trans (sameRecv_maybeCountGraceful _))

theorem Truthful.closeQuietly {st : StreamState} (truthful : st.Truthful)
    {openPending : Bool} (fine : st.overlayProgressFine openPending = true) :
    st.countClose.setRecvFin.removeHeldStream.Truthful := by
  have counted := sameRecv_countClose st
  have told := (truthful.of_same counted).setRecvFin fun off announced => by
    rw [counted.recvNext]
    exact due_of_overlayProgressFine fine off (counted.recvCloseOff.symm.trans announced)
  exact told.of_same (sameRecv_removeHeldStream _)

theorem Truthful.reaped {st after : StreamState} (truthful : st.Truthful) {openPending : Bool}
    (reaped : Reaped st openPending after) : after.Truthful := by
  cases reaped with
  | kept => exact truthful
  | removed => exact truthful.of_same (sameRecv_removeHeldStream st)
  | counted => exact truthful.of_same (sameRecv_maybeCountGraceful st)
  | quiet fine => exact truthful.closeQuietly fine
  | reset => exact truthful.finishStream _ _

theorem Truthful.announceFinal {st : StreamState} (truthful : st.Truthful)
    (untold : st.recvCloseOff = none → .close ∉ st.inbound.log) (close : StreamClose) :
    (st.announceFinal close).Truthful := by
  unfold StreamState.announceFinal
  split
  · exact truthful
  · rename_i unannounced
    exact ⟨truthful.delivered, truthful.untold, fun off _ =>
      closeAfter_of_not_mem (untold unannounced) off⟩

theorem gone_or_same_of_reaped {st after : StreamState} {openPending : Bool}
    (reaped : Reaped st openPending after) : after.gone = true ∨ SameRecv st after := by
  cases reaped with
  | kept => exact .inr (SameRecv.refl st)
  | removed => exact .inl (gone_removeHeldStream st)
  | counted => exact .inr (sameRecv_maybeCountGraceful st)
  | quiet => exact .inl (gone_removeHeldStream _)
  | reset => exact .inl (gone_finishStream st _ _)

/-- No Close is put on the channel of a stream whose final offset is unknown. -/
def Untold (st : StreamState) : Prop :=
  st.recvCloseOff = none → .close ∉ st.inbound.log

theorem Untold.of_same {before after : StreamState} (untold : before.Untold)
    (same : SameRecv before after) : after.Untold := by
  unfold Untold
  rw [same.recvCloseOff, same.log]
  exact untold

theorem Untold.tryFinishRecvClose {st : StreamState} (untold : st.Untold) :
    st.tryFinishRecvClose.Untold := by
  unfold StreamState.tryFinishRecvClose
  split
  · exact untold
  · rename_i off announced
    split
    · exact untold
    · intro unannounced
      have finished := sameRecv_maybeCountGraceful st.setRecvFin.unstick
      have kept : st.setRecvFin.recvCloseOff = st.recvCloseOff := by
        unfold StreamState.setRecvFin
        split
        · rfl
        · rfl
      have known : st.applyRecvFin.recvCloseOff = some off :=
        (finished.recvCloseOff.trans kept).trans announced
      rw [known] at unannounced
      cases unannounced

theorem Untold.announceFinal (st : StreamState) (untold : st.Untold) (close : StreamClose) :
    (st.announceFinal close).Untold := by
  unfold StreamState.announceFinal
  split
  · exact untold
  · intro impossible
    cases impossible

theorem Untold.setReset {st : StreamState} (untold : st.Untold) (reason : ResetReason)
    (openPending : Bool) : (st.setReset reason openPending).Untold := by
  unfold StreamState.setReset
  split
  · exact untold
  · split
    · exact untold
    · intro unannounced
      rcases log_offer st.inbound (.reset reason) with same | longer
      · simpa only [same] using untold unannounced
      · simpa [longer] using untold unannounced

theorem Untold.bufferArrival {st : StreamState} (untold : st.Untold) (path : Nat)
    (data : StreamData) : (st.bufferArrival path data).Untold := by
  simp only [StreamState.bufferArrival]
  split
  · exact untold
  · split
    · exact untold
    · split
      · exact untold
      · exact untold

theorem Untold.drainTuned {st : StreamState} (untold : st.Untold) (inputs : CapInputs) :
    (st.drainTuned inputs).Untold := by
  apply drainTuned_induction inputs
  · intro st chunk inbound untold _ sent unannounced
    obtain rfl := Inbox.trySend_eq_some sent
    simpa [StreamState.deliverHead] using untold unannounced
  · exact fun _ untold => untold
  · exact untold

theorem Truthful.apply {st : StreamState} (truthful : st.Truthful) (untold : st.Untold)
    (part : RecvPart) : (part.apply st).Truthful := by
  cases part with
  | arrive path data => exact truthful.bufferArrival path data
  | drain inputs => exact truthful.drainTuned inputs
  | lookAtFin => exact truthful.tryFinishRecvClose
  | announce close => exact truthful.announceFinal untold close
  | send n => exact truthful.of_same { SameRecv.refl st with }
  | acked ack now => exact truthful.of_same (sameRecv_onAck st ack now)
  | closeSend => exact truthful.of_same (sameRecv_closeSend st)
  | reset reason openPending => exact truthful.finishStream reason openPending
  | lingerReap openPending => exact truthful.reaped (reaped_lingerReapProgressFine st openPending)
  | residual openPending => exact truthful.reaped (reaped_residualDClient st openPending)
  | reapHalfClosed isClient openPending =>
      exact truthful.reaped (reaped_reapHalfClosed st isClient openPending)
  | reapStream openPending => exact truthful.reaped (reaped_reapStream st openPending)

theorem Untold.reaped {st after : StreamState} (untold : st.Untold) {openPending : Bool}
    (reaped : Reaped st openPending after) (live : after.gone = false) : after.Untold := by
  rcases gone_or_same_of_reaped reaped with gone | same
  · rw [gone] at live
    cases live
  · exact untold.of_same same

theorem Untold.apply {st : StreamState} (untold : st.Untold) (part : RecvPart)
    (live : (part.apply st).gone = false) : (part.apply st).Untold := by
  cases part with
  | arrive path data => exact untold.bufferArrival path data
  | drain inputs => exact untold.drainTuned inputs
  | lookAtFin => exact untold.tryFinishRecvClose
  | announce close => exact Untold.announceFinal st untold close
  | send n => exact untold
  | acked ack now => exact untold.of_same (sameRecv_onAck st ack now)
  | closeSend => exact untold.of_same (sameRecv_closeSend st)
  | reset reason openPending =>
      cases (gone_finishStream st reason openPending).symm.trans live
  | lingerReap openPending => exact untold.reaped (reaped_lingerReapProgressFine st _) live
  | residual openPending => exact untold.reaped (reaped_residualDClient st _) live
  | reapHalfClosed isClient openPending =>
      exact untold.reaped (reaped_reapHalfClosed st isClient _) live
  | reapStream openPending => exact untold.reaped (reaped_reapStream st _) live

end StreamState

/-! ## Runs -/

namespace Receiver

theorem step_cases {r next : Receiver} {action : RecvAction} (taken : r.step action = some next) :
    (∃ part, action = .part part ∧ r.st.gone = false ∧ next.st = part.apply r.st) ∨
      next.st.gone = r.st.gone ∧ SameRecv r.st next.st := by
  cases action with
  | part part =>
      simp only [step] at taken
      split at taken
      · cases taken
      · rename_i live
        cases taken
        exact .inl ⟨part, rfl, Bool.of_not_eq_true live, rfl⟩
  | take =>
      apply Or.inr
      simp only [step, takeMessage] at taken
      split at taken
      · cases taken
        exact ⟨rfl, { SameRecv.refl r.st with }⟩
      · cases taken
        exact ⟨rfl, { SameRecv.refl r.st with closed := fun _ => rfl }⟩
      · cases taken
  | report =>
      apply Or.inr
      simp only [step, report] at taken
      split at taken
      · cases taken
      · split at taken
        · cases taken
          exact ⟨rfl, SameRecv.refl r.st⟩
        · cases taken
          exact ⟨rfl, { SameRecv.refl r.st with }⟩
  | writeFailed =>
      apply Or.inr
      simp only [step, writeFailed] at taken
      split at taken
      · cases taken
      · cases taken
        exact ⟨rfl, { SameRecv.refl r.st with closed := fun _ => rfl }⟩

/-- What holds of the receive side in every run. -/
structure Sound (r : Receiver) : Prop where
  truthful : r.st.Truthful
  untold : r.st.gone = false → r.st.Untold

theorem sound_new (id initialWindow chan : Nat) : (new id initialWindow chan).Sound where
  truthful :=
    { delivered := rfl
      untold := fun _ => List.not_mem_nil
      covered := fun _ announced => by cases announced }
  untold := fun _ _ => List.not_mem_nil

theorem Sound.step {r next : Receiver} (sound : r.Sound) {action : RecvAction}
    (taken : r.step action = some next) : next.Sound := by
  rcases step_cases taken with ⟨part, _, live, after⟩ | ⟨sameGone, same⟩
  · have untold := sound.untold live
    constructor
    · rw [after]
      exact sound.truthful.apply untold part
    · rw [after]
      exact untold.apply part
  · constructor
    · exact sound.truthful.of_same same
    · rw [sameGone]
      exact fun live => (sound.untold live).of_same same

theorem sound_of_reachable {r : Receiver} (reachable : machine.Reachable r) : r.Sound := by
  refine reachable.invariant Sound ?_ fun _ _ _ sound taken => sound.step taken
  rintro _ ⟨id, initialWindow, chan, _, rfl⟩
  exact sound_new id initialWindow chan

def overtakingClose : List RecvAction :=
  [.part (.arrive 1 ⟨7, 1, [98]⟩), .part (.drain ⟨0, 0⟩), .part (.announce ⟨7, some 2⟩),
    .part .lookAtFin, .part (.arrive 2 ⟨7, 0, [97]⟩), .part (.drain ⟨0, 0⟩), .part .lookAtFin]

end Receiver

/-! ## The end is told -/

namespace StreamState

/-- The channel has a slot left for the Close, and no chunk that could follow it is in reach. -/
def closeFits (st : StreamState) : Bool :=
  st.inbound.closed || (decide (st.inbound.queue.length < st.inbound.capacity) &&
    (st.recvBuf.get? st.recvNext).isNone)

/-- `try_finish_recv_close` finds the FIN applicable. -/
def finDue (st : StreamState) : Bool :=
  !st.recvFin && st.recvCloseOff.any fun off => decide (off ≤ st.recvNext)

def reapsFine (st : StreamState) (openPending : Bool) : Bool :=
  !st.recvFin && !st.countedClose && st.overlayProgressFine openPending

/-- Wherever `recv_fin` is set, the application still has to be told, and nothing is in reach
that could be delivered after. -/
def EofTold (st : StreamState) : Prop :=
  st.recvFin = true → st.reset = false → st.inbound.closed = false →
    ToldLast st.inbound.log ∧ st.recvBuf.get? st.recvNext = none

theorem EofTold.of_same {before after : StreamState} (told : before.EofTold)
    (same : SameRecv before after) : after.EofTold := by
  intro finished notReset kept
  rw [same.log, same.recvBuf, same.recvNext]
  apply told (same.recvFin.symm.trans finished) (same.reset.symm.trans notReset)
  apply Bool.of_not_eq_true
  intro dropped
  rw [same.closed dropped] at kept
  cases kept

theorem eofTold_of_reset {st : StreamState} (reset : st.reset = true) : st.EofTold := by
  intro _ notReset
  rw [reset] at notReset
  cases notReset

theorem reset_finishStream (st : StreamState) (reason : ResetReason) (openPending : Bool) :
    (st.finishStream reason openPending).reset = true := by
  have marked : (st.setReset reason openPending).reset = true := by
    unfold setReset
    split
    · assumption
    · split
      · rfl
      · rfl
  have ended := (sameRecv_countClose (st.setReset reason openPending)).trans
    (sameRecv_removeHeldStream _)
  exact ended.reset.trans marked

theorem eofTold_finishStream (st : StreamState) (reason : ResetReason) (openPending : Bool) :
    (st.finishStream reason openPending).EofTold :=
  eofTold_of_reset (reset_finishStream st reason openPending)

theorem EofTold.setRecvFin {st : StreamState} (told : st.EofTold) (truthful : st.Truthful)
    (fits : st.recvFin = false → st.closeFits = true) : st.setRecvFin.EofTold := by
  unfold StreamState.setRecvFin
  split
  · exact told
  · rename_i noFin
    have room := fits (Bool.of_not_eq_true noFin)
    intro _ _ kept
    have isOpen : st.inbound.closed = false := by
      apply Bool.of_not_eq_true
      intro dropped
      have refused : st.inbound.offer .close = st.inbound := by
        simp [Inbox.offer, Inbox.trySend, dropped]
      rw [refused, dropped] at kept
      cases kept
    simp only [closeFits, isOpen, Bool.false_or, Bool.and_eq_true, decide_eq_true_eq,
      Option.isNone_iff_eq_none] at room
    have slot : ¬ st.inbound.capacity ≤ st.inbound.queue.length := Nat.not_le.mpr room.1
    have sent : (st.inbound.offer .close).log = st.inbound.log ++ [.close] := by
      simp [Inbox.offer, Inbox.trySend, isOpen, slot]
    exact ⟨⟨st.inbound.log, sent, truthful.untold (Bool.of_not_eq_true noFin)⟩, room.2⟩

theorem EofTold.tryFinishRecvClose {st : StreamState} (told : st.EofTold)
    (truthful : st.Truthful) (fits : st.finDue = true → st.closeFits = true) :
    st.tryFinishRecvClose.EofTold := by
  unfold StreamState.tryFinishRecvClose
  split
  · exact told
  · rename_i off announced
    split
    · exact told
    · rename_i looked
      simp only [Bool.or_eq_true, decide_eq_true_eq, not_or, not_lt, Bool.not_eq_true] at looked
      have due : st.finDue = true := by simp [finDue, announced, looked.1, looked.2]
      have unstuck : SameRecv st.setRecvFin st.setRecvFin.unstick :=
        { SameRecv.refl st.setRecvFin with }
      have finished := told.setRecvFin truthful fun _ => fits due
      exact finished.of_same (unstuck.trans (sameRecv_maybeCountGraceful _))

theorem closeFits_countClose (st : StreamState) : st.countClose.closeFits = st.closeFits := by
  unfold countClose observeStreamEnd
  split
  · rfl
  · split
    · rfl
    · rfl

theorem EofTold.closeQuietly {st : StreamState} (told : st.EofTold) (truthful : st.Truthful)
    (fits : st.recvFin = false → st.closeFits = true) :
    st.countClose.setRecvFin.removeHeldStream.EofTold := by
  have counted := sameRecv_countClose st
  have finished := (told.of_same counted).setRecvFin (truthful.of_same counted) fun noFin => by
    rw [closeFits_countClose]
    exact fits (counted.recvFin.symm.trans noFin)
  exact finished.of_same (sameRecv_removeHeldStream _)

theorem EofTold.reaped {st after : StreamState} (told : st.EofTold) (truthful : st.Truthful)
    {openPending : Bool} (fits : st.reapsFine openPending = true → st.closeFits = true)
    (reaped : Reaped st openPending after) : after.EofTold := by
  cases reaped with
  | kept => exact told
  | removed => exact told.of_same (sameRecv_removeHeldStream st)
  | counted => exact told.of_same (sameRecv_maybeCountGraceful st)
  | quiet fine running =>
      apply told.closeQuietly truthful
      intro noFin
      apply fits
      simp only [reapsFine, noFin, running, fine, Bool.not_false, Bool.and_self]
  | reset => exact eofTold_finishStream st _ _

theorem EofTold.reapStream {st : StreamState} (told : st.EofTold) (openPending : Bool) :
    (st.reapStream openPending).1.EofTold := by
  unfold StreamState.reapStream
  split
  · exact told.of_same (sameRecv_removeHeldStream st)
  · split
    · exact told.of_same (sameRecv_maybeCountGraceful st)
    · split
      · exact told
      · exact eofTold_finishStream st _ _

theorem EofTold.bufferArrival {st : StreamState} (told : st.EofTold) (path : Nat)
    (data : StreamData) : (st.bufferArrival path data).EofTold := by
  by_cases finished : st.recvFin = true
  · have dropped : st.bufferArrival path data = st := by
      simp [StreamState.bufferArrival, pastFinal, finished]
    rw [dropped]
    exact told
  · have kept : (st.bufferArrival path data).recvFin = st.recvFin := by
      simp only [StreamState.bufferArrival]
      split
      · rfl
      · split
        · rfl
        · split <;> rfl
    intro finishedAfter
    exact absurd (kept.symm.trans finishedAfter) finished

theorem EofTold.drainTuned {st : StreamState} (told : st.EofTold) (inputs : CapInputs) :
    (st.drainTuned inputs).EofTold := by
  have kept : (st.drainTuned inputs).recvFin = st.recvFin ∧
      (st.drainTuned inputs).reset = st.reset ∧
      (st.drainTuned inputs).inbound.closed = st.inbound.closed := by
    refine @drainTuned_induction (fun reached => reached.recvFin = st.recvFin ∧
      reached.reset = st.reset ∧ reached.inbound.closed = st.inbound.closed) st inputs ?_ ?_ ?_
    · intro reached chunk inbound same _ sent
      obtain rfl := Inbox.trySend_eq_some sent
      exact same
    · exact fun _ same => same
    · exact ⟨rfl, rfl, rfl⟩
  intro finished notReset isOpen
  have before := told (kept.1.symm.trans finished) (kept.2.1.symm.trans notReset)
    (kept.2.2.symm.trans isOpen)
  rw [drainTuned_of_none inputs before.2]
  exact before

end StreamState

/-- The part sets `recv_fin`, and puts the Close on the channel if it can. -/
def RecvPart.tellsFin : RecvPart → StreamState → Bool
  | .lookAtFin, st => st.finDue
  | .lingerReap openPending, st => st.reapsFine openPending
  | .residual openPending, st => st.reapsFine openPending
  | .reapHalfClosed _ openPending, st => st.reapsFine openPending
  | _, _ => false

theorem StreamState.EofTold.apply {st : StreamState} (told : st.EofTold)
    (truthful : st.Truthful) {part : RecvPart}
    (fits : part.tellsFin st = true → st.closeFits = true) : (part.apply st).EofTold := by
  cases part with
  | arrive path data => exact told.bufferArrival path data
  | drain inputs => exact told.drainTuned inputs
  | lookAtFin => exact told.tryFinishRecvClose truthful fits
  | announce close =>
      simp only [RecvPart.apply, announceFinal]
      split
      · exact told
      · exact told
  | send n => exact told
  | acked ack now => exact told.of_same (sameRecv_onAck st ack now)
  | closeSend => exact told.of_same (sameRecv_closeSend st)
  | reset reason openPending => exact eofTold_finishStream st reason openPending
  | lingerReap openPending =>
      exact told.reaped truthful fits (reaped_lingerReapProgressFine st openPending)
  | residual openPending => exact told.reaped truthful fits (reaped_residualDClient st openPending)
  | reapHalfClosed isClient openPending =>
      exact told.reaped truthful fits (reaped_reapHalfClosed st isClient openPending)
  | reapStream openPending => exact told.reapStream openPending

namespace Receiver

def fits (r : Receiver) : RecvAction → Bool
  | .part part => !part.tellsFin r.st || r.st.closeFits
  | _ => true

theorem eofTold_step {r next : Receiver} (told : r.st.EofTold) (truthful : r.st.Truthful)
    {action : RecvAction} (room : r.fits action = true) (taken : r.step action = some next) :
    next.st.EofTold := by
  rcases step_cases taken with ⟨part, rfl, _, after⟩ | ⟨_, same⟩
  · rw [after]
    apply told.apply truthful
    intro tells
    simpa only [fits, tells, Bool.not_true, Bool.false_or] using room
  · exact told.of_same same

/-- While the channel has a slot for the Close whenever the FIN becomes applicable, the
application is told the end once and last. -/
theorem close_told {r : Receiver}
    (reachable : machine.ReachableWhen (fun r action => r.fits action = true) r)
    (finished : r.st.recvFin = true) (notReset : r.st.reset = false)
    (kept : r.st.inbound.closed = false) : ToldLast r.st.inbound.log := by
  have told : r.st.EofTold := by
    refine reachable.invariant_of (fun r => r.st.EofTold)
      (fun _ reached => sound_of_reachable reached.reachable) ?_ ?_
    · rintro _ ⟨id, initialWindow, chan, _, rfl⟩ impossible
      cases impossible
    · exact fun _ _ _ sound told room taken => eofTold_step told sound.truthful room taken
  exact (told finished notReset kept).1

theorem close_told_overtaken : ∃ r,
    machine.runWhen (fun r action => r.fits action = true) (new 7 65536 4) overtakingClose =
      some r ∧ ToldLast r.st.inbound.log := by
  have replayed : ∃ r, machine.runWhen (fun r action => r.fits action = true) (new 7 65536 4)
      overtakingClose = some r ∧ r.st.recvFin = true ∧ r.st.reset = false ∧
      r.st.inbound.closed = false := ⟨_, rfl, rfl, rfl, rfl⟩
  obtain ⟨r, replay, finished, notReset, kept⟩ := replayed
  have begins : machine.ReachableWhen (fun r action => r.fits action = true) (new 7 65536 4) :=
    .start ⟨7, 65536, 4, by decide, rfl⟩
  exact ⟨r, replay, close_told (begins.runWhen replay) finished notReset kept⟩

/-- The last chunk fills the channel, and the Close finds no slot. -/
theorem close_lost : ∃ r, machine.Reachable r ∧ r.st.recvFin = true ∧ r.st.reset = false ∧
    r.st.inbound.closed = false ∧ .close ∉ r.st.inbound.log := by
  have replayed : ∃ r, machine.run (new 7 65536 1) [.part (.arrive 1 ⟨7, 0, [97]⟩),
      .part (.drain ⟨0, 0⟩), .part (.announce ⟨7, some 1⟩), .part .lookAtFin] = some r ∧
      r.st.recvFin = true ∧ r.st.reset = false ∧ r.st.inbound.closed = false ∧
      r.st.inbound.log = [.data [97]] := ⟨_, rfl, rfl, rfl, rfl, rfl⟩
  obtain ⟨r, replay, finished, notReset, kept, log⟩ := replayed
  have begins : machine.Reachable (new 7 65536 1) := .start ⟨7, 65536, 1, by decide, rfl⟩
  refine ⟨r, begins.run replay, finished, notReset, kept, ?_⟩
  rw [log]
  decide

end Receiver

end NyaLink
