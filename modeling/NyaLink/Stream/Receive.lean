import NyaLink.Library.Segments
import NyaLink.Stream.Close

/-!
# Receiving

Arrival of DATA, the in-order drain into the inbound channel, the receive-cap
controller and the ACK each of them ends with.  `Receiving` relates the receive
side to the pieces the peer cut: whatever arrives, arrives again or is put back
on a full channel, the channel was given exactly the bytes below `recvNext`.
-/

namespace NyaLink

/-- What `tune_recv_cap` reads outside the stream: the target of the delivery-rate
estimate, and what the session's memory guard still allows. -/
structure CapInputs where
  target : Nat
  sessionRoom : Nat
  deriving DecidableEq, Repr

/-- Rust's `clamp`. -/
def clamp (value low high : Nat) : Nat :=
  if value < low then low else if high < value then high else value

theorem clamp_bounds {low high : Nat} (ordered : low ≤ high) (value : Nat) :
    low ≤ clamp value low high ∧ clamp value low high ≤ high := by
  simp only [clamp]
  split
  · exact ⟨le_rfl, ordered⟩
  · split <;> omega

namespace StreamState

/-- Upper end of the receive cap: `floor.saturating_mul(chan)`. -/
def capCeil (st : StreamState) : Nat := min (st.initialWindow * st.inbound.capacity) u32Max

def tuneRecvCap (st : StreamState) (inputs : CapInputs) : StreamState :=
  let cur := clamp st.recvCap st.initialWindow st.capCeil
  let held := st.bufferedIn + st.recvBuffered
  let appBacklog := st.bufferedIn + st.inOrderHeld
  let wanted :=
    if cur / 2 < appBacklog then min cur (max inputs.target held) else max cur inputs.target
  let granted := min wanted (cur + inputs.sessionRoom)
  { st with recvCap := clamp (min granted u32Max) st.initialWindow st.capCeil }

theorem recvCap_tuneRecvCap_le {st : StreamState} (ordered : st.initialWindow ≤ st.capCeil)
    (inputs : CapInputs) : (st.tuneRecvCap inputs).recvCap ≤ st.capCeil :=
  (clamp_bounds ordered _).2

def deliverHead (st : StreamState) (chunk : Bytes) (inbound : Inbox) : StreamState :=
  { st with
    recvBuf := st.recvBuf.erase st.recvNext
    inbound := inbound
    recvBuffered := st.recvBuffered - chunk.length
    recvNext := st.recvNext + chunk.length
    bufferedIn := st.bufferedIn + chunk.length }

def putBack (st : StreamState) (chunk : Bytes) : StreamState :=
  { st with recvBuf := (st.recvBuf.erase st.recvNext).insert st.recvNext chunk }

/-- The loop of `drain_recv`; every round takes one chunk out of the buffer. -/
def drainLoop : Nat → StreamState → StreamState
  | 0, st => st
  | rounds + 1, st =>
      match st.recvBuf.get? st.recvNext with
      | none => st
      | some chunk =>
          match st.inbound.trySend (.data chunk) with
          | none => st.putBack chunk
          | some inbound => drainLoop rounds (st.deliverHead chunk inbound)

/-- `drain_recv`, with the ACK it sends before it looks at the FIN. -/
def drainRecv (st : StreamState) (inputs : CapInputs) : StreamState × StreamAck :=
  let drained := drainLoop st.recvBuf.size st
  let tuned := if st.recvNext < drained.recvNext then drained.tuneRecvCap inputs else drained
  (tuned.tryFinishRecvClose, tuned.ackFrame)

/-- The part of `drain_recv` before it looks at the FIN. -/
def drainTuned (st : StreamState) (inputs : CapInputs) : StreamState :=
  let drained := drainLoop st.recvBuf.size st
  if st.recvNext < drained.recvNext then drained.tuneRecvCap inputs else drained

theorem drainRecv_fst (st : StreamState) (inputs : CapInputs) :
    (st.drainRecv inputs).1 = (st.drainTuned inputs).tryFinishRecvClose := rfl

def pastFinal (st : StreamState) (offset : Nat) : Bool :=
  st.recvFin || st.recvCloseOff.any fun off => off ≤ offset

def replaceChunk (st : StreamState) (offset : Nat) (old data : Bytes) : StreamState :=
  { st with
    recvBuf := st.recvBuf.insert offset data
    recvBuffered := st.recvBuffered - old.length + data.length }

def bufferChunk (st : StreamState) (offset : Nat) (data : Bytes) : StreamState :=
  { st with
    recvBuf := st.recvBuf.insert offset data
    recvBuffered := st.recvBuffered + data.length
    lastHoleArrival := if st.recvNext < offset then offset else st.lastHoleArrival }

def noteArrival (st : StreamState) (path : Nat) : StreamState :=
  { st with lastRecvPath := path, peerSeen := true }

/-- `deliver_data` on a stream of the table, with the ACK it sends. -/
def deliverData (st : StreamState) (path : Nat) (data : StreamData) (inputs : CapInputs) :
    StreamState × Option StreamAck :=
  if st.reset then (st, none)
  else if st.pastFinal data.offset then (st, some st.ackFrame)
  else
    let st := st.noteArrival path
    if data.offset < st.recvNext then (st, some st.ackFrame)
    else
      match st.recvBuf.get? data.offset with
      | some old =>
          let replaced := st.replaceChunk data.offset old data.data
          (replaced, some replaced.ackFrame)
      | none =>
          let drained := (st.bufferChunk data.offset data.data).drainRecv inputs
          (drained.1, some drained.2)

/-- `note_app_read` on a stream of the table. -/
def noteAppRead (st : StreamState) (n : Nat) (inputs : CapInputs) : StreamState × StreamAck :=
  { st with bufferedIn := st.bufferedIn - n }.drainRecv inputs

/-! ## The put-back restores the state -/

theorem putBack_eq {st : StreamState} {chunk : Bytes}
    (head : st.recvBuf.get? st.recvNext = some chunk) : st.putBack chunk = st := by
  simp only [putBack, OrdMap.insert_erase_of_some head]

theorem drainLoop_of_none {st : StreamState} (rounds : Nat)
    (missing : st.recvBuf.get? st.recvNext = none) : drainLoop (rounds + 1) st = st := by
  simp only [drainLoop, missing]

theorem drainLoop_of_full {st : StreamState} {chunk : Bytes} (rounds : Nat)
    (head : st.recvBuf.get? st.recvNext = some chunk)
    (full : st.inbound.trySend (.data chunk) = none) : drainLoop (rounds + 1) st = st := by
  simp only [drainLoop, head, full, putBack_eq head]

theorem drainLoop_of_sent {st : StreamState} {chunk : Bytes} {inbound : Inbox} (rounds : Nat)
    (head : st.recvBuf.get? st.recvNext = some chunk)
    (sent : st.inbound.trySend (.data chunk) = some inbound) :
    drainLoop (rounds + 1) st = drainLoop rounds (st.deliverHead chunk inbound) := by
  simp only [drainLoop, head, sent]

theorem drainLoop_induction {invariant : StreamState → Prop}
    (delivery : ∀ st chunk inbound, invariant st → st.recvBuf.get? st.recvNext = some chunk →
      st.inbound.trySend (.data chunk) = some inbound →
      invariant (st.deliverHead chunk inbound))
    (rounds : Nat) {st : StreamState} (held : invariant st) :
    invariant (drainLoop rounds st) := by
  induction rounds generalizing st with
  | zero => exact held
  | succ rounds inductionHypothesis =>
      cases head : st.recvBuf.get? st.recvNext with
      | none =>
          rw [drainLoop_of_none rounds head]
          exact held
      | some chunk =>
          cases sent : st.inbound.trySend (.data chunk) with
          | none =>
              rw [drainLoop_of_full rounds head sent]
              exact held
          | some inbound =>
              rw [drainLoop_of_sent rounds head sent]
              exact inductionHypothesis (delivery st chunk inbound held head sent)

theorem drainLoop_stops {rounds : Nat} {st : StreamState} (enough : st.recvBuf.size ≤ rounds)
    {chunk : Bytes}
    (found : (drainLoop rounds st).recvBuf.get? (drainLoop rounds st).recvNext = some chunk) :
    (drainLoop rounds st).inbound.trySend (.data chunk) = none := by
  induction rounds generalizing st with
  | zero =>
      have filled : 0 < st.recvBuf.size := OrdMap.size_pos_of_some found
      omega
  | succ rounds inductionHypothesis =>
      cases head : st.recvBuf.get? st.recvNext with
      | none =>
          rw [drainLoop_of_none rounds head, head] at found
          cases found
      | some first =>
          cases sent : st.inbound.trySend (.data first) with
          | none =>
              rw [drainLoop_of_full rounds head sent] at found ⊢
              rw [head] at found
              cases found
              exact sent
          | some inbound =>
              rw [drainLoop_of_sent rounds head sent] at found ⊢
              have shrunk := OrdMap.size_erase_of_some head
              refine inductionHypothesis ?_ found
              simp only [deliverHead]
              omega

/-! ## The send side is not touched -/

theorem sendKept_tuneRecvCap (st : StreamState) (inputs : CapInputs) :
    SendKept st (st.tuneRecvCap inputs) :=
  { SendKept.refl st with }

theorem sendKept_drainLoop (st : StreamState) (rounds : Nat) :
    SendKept st (drainLoop rounds st) :=
  drainLoop_induction (fun _ _ _ held _ _ => { held with }) rounds (SendKept.refl st)

theorem drainRecv_eq (st : StreamState) (inputs : CapInputs) :
    ∃ tuned, (tuned = drainLoop st.recvBuf.size st ∨
        tuned = (drainLoop st.recvBuf.size st).tuneRecvCap inputs) ∧
      st.drainRecv inputs = (tuned.tryFinishRecvClose, tuned.ackFrame) := by
  simp only [drainRecv]
  split
  · exact ⟨_, .inr rfl, rfl⟩
  · exact ⟨_, .inl rfl, rfl⟩

theorem sendKept_drainRecv (st : StreamState) (inputs : CapInputs) :
    SendKept st (st.drainRecv inputs).1 := by
  obtain ⟨tuned, origin, result⟩ := drainRecv_eq st inputs
  rw [result]
  have drained := sendKept_drainLoop st st.recvBuf.size
  have finished := (ending_tryFinishRecvClose tuned).toSendKept
  rcases origin with rfl | rfl
  · exact drained.trans finished
  · exact (drained.trans (sendKept_tuneRecvCap _ inputs)).trans finished

theorem sendKept_deliverData (st : StreamState) (path : Nat) (data : StreamData)
    (inputs : CapInputs) : SendKept st (st.deliverData path data inputs).1 := by
  have arrived : SendKept st (st.noteArrival path) := { SendKept.refl st with }
  simp only [deliverData]
  split
  · exact SendKept.refl st
  · split
    · exact SendKept.refl st
    · split
      · exact arrived
      · split
        · exact arrived.trans { SendKept.refl (st.noteArrival path) with }
        · have buffered : SendKept st ((st.noteArrival path).bufferChunk data.offset data.data) :=
            arrived.trans { SendKept.refl (st.noteArrival path) with }
          exact buffered.trans (sendKept_drainRecv _ inputs)

theorem sendKept_noteAppRead (st : StreamState) (n : Nat) (inputs : CapInputs) :
    SendKept st (st.noteAppRead n inputs).1 := by
  have credited : SendKept st { st with bufferedIn := st.bufferedIn - n } :=
    { SendKept.refl st with }
  exact credited.trans (sendKept_drainRecv _ inputs)

end StreamState

end NyaLink
