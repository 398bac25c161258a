import NyaLink.Library.OrdMap
import NyaLink.Proto.Frame

/-!
# Stream state

One end of one stream as the session keeps it: the send side with its unacked
pieces, the receive side with its reorder buffer, the close flags, and the
bounded inbound channel to the application's pump.  Offsets and counters are
natural numbers, clocks are microseconds.

Two members are history that the session does not store: `Inbox.log` lists every
message the channel ever accepted, and `Unacked.carried` says that the path the
piece is assigned to has taken a frame for it since the assignment and has not
thrown that frame away.
-/

namespace NyaLink

inductive Inbound where
  | data (bytes : Bytes)
  | close
  | reset (reason : ResetReason)
  deriving DecidableEq, Repr

def Inbound.payload : Inbound → Bytes
  | .data bytes => bytes
  | _ => []

/-- The bounded channel from the session to the pump. -/
structure Inbox where
  capacity : Nat
  queue : List Inbound
  closed : Bool
  log : List Inbound
  deriving DecidableEq, Repr

namespace Inbox

def new (capacity : Nat) : Inbox := ⟨capacity, [], false, []⟩

/-- `try_send`: fails when the receiver is gone or the channel is full. -/
def trySend (box : Inbox) (message : Inbound) : Option Inbox :=
  if box.closed || decide (box.capacity ≤ box.queue.length) then none
  else some { box with queue := box.queue ++ [message], log := box.log ++ [message] }

/-- `try_send` whose failure is ignored. -/
def offer (box : Inbox) (message : Inbound) : Inbox := (box.trySend message).getD box

def delivered (box : Inbox) : Bytes := box.log.flatMap Inbound.payload

def queuedBytes (box : Inbox) : Nat := (box.queue.flatMap Inbound.payload).length

theorem trySend_eq_some {box after : Inbox} {message : Inbound}
    (accepted : box.trySend message = some after) :
    after = { box with queue := box.queue ++ [message], log := box.log ++ [message] } := by
  simp only [trySend] at accepted
  split at accepted
  · cases accepted
  · exact (Option.some.inj accepted).symm

theorem delivered_offer {box : Inbox} {message : Inbound} (empty : message.payload = []) :
    (box.offer message).delivered = box.delivered := by
  simp only [offer]
  cases accepted : box.trySend message with
  | none => rfl
  | some after => simp [trySend_eq_some accepted, delivered, empty]

theorem queuedBytes_offer {box : Inbox} {message : Inbound} (empty : message.payload = []) :
    (box.offer message).queuedBytes = box.queuedBytes := by
  simp only [offer]
  cases accepted : box.trySend message with
  | none => rfl
  | some after => simp [trySend_eq_some accepted, queuedBytes, empty]

@[simp]
theorem capacity_offer (box : Inbox) (message : Inbound) :
    (box.offer message).capacity = box.capacity := by
  simp only [offer]
  cases accepted : box.trySend message with
  | none => rfl
  | some after => simp [trySend_eq_some accepted]

end Inbox

/-- A piece that was sent and is not acknowledged yet. -/
structure Unacked where
  data : Bytes
  pathId : Nat
  lastSent : Nat
  firstSent : Nat
  tried : List Nat
  retryNotBefore : Nat
  dropped : Bool
  carried : Bool
  deriving DecidableEq, Repr

structure StreamState where
  id : Nat
  /-- Cancelled by `removeHeldStream`: the session's table no longer holds the stream. -/
  gone : Bool
  sendNext : Nat
  sendWindow : Nat
  recvNext : Nat
  recvCap : Nat
  sticky : Nat
  sendAcked : Nat
  unacked : OrdMap Nat Unacked
  inbound : Inbox
  recvBuf : OrdMap Nat Bytes
  recvBuffered : Nat
  lastRecvPath : Nat
  peerSeen : Bool
  lastHoleArrival : Nat
  lastSackMs : Nat
  recvFin : Bool
  recvCloseOff : Option Nat
  sendFinSent : Bool
  reset : Bool
  bulk : Bool
  bufferedIn : Nat
  initialWindow : Nat
  lastAckMs : Nat
  stalled : Bool
  stallFromMs : Nat
  countedClose : Bool
  deriving DecidableEq

def monoMs (now : Nat) : Nat := now / 1000

namespace StreamState

/-- `new_in`: the inbound channel has `chan` slots. -/
def new (id initialWindow chan : Nat) : StreamState where
  id := id
  gone := false
  sendNext := 0
  sendWindow := initialWindow
  recvNext := 0
  recvCap := initialWindow
  sticky := 0
  sendAcked := 0
  unacked := .empty
  inbound := .new chan
  recvBuf := .empty
  recvBuffered := 0
  lastRecvPath := 0
  peerSeen := false
  lastHoleArrival := 0
  lastSackMs := 0
  recvFin := false
  recvCloseOff := none
  sendFinSent := false
  reset := false
  bulk := false
  bufferedIn := 0
  initialWindow := initialWindow
  lastAckMs := 0
  stalled := false
  stallFromMs := 0
  countedClose := false

/-- Grow the newest run with a chunk that starts where it ends, or open a new run. -/
def extendRuns (runs : List (Nat × Nat)) (entry : Nat × Bytes) : List (Nat × Nat) :=
  match runs with
  | [] => [(entry.1, entry.1 + entry.2.length)]
  | last :: earlier =>
      if last.2 = entry.1 then (last.1, entry.1 + entry.2.length) :: earlier
      else (entry.1, entry.1 + entry.2.length) :: last :: earlier

/-- Coalesced runs of the reorder buffer, highest first. -/
def bufferedRuns (st : StreamState) : List (Nat × Nat) :=
  st.recvBuf.entries.foldl extendRuns []

/-- The run holding the newest arrival, if it is still buffered. -/
def newestRun (st : StreamState) : Option (Nat × Nat) :=
  st.bufferedRuns.reverse.find? fun run =>
    decide (run.1 ≤ st.lastHoleArrival) && decide (st.lastHoleArrival < run.2)

def pushRange (out : List (Nat × Nat)) (run : Nat × Nat) : List (Nat × Nat) :=
  if maxSackRanges ≤ out.length then out
  else if run ∈ out then out
  else out ++ [run]

/-- SACK ranges for the next ACK: the run holding the newest arrival first,
then the highest runs. -/
def sackRanges (st : StreamState) : List (Nat × Nat) :=
  st.bufferedRuns.foldl pushRange st.newestRun.toList

def isSteerable (st : StreamState) : Bool :=
  !st.reset && !st.countedClose && !st.sendFinSent && !st.recvFin

def inflightSend (st : StreamState) : Nat := st.sendNext - st.sendAcked

def windowOk (st : StreamState) (extra : Nat) : Bool :=
  decide (st.inflightSend + extra ≤ st.sendWindow)

def advertisedWindow (st : StreamState) : Nat :=
  min (st.recvCap - st.bufferedIn - st.recvBuffered) u32Max

/-- Length of the contiguous run of the given entries starting at `next`. -/
def contiguousFrom (next : Nat) : List (Nat × Bytes) → Nat
  | [] => 0
  | (offset, chunk) :: rest =>
      if offset = next then chunk.length + contiguousFrom (next + chunk.length) rest else 0

/-- Bytes of the contiguous run at `recvNext` that are still in the buffer. -/
def inOrderHeld (st : StreamState) : Nat :=
  contiguousFrom st.recvNext (st.recvBuf.entries.filter fun entry => st.recvNext ≤ entry.1)

/-- The frame `send_ack` builds. -/
def ackFrame (st : StreamState) : StreamAck where
  streamId := st.id
  ackedOffset := st.recvNext
  window := st.advertisedWindow
  sack := st.sackRanges

/-- The peer holds this byte: delivered in order, or waiting in the reorder buffer. -/
def Received (st : StreamState) (position : Nat) : Prop :=
  position < st.recvNext ∨ ∃ offset chunk, st.recvBuf.get? offset = some chunk ∧
    offset ≤ position ∧ position < offset + chunk.length

/-! ## Frame conditions -/

/-- The send side is as before, except that leaving the table drops all unacked pieces. -/
structure SendKept (before after : StreamState) : Prop where
  id : after.id = before.id
  sendNext : after.sendNext = before.sendNext
  sendWindow : after.sendWindow = before.sendWindow
  sendAcked : after.sendAcked = before.sendAcked
  initialWindow : after.initialWindow = before.initialWindow
  sendFinSent : after.sendFinSent = before.sendFinSent
  reset : before.reset = true → after.reset = true
  held : after.gone = before.gone ∧ after.unacked = before.unacked ∨
    after.gone = true ∧ after.unacked = .empty

theorem SendKept.refl (st : StreamState) : SendKept st st :=
  ⟨rfl, rfl, rfl, rfl, rfl, rfl, fun wasReset => wasReset, .inl ⟨rfl, rfl⟩⟩

theorem SendKept.trans {first second third : StreamState} (earlier : SendKept first second)
    (later : SendKept second third) : SendKept first third where
  id := later.id.trans earlier.id
  sendNext := later.sendNext.trans earlier.sendNext
  sendWindow := later.sendWindow.trans earlier.sendWindow
  sendAcked := later.sendAcked.trans earlier.sendAcked
  initialWindow := later.initialWindow.trans earlier.initialWindow
  sendFinSent := later.sendFinSent.trans earlier.sendFinSent
  reset := fun wasReset => later.reset (earlier.reset wasReset)
  held := by
    rcases later.held with ⟨sameGone, sameUnacked⟩ | removed
    · rw [sameGone, sameUnacked]
      exact earlier.held
    · exact .inr removed

/-- The receive side is as before, and the application was given no further byte. -/
structure RecvKept (before after : StreamState) : Prop where
  recvNext : after.recvNext = before.recvNext
  recvCap : after.recvCap = before.recvCap
  recvBuf : after.recvBuf = before.recvBuf
  recvBuffered : after.recvBuffered = before.recvBuffered
  lastHoleArrival : after.lastHoleArrival = before.lastHoleArrival
  bufferedIn : after.bufferedIn = before.bufferedIn
  initialWindow : after.initialWindow = before.initialWindow
  capacity : after.inbound.capacity = before.inbound.capacity
  delivered : after.inbound.delivered = before.inbound.delivered
  queuedBytes : after.inbound.queuedBytes = before.inbound.queuedBytes

theorem RecvKept.refl (st : StreamState) : RecvKept st st :=
  ⟨rfl, rfl, rfl, rfl, rfl, rfl, rfl, rfl, rfl, rfl⟩

theorem RecvKept.trans {first second third : StreamState} (earlier : RecvKept first second)
    (later : RecvKept second third) : RecvKept first third where
  recvNext := later.recvNext.trans earlier.recvNext
  recvCap := later.recvCap.trans earlier.recvCap
  recvBuf := later.recvBuf.trans earlier.recvBuf
  recvBuffered := later.recvBuffered.trans earlier.recvBuffered
  lastHoleArrival := later.lastHoleArrival.trans earlier.lastHoleArrival
  bufferedIn := later.bufferedIn.trans earlier.bufferedIn
  initialWindow := later.initialWindow.trans earlier.initialWindow
  capacity := later.capacity.trans earlier.capacity
  delivered := later.delivered.trans earlier.delivered
  queuedBytes := later.queuedBytes.trans earlier.queuedBytes

theorem RecvKept.received {before after : StreamState} (kept : RecvKept before after)
    (position : Nat) : after.Received position ↔ before.Received position := by
  rw [Received, Received, kept.recvNext, kept.recvBuf]

/-! ## SACK ranges describe buffered bytes -/

def CoveredBy (entries : List (Nat × Bytes)) (position : Nat) : Prop :=
  ∃ entry ∈ entries, entry.1 ≤ position ∧ position < entry.1 + entry.2.length

theorem foldl_extendRuns_covered (entries : List (Nat × Bytes)) (runs : List (Nat × Nat))
    {position : Nat} {run : Nat × Nat} (membership : run ∈ entries.foldl extendRuns runs)
    (within : run.1 ≤ position ∧ position < run.2) :
    (∃ earlier ∈ runs, earlier.1 ≤ position ∧ position < earlier.2) ∨
      CoveredBy entries position := by
  induction entries generalizing runs with
  | nil => exact .inl ⟨run, membership, within⟩
  | cons entry rest inductionHypothesis =>
      rcases inductionHypothesis (extendRuns runs entry) membership with
        ⟨earlier, extended, inside⟩ | ⟨covering, inRest, inside⟩
      · have inEntry : entry.1 ≤ position → position < entry.1 + entry.2.length →
            CoveredBy (entry :: rest) position :=
          fun low high => ⟨entry, by simp, low, high⟩
        cases runs with
        | nil =>
            obtain rfl := List.mem_singleton.mp extended
            exact .inr (inEntry inside.1 inside.2)
        | cons last older =>
            simp only [extendRuns] at extended
            split at extended
            · rename_i touching
              rcases List.mem_cons.mp extended with rfl | inOlder
              · by_cases low : entry.1 ≤ position
                · exact .inr (inEntry low inside.2)
                · exact .inl ⟨last, by simp, inside.1, by omega⟩
              · exact .inl ⟨earlier, by simp [inOlder], inside⟩
            · rcases List.mem_cons.mp extended with rfl | inOlder
              · exact .inr (inEntry inside.1 inside.2)
              · exact .inl ⟨earlier, inOlder, inside⟩
      · exact .inr ⟨covering, by simp [inRest], inside⟩

theorem foldl_pushRange_mem (runs out : List (Nat × Nat)) {run : Nat × Nat}
    (membership : run ∈ runs.foldl pushRange out) : run ∈ out ∨ run ∈ runs := by
  induction runs generalizing out with
  | nil => exact .inl membership
  | cons head rest inductionHypothesis =>
      rcases inductionHypothesis (pushRange out head) membership with pushed | inRest
      · simp only [pushRange] at pushed
        split at pushed
        · exact .inl pushed
        · split at pushed
          · exact .inl pushed
          · rcases List.mem_append.mp pushed with old | new
            · exact .inl old
            · exact .inr (by simp [List.mem_singleton.mp new])
      · exact .inr (by simp [inRest])

theorem mem_bufferedRuns_of_mem_sackRanges {st : StreamState} {range : Nat × Nat}
    (membership : range ∈ st.sackRanges) : range ∈ st.bufferedRuns := by
  rcases foldl_pushRange_mem _ _ membership with newest | inRuns
  · rw [Option.mem_toList] at newest
    exact List.mem_reverse.mp (List.mem_of_find?_eq_some newest)
  · exact inRuns

theorem received_of_mem_sackRanges {st : StreamState} {range : Nat × Nat} {position : Nat}
    (membership : range ∈ st.sackRanges) (within : range.1 ≤ position ∧ position < range.2) :
    st.Received position := by
  have inRuns := mem_bufferedRuns_of_mem_sackRanges membership
  rcases foldl_extendRuns_covered _ _ inRuns within with ⟨_, impossible, _⟩ |
    ⟨entry, inBuffer, inside⟩
  · cases impossible
  · exact .inr ⟨entry.1, entry.2, OrdMap.get?_eq_some_iff.mpr inBuffer, inside⟩

end StreamState

end NyaLink
