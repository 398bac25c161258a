import NyaLink.Proto.Codec
import NyaLink.Session.Scheduler
import NyaLink.Session.Endings

/-!
# Additions on what the peer chose

Offsets and payload sizes come off the wire unchecked.  Beside each function
stands the list of the sums its source computes in `u64`, in the order in which
they are computed; the model's own numbers are unbounded, so up to the first sum
above `u64Max` they are the machine's.

A stream's own `dup_rx_bytes` and `sacked` get the same additions as the
session's counters below and are not larger.
-/

namespace NyaLink

namespace StreamState

/-! ## Sums of the receive side -/

/-- `end` of every chunk `sack_ranges` goes through. -/
def sackSums (st : StreamState) : List Nat :=
  st.recvBuf.entries.map fun entry => entry.1 + entry.2.length

/-- The loop of `in_order_held_locked`. -/
def heldSums (next held : Nat) : List (Nat × Bytes) → List Nat
  | [] => []
  | (offset, chunk) :: rest =>
      if offset = next then
        (held + chunk.length) :: (next + chunk.length) ::
          heldSums (next + chunk.length) (held + chunk.length) rest
      else []

/-- `in_order_held_locked`, and the backlog `track_hole` and `recv_evidence` add it to. -/
def backlogSums (st : StreamState) : List Nat :=
  heldSums st.recvNext 0 (st.recvBuf.entries.filter fun entry => st.recvNext ≤ entry.1) ++
    [st.bufferedIn + st.inOrderHeld]

/-- `send_ack`: `advertised_window` only subtracts; at a closed window `recv_evidence` is read. -/
def ackSums (st : StreamState) : List Nat :=
  st.sackSums ++ if st.advertisedWindow = 0 then st.backlogSums else []

/-- The loop of `drain_recv`: `recv_next`, `buffered_in` and `delivered` after each chunk. -/
def drainLoopSums : Nat → Nat → StreamState → List Nat
  | 0, _, _ => []
  | rounds + 1, delivered, st =>
      match st.recvBuf.get? st.recvNext with
      | none => []
      | some chunk =>
          match st.inbound.trySend (.data chunk) with
          | none => []
          | some inbound =>
              (st.recvNext + chunk.length) :: (st.bufferedIn + chunk.length) ::
                (delivered + chunk.length) ::
                drainLoopSums rounds (delivered + chunk.length) (st.deliverHead chunk inbound)

/-- `drain_recv` and the ACK it sends. -/
def drainSums (st : StreamState) (inputs : CapInputs) : List Nat :=
  drainLoopSums st.recvBuf.size 0 st ++ (drainLoop st.recvBuf.size st).backlogSums ++
    (st.drainTuned inputs).ackSums

/-- The reorder buffer takes the piece in. -/
def takesIn (st : StreamState) (offset : Nat) : Bool :=
  !st.reset && !st.pastFinal offset && decide (st.recvNext ≤ offset)

def replacedLength (st : StreamState) (offset : Nat) : Nat :=
  ((st.recvBuf.get? offset).map List.length).getD 0

/-- What `deliver_data` counts as received twice. -/
def dupBytes (st : StreamState) (data : StreamData) : Nat :=
  if st.reset then 0
  else if st.takesIn data.offset then st.replacedLength data.offset
  else data.data.length

/-! ## Sums of the send side -/

/-- `on_ack` tests the end of every unacked piece, of those still there for the ranges. -/
def ackedSums (st : StreamState) (ack : StreamAck) (now : Nat) : List Nat :=
  let ends := fun st : StreamState =>
    st.unacked.entries.map fun entry => entry.1 + entry.2.data.length
  (if st.sendAcked < ack.ackedOffset then ends st else []) ++
    if ack.sack.isEmpty then [] else ends (st.ackCumulative ack now)

def sackedCount (st : StreamState) (ack : StreamAck) (now : Nat) : Nat :=
  if ack.sack.isEmpty then 0 else ((st.ackCumulative ack now).unacked.filter ack.sacks).size

/-- Bytes of the next piece `send_data` cuts. -/
def cutLength (st : StreamState) (available : Nat) : Nat :=
  min (min available (max (st.sendWindow - st.inflightSend) 1)) maxStreamPayload

end StreamState

/-! ## The session -/

/-- The table and the session counters that `deliver_data` and `on_ack` add to. -/
structure Intake where
  table : StreamTable
  dataDupRxBytes : Nat
  ackAfterFin : Nat
  dataSacked : Nat
  deriving DecidableEq

inductive IntakeAction where
  | arrive (path : Nat) (frame : Bytes) (inputs : CapInputs) (now : Nat)
  | accept (id : Nat) (inputs : CapInputs) (incoming : Incoming)
  /-- One round of the loop of `send_data`, which may give up after the cut. -/
  | sendData (id : Nat) (available : Bytes) (path : Option Nat) (now : Nat)
  | appRead (id n : Nat) (inputs : CapInputs)
  | openStream (target : Target) (path : Nat)
  | closeSend (id : Nat)
  | ending (action : TableAction)
  deriving DecidableEq, Repr

/-- The frame of a stream that `Frame::decode` reads. -/
def streamFrame? (frame : Bytes) : Option Frame :=
  match Wire.decode frame with
  | .ok read => Frame.fromWire? read
  | .error _ => none

namespace Intake

variable (i : Intake)

def deliverData (path : Nat) (data : StreamData) (inputs : CapInputs) : Intake :=
  match i.table.getStream data.streamId with
  | none => i
  | some st =>
      { i with
        table := i.table.deliverData path data inputs
        dataDupRxBytes := i.dataDupRxBytes + st.dupBytes data
        ackAfterFin :=
          if !st.reset && st.pastFinal data.offset then i.ackAfterFin + 1 else i.ackAfterFin }

def onData (path : Nat) (data : StreamData) (inputs : CapInputs) : Intake :=
  match i.table.getStream data.streamId with
  | none => { i with table := i.table.onData path data inputs }
  | some _ => i.deliverData path data inputs

def onAck (ack : StreamAck) (now : Nat) : Intake :=
  match i.table.getStream ack.streamId with
  | none => i
  | some st =>
      { i with
        table := i.table.onAck ack now
        dataSacked := i.dataSacked + st.sackedCount ack now }

def deliverEarly (i : Intake) (inputs : CapInputs) : List (Nat × StreamData) → Intake
  | [] => i
  | piece :: rest => (i.deliverData piece.1 piece.2 inputs).deliverEarly inputs rest

def allocated? (id : Nat) : Option (List (Nat × StreamData) × Intake) :=
  (i.table.tryAllocLocalStream id).map fun allocated : StreamTable =>
    let taken := allocated.noteOpened.takeEarlyData id
    (taken.1, { i with table := taken.2 })

def acceptRemoteStream (id : Nat) (inputs : CapInputs) (incoming : Incoming) : Intake :=
  match i.allocated? id with
  | none => i
  | some (early, allocated) =>
      let filled := allocated.deliverEarly inputs early
      match incoming with
      | .full => { filled with table := filled.table.finishStream id .protocol }
      | _ => filled

/-- The stream `send_data` works on, as long as there is something to send. -/
def sender? (id : Nat) (available : Bytes) : Option StreamState :=
  (i.table.getStream id).filter fun st => !st.reset && !available.isEmpty

def sendData (id : Nat) (available : Bytes) (path : Option Nat) (now : Nat) : Intake :=
  match i.sender? id available with
  | none => i
  | some st =>
      if !st.windowOk 1 then i
      else
        let n := st.cutLength available.length
        { i with table := match path with
          | some path => i.table.sendPiece id (available.take n) path now
          | none => i.table.modifyStream id fun st => { st with sendNext := st.sendNext + n } }

def step : IntakeAction → Option Intake
  | .arrive path frame inputs now =>
      match streamFrame? frame with
      | some (.streamData data) => some (i.onData path data inputs)
      | some (.streamAck ack) => some (i.onAck ack now)
      | some (.streamClose close) => some { i with table := i.table.onPeerClose close }
      | _ => none
  | .accept id inputs incoming =>
      if i.table.isClient then none else some (i.acceptRemoteStream id inputs incoming)
  | .sendData id available path now => some (i.sendData id available path now)
  | .appRead id n inputs => some { i with table := i.table.noteAppRead id n inputs }
  | .openStream target path =>
      (i.table.openStream target path).map fun table => { i with table := table }
  | .closeSend id => some { i with table := i.table.closeSend id }
  | .ending action =>
      if StreamTable.endsOnly action then
        (i.table.step action).map fun table => { i with table := table }
      else none

def Initial (i : Intake) : Prop :=
  (∃ isClient chan initialWindow, initialWindow ≤ u32Max ∧
    i.table = .new isClient initialWindow chan) ∧
  i.dataDupRxBytes ≤ u64Max ∧ i.ackAfterFin ≤ u64Max ∧ i.dataSacked ≤ u64Max

def machine : Machine Intake IntakeAction := ⟨Initial, step⟩

/-! ## The sums of an action -/

def deliverDataSums (data : StreamData) (inputs : CapInputs) (path : Nat) : List Nat :=
  match i.table.getStream data.streamId with
  | none => []
  | some st =>
      if st.reset then []
      else if st.pastFinal data.offset then
        (i.dataDupRxBytes + data.data.length) :: (i.ackAfterFin + 1) :: st.ackSums
      else
        let st := st.noteArrival path
        if data.offset < st.recvNext then (i.dataDupRxBytes + data.data.length) :: st.ackSums
        else
          match st.recvBuf.get? data.offset with
          | some old =>
              (i.dataDupRxBytes + old.length) ::
                (st.recvBuffered - old.length + data.data.length) ::
                (st.replaceChunk data.offset old data.data).ackSums
          | none =>
              (st.recvBuffered + data.data.length) ::
                (st.bufferChunk data.offset data.data).drainSums inputs

def deliverEarlySums (i : Intake) (inputs : CapInputs) : List (Nat × StreamData) → List Nat
  | [] => []
  | piece :: rest =>
      i.deliverDataSums piece.2 inputs piece.1 ++
        (i.deliverData piece.1 piece.2 inputs).deliverEarlySums inputs rest

def onAckSums (ack : StreamAck) (now : Nat) : List Nat :=
  match i.table.getStream ack.streamId with
  | none => []
  | some st =>
      st.ackedSums ack now ++
        if st.sackedCount ack now = 0 then [] else [i.dataSacked + st.sackedCount ack now]

/-- `window_ok(1)` and the advance of `send_next`. -/
def sendDataSums (id : Nat) (available : Bytes) : List Nat :=
  match i.sender? id available with
  | none => []
  | some st =>
      (st.inflightSend + 1) ::
        if st.windowOk 1 then [st.sendNext + st.cutLength available.length] else []

/-- The `u64` sums that an action of the session computes. -/
def sums : IntakeAction → List Nat
  | .arrive path frame inputs now =>
      match streamFrame? frame with
      | some (.streamData data) => i.deliverDataSums data inputs path
      | some (.streamAck ack) => i.onAckSums ack now
      | _ => []
  | .accept id inputs _ =>
      match i.allocated? id with
      | none => []
      | some (early, allocated) => allocated.deliverEarlySums inputs early
  | .sendData id available _ _ => i.sendDataSums id available
  | .appRead id n inputs =>
      match i.table.getStream id with
      | none => []
      | some st => { st with bufferedIn := st.bufferedIn - n }.drainSums inputs
  | _ => []

/-- No sum of the action exceeds `u64Max`. -/
def NoOverflow (action : IntakeAction) : Prop := ∀ sum ∈ i.sums action, sum ≤ u64Max

/-! ## When the sums fit -/

/-- The piece ends within `u64` if the buffer takes it in, and the counters have room for it. -/
structure DataFits (st : StreamState) (data : StreamData) : Prop where
  pieceEnd : st.takesIn data.offset = true → data.offset + data.data.length ≤ u64Max
  buffered : st.takesIn data.offset = true →
    st.recvBuffered - st.replacedLength data.offset + data.data.length ≤ u64Max
  dup : i.dataDupRxBytes + st.dupBytes data ≤ u64Max
  afterFin : st.reset = false → st.pastFinal data.offset = true → i.ackAfterFin + 1 ≤ u64Max

def DeliveryFits (data : StreamData) : Prop :=
  ∀ st, i.table.getStream data.streamId = some st → i.DataFits st data

def EarlyFits (i : Intake) (inputs : CapInputs) : List (Nat × StreamData) → Prop
  | [] => True
  | piece :: rest =>
      i.DeliveryFits piece.2 ∧ (i.deliverData piece.1 piece.2 inputs).EarlyFits inputs rest

def Fits : IntakeAction → Prop
  | .arrive _ frame _ now =>
      (∀ data, streamFrame? frame = some (.streamData data) → i.DeliveryFits data) ∧
      ∀ ack st, streamFrame? frame = some (.streamAck ack) →
        i.table.getStream ack.streamId = some st →
        i.dataSacked + st.sackedCount ack now ≤ u64Max
  | .accept id inputs _ =>
      ∀ early allocated, i.allocated? id = some (early, allocated) →
        allocated.EarlyFits inputs early
  | .sendData id available _ _ =>
      ∀ st, i.sender? id available = some st → st.windowOk 1 = true →
        st.sendNext + st.cutLength available.length ≤ u64Max
  | _ => True

end Intake

end NyaLink
