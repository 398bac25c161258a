import NyaLink.Stream.Link

/-!
# The stream table

The streams of one session from their beginning to their end: the table, the
`opens` and `pending_early` tables beside it, and the scorecard that counts
beginnings and ends.  Paths and the frames that are sent are left out; what
reads them is an argument.

`begun` and `ended` are history.  The k-th stream of an id is the pair of the id
and k.
-/

namespace NyaLink

structure Scorecard where
  streamsOpened : Nat
  streamsClosed : Nat
  streamReapsLinger : Nat
  streamResets : Nat
  streamResetsDialFailed : Nat
  streamResetsTimeout : Nat
  streamResetsPeer : Nat
  streamResetsSessionDead : Nat
  streamResetsProtocol : Nat
  deriving DecidableEq, Repr

namespace Scorecard

def zero : Scorecard := ⟨0, 0, 0, 0, 0, 0, 0, 0, 0⟩

def countOpened (card : Scorecard) : Scorecard :=
  { card with streamsOpened := card.streamsOpened + 1 }

def countReset (card : Scorecard) (reason : ResetReason) : Scorecard :=
  let card := { card with streamResets := card.streamResets + 1 }
  match reason with
  | .dialFailed => { card with streamResetsDialFailed := card.streamResetsDialFailed + 1 }
  | .timeout => { card with streamResetsTimeout := card.streamResetsTimeout + 1 }
  | .peerReset => { card with streamResetsPeer := card.streamResetsPeer + 1 }
  | .sessionDead => { card with streamResetsSessionDead := card.streamResetsSessionDead + 1 }
  | .protocol => { card with streamResetsProtocol := card.streamResetsProtocol + 1 }
  | .unknown => { card with streamResetsProtocol := card.streamResetsProtocol + 1 }

/-- The counters `observe_stream_end` bumps; a timeout of a stream that has made all its
progress is a close. -/
def observeEnd (card : Scorecard) (fine : Bool) (reason : Option ResetReason) : Scorecard :=
  match reason with
  | none => { card with streamsClosed := card.streamsClosed + 1 }
  | some why =>
      if why = .timeout ∧ fine = true then
        { card with
          streamsClosed := card.streamsClosed + 1
          streamReapsLinger := card.streamReapsLinger + 1 }
      else card.countReset why

def resetsByReason (card : Scorecard) : Nat :=
  card.streamResetsDialFailed + card.streamResetsTimeout + card.streamResetsPeer +
    card.streamResetsSessionDead + card.streamResetsProtocol

end Scorecard

structure OpenUnacked where
  pathId : Nat
  target : Target
  tried : List Nat
  deriving DecidableEq, Repr

structure StreamTable where
  isClient : Bool
  initialWindow : Nat
  chan : Nat
  nextStreamId : Nat
  streams : OrdMap Nat StreamState
  opens : OrdMap Nat OpenUnacked
  pendingEarly : List (Nat × StreamData)
  dead : Bool
  metrics : Scorecard
  begun : List Nat
  ended : List (Nat × Nat)
  deriving DecidableEq

/-- What a server does with accepted streams: nobody takes them, or the bounded channel has or
lacks a free slot. -/
inductive Incoming where
  | absent
  | room
  | full
  deriving DecidableEq, Repr

namespace StreamTable

def new (isClient : Bool) (initialWindow chan : Nat) : StreamTable where
  isClient := isClient
  initialWindow := initialWindow
  chan := chan
  nextStreamId := 1
  streams := .empty
  opens := .empty
  pendingEarly := []
  dead := false
  metrics := .zero
  begun := []
  ended := []

def getStream (t : StreamTable) (id : Nat) : Option StreamState := t.streams.get? id

def modifyStream (t : StreamTable) (id : Nat) (change : StreamState → StreamState) : StreamTable :=
  { t with streams := t.streams.modify id change }

def openPending (t : StreamTable) (id : Nat) : Bool := (t.opens.get? id).isSome

def progressFine (t : StreamTable) (id : Nat) (st : StreamState) : Bool :=
  st.overlayProgressFine (t.openPending id)

def rememberOpen (t : StreamTable) (id path : Nat) (target : Target) : StreamTable :=
  { t with opens := t.opens.insert id ⟨path, target, [path]⟩ }

def forgetOpen (t : StreamTable) (id : Nat) : StreamTable :=
  { t with opens := t.opens.erase id }

/-! ## Beginnings -/

def tryAllocLocalStream (t : StreamTable) (id : Nat) : Option StreamTable :=
  if (t.getStream id).isSome then none
  else
    some { t with
      streams := t.streams.insert id (.new id t.initialWindow t.chan)
      begun := id :: t.begun }

def noteOpened (t : StreamTable) : StreamTable :=
  { t with metrics := t.metrics.countOpened }

/-- `open_stream`, which remembers the path the StreamOpen went to last. -/
def openStream (t : StreamTable) (target : Target) (path : Nat) : Option StreamTable :=
  if t.isClient then
    ({ t with nextStreamId := t.nextStreamId + 1 }.tryAllocLocalStream t.nextStreamId).map
      fun allocated : StreamTable => allocated.noteOpened.rememberOpen t.nextStreamId path target
  else none

/-! ## Ends -/

def removeHeldStream (t : StreamTable) (id : Nat) : StreamTable :=
  match t.getStream id with
  | none => t
  | some _ => { t with streams := t.streams.erase id }.forgetOpen id

def observeStreamEnd (t : StreamTable) (id : Nat) (st : StreamState)
    (reason : Option ResetReason) : StreamTable :=
  { t with
    metrics := t.metrics.observeEnd (t.progressFine id st) reason
    ended := (id, t.begun.count id) :: t.ended }

/-- The compare-exchange on `counted_close`, whose winner observes the end. -/
def countClose (t : StreamTable) (id : Nat) (reason : Option ResetReason) : StreamTable :=
  match t.getStream id with
  | none => t
  | some st =>
      if st.countedClose then t
      else (t.modifyStream id StreamState.countClose).observeStreamEnd id st reason

def maybeCountGraceful (t : StreamTable) (id : Nat) : StreamTable :=
  match t.getStream id with
  | none => t
  | some st =>
      if !st.sendFinSent || !st.recvFin then t else (t.countClose id none).removeHeldStream id

def finishStream (t : StreamTable) (id : Nat) (reason : ResetReason) : StreamTable :=
  ((t.modifyStream id fun st => st.setReset reason (t.openPending id)).countClose id
    (some reason)).removeHeldStream id

def closeSend (t : StreamTable) (id : Nat) : StreamTable :=
  match t.getStream id with
  | none => t
  | some st =>
      if st.sendFinSent then t
      else
        (t.modifyStream id fun st => { st with sendFinSent := true }.unstick).maybeCountGraceful id

def applyRecvFin (t : StreamTable) (id : Nat) : StreamTable :=
  (t.modifyStream id fun st => st.setRecvFin.unstick).maybeCountGraceful id

def tryFinishRecvClose (t : StreamTable) (id : Nat) : StreamTable :=
  match t.getStream id with
  | none => t
  | some st =>
      match st.recvCloseOff with
      | none => t
      | some off => if st.recvFin || decide (st.recvNext < off) then t else t.applyRecvFin id

def onPeerClose (t : StreamTable) (close : StreamClose) : StreamTable :=
  (t.modifyStream close.streamId fun st => st.announceFinal close).tryFinishRecvClose
    close.streamId

def lingerReapProgressFine (t : StreamTable) (id : Nat) : StreamTable :=
  match t.getStream id with
  | none => t
  | some st =>
      if !t.progressFine id st then t.finishStream id .timeout
      else if st.countedClose then t
      else
        ((t.countClose id (some .timeout)).modifyStream id StreamState.setRecvFin).removeHeldStream
          id

def residualDClient (t : StreamTable) (id : Nat) : StreamTable :=
  match t.getStream id with
  | none => t
  | some st =>
      if !t.isClient || st.recvFin || !t.progressFine id st then
        if t.progressFine id st then t.lingerReapProgressFine id else t.finishStream id .timeout
      else if st.countedClose then t
      else
        ((t.countClose id (some .timeout)).modifyStream id StreamState.setRecvFin).removeHeldStream
          id

/-- One stream of `timeout_ids` in `reap_closed_streams`. -/
def reapTimeout (t : StreamTable) (id : Nat) : StreamTable :=
  match t.getStream id with
  | none => t
  | some st =>
      if t.progressFine id st then
        if st.recvFin || !t.isClient then t.lingerReapProgressFine id else t.residualDClient id
      else t.finishStream id .timeout

def dropId (st : StreamState) : Bool := st.countedClose || st.reset

def timeoutId (expired : List Nat) (id : Nat) (st : StreamState) : Bool :=
  !dropId st && (st.sendFinSent || st.recvFin) && decide (id ∈ expired)

def idsWhere (t : StreamTable) (keep : Nat → StreamState → Bool) : List Nat :=
  (t.streams.filter keep).entries.map Prod.fst

/-- `reap_closed_streams`; `expired` are the streams whose close began a linger ago. -/
def reapClosedStreams (t : StreamTable) (expired : List Nat) : StreamTable :=
  (t.idsWhere (timeoutId expired)).foldl reapTimeout
    ((t.idsWhere fun _ st => dropId st).foldl removeHeldStream t)

/-- `reap_stream`, when both loops of the pump have ended. -/
def reapStream (t : StreamTable) (id : Nat) : StreamTable :=
  match t.getStream id with
  | none => t
  | some st =>
      if st.countedClose then t.removeHeldStream id
      else if st.sendFinSent && st.recvFin then t.maybeCountGraceful id
      else if t.progressFine id st then t
      else t.finishStream id .timeout

/-- `reset_stream` on each of these, as the all-down and correlated-silence timers do. -/
def resetAll (t : StreamTable) (reason : ResetReason) : StreamTable :=
  (t.idsWhere fun _ _ => true).foldl (fun t id => t.finishStream id reason) t

def markDead (t : StreamTable) : StreamTable :=
  if t.dead then t else { t with dead := true }.resetAll .sessionDead

def dropStream (t : StreamTable) (id : Nat) : StreamTable :=
  (t.modifyStream id fun st => { st with
    reset := true
    inbound := st.inbound.offer (.reset .sessionDead) }).countClose id (some .sessionDead)

/-- `Drop` of the session, which marks the streams and leaves them in the table. -/
def dropSession (t : StreamTable) : StreamTable :=
  if t.dead then t
  else (t.idsWhere fun _ _ => true).foldl dropStream { t with dead := true }

/-! ## Data and acknowledgements -/

def drainRecv (t : StreamTable) (id : Nat) (inputs : CapInputs) : StreamTable :=
  (t.modifyStream id fun st => st.drainTuned inputs).tryFinishRecvClose id

def noteAppRead (t : StreamTable) (id n : Nat) (inputs : CapInputs) : StreamTable :=
  (t.modifyStream id fun st => { st with bufferedIn := st.bufferedIn - n }).drainRecv id inputs

def deliverData (t : StreamTable) (path : Nat) (data : StreamData) (inputs : CapInputs) :
    StreamTable :=
  match t.getStream data.streamId with
  | none => t
  | some st =>
      if st.reset || st.pastFinal data.offset then t
      else
        let arrived := t.modifyStream data.streamId fun st => st.noteArrival path
        let t := if st.peerSeen then arrived else arrived.forgetOpen data.streamId
        if data.offset < st.recvNext then t
        else
          match st.recvBuf.get? data.offset with
          | some old =>
              t.modifyStream data.streamId fun st => st.replaceChunk data.offset old data.data
          | none =>
              (t.modifyStream data.streamId fun st =>
                st.bufferChunk data.offset data.data).drainRecv data.streamId inputs

def onData (t : StreamTable) (path : Nat) (data : StreamData) (inputs : CapInputs) : StreamTable :=
  match t.getStream data.streamId with
  | none => { t with pendingEarly := t.pendingEarly ++ [(path, data)] }
  | some _ => t.deliverData path data inputs

def onAck (t : StreamTable) (ack : StreamAck) (now : Nat) : StreamTable :=
  match t.getStream ack.streamId with
  | none => t
  | some _ => (t.modifyStream ack.streamId fun st => st.onAck ack now).forgetOpen ack.streamId

/-- `send_data` cuts one piece and puts it on a path. -/
def sendPiece (t : StreamTable) (id : Nat) (piece : Bytes) (path now : Nat) : StreamTable :=
  t.modifyStream id fun st => { st with
    sendNext := st.sendNext + piece.length
    unacked := st.unacked.insert st.sendNext (Endpoint.newUnacked piece path now) }

/-- `take_early_data`: the early pieces of one stream, and the table without them. -/
def takeEarlyData (t : StreamTable) (id : Nat) : List (Nat × StreamData) × StreamTable :=
  (t.pendingEarly.filter fun early => decide (early.2.streamId = id),
    { t with pendingEarly := t.pendingEarly.filter fun early => decide (early.2.streamId ≠ id) })

/-- `accept_remote_stream`; the second part says that an `IncomingStream` was emitted. -/
def acceptRemoteStream (t : StreamTable) (id : Nat) (inputs : CapInputs) (incoming : Incoming) :
    StreamTable × Bool :=
  match t.tryAllocLocalStream id with
  | none => (t, false)
  | some allocated =>
      let (early, t) := allocated.noteOpened.takeEarlyData id
      let t := early.foldl (fun t piece => t.deliverData piece.1 piece.2 inputs) t
      match incoming with
      | .absent => (t, false)
      | .room => (t, true)
      | .full => (t.finishStream id .protocol, false)

end StreamTable

end NyaLink
