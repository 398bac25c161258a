import NyaLink.Library.Pipe
import NyaLink.Stream.EndOfFile
import NyaLink.Hop.Copy

/-!
# From the session to the local socket

One side of a stream with its pump, the pipe to the application and the copy of
the hop.  A read of the pipe has no way to fail, so a reset shows as an end of
file; the copy tells it by `reaped`, which it takes from the removal of the
stream.
-/

namespace NyaLink

open StreamState

/-! ## What the session does to a stream -/

namespace StreamState

/-- The session adds messages to the channel, a Reset only with the flag, and never takes back the
flag or the removal of the stream. -/
structure Grows (before after : StreamState) : Prop where
  appended : ∃ added, after.inbound.log = before.inbound.log ++ added ∧
    after.inbound.queue = before.inbound.queue ++ added ∧
    ∀ reason, .reset reason ∈ added → after.reset = true
  reset : before.reset = true → after.reset = true
  gone : before.gone = true → after.gone = true

theorem Grows.refl (st : StreamState) : Grows st st :=
  ⟨⟨[], by simp⟩, fun reset => reset, fun gone => gone⟩

theorem Grows.trans {first second third : StreamState} (earlier : Grows first second)
    (later : Grows second third) : Grows first third := by
  obtain ⟨added, log, queue, flagged⟩ := earlier.appended
  obtain ⟨more, moreLog, moreQueue, moreFlagged⟩ := later.appended
  refine ⟨⟨added ++ more, ?_, ?_, ?_⟩, fun reset => later.reset (earlier.reset reset),
    fun gone => later.gone (earlier.gone gone)⟩
  · rw [moreLog, log, List.append_assoc]
  · rw [moreQueue, queue, List.append_assoc]
  · intro reason membership
    rcases List.mem_append.mp membership with old | new
    · exact later.reset (flagged reason old)
    · exact moreFlagged reason new

theorem Grows.offer {before after : StreamState} (grows : Grows before after) {message : Inbound}
    (flagged : ∀ reason, message = .reset reason → after.reset = true) :
    Grows before { after with inbound := after.inbound.offer message } := by
  refine grows.trans ⟨?_, fun reset => reset, fun gone => gone⟩
  unfold Inbox.offer
  cases accepted : after.inbound.trySend message with
  | none => exact ⟨[], by simp⟩
  | some inbox =>
      refine ⟨[message], ?_, ?_, ?_⟩
      · rw [Option.getD_some, Inbox.trySend_eq_some accepted]
      · rw [Option.getD_some, Inbox.trySend_eq_some accepted]
      · intro reason membership
        exact flagged reason (List.mem_singleton.mp membership).symm

theorem grows_removeHeldStream (st : StreamState) : Grows st st.removeHeldStream := by
  unfold removeHeldStream
  split
  · exact Grows.refl st
  · exact { Grows.refl st with gone := fun _ => rfl }

theorem grows_countClose (st : StreamState) : Grows st st.countClose := by
  unfold countClose observeStreamEnd
  split
  · exact Grows.refl st
  · split
    · exact { Grows.refl st with }
    · exact { Grows.refl st with }

theorem grows_maybeCountGraceful (st : StreamState) : Grows st st.maybeCountGraceful := by
  unfold maybeCountGraceful
  split
  · exact Grows.refl st
  · exact (grows_countClose st).trans (grows_removeHeldStream _)

theorem grows_setRecvFin (st : StreamState) : Grows st st.setRecvFin := by
  unfold setRecvFin
  split
  · exact Grows.refl st
  · have flagged : Grows st { st with recvFin := true } := { Grows.refl st with }
    exact flagged.offer nofun

theorem grows_setReset (st : StreamState) (reason : ResetReason) (openPending : Bool) :
    Grows st (st.setReset reason openPending) := by
  unfold setReset
  split
  · exact Grows.refl st
  · have flagged : Grows st { st with reset := true } :=
      ⟨⟨[], by simp⟩, fun _ => rfl, fun gone => gone⟩
    split
    · exact flagged
    · exact flagged.offer fun _ _ => rfl

theorem grows_finishStream (st : StreamState) (reason : ResetReason) (openPending : Bool) :
    Grows st (st.finishStream reason openPending) :=
  ((grows_setReset st reason openPending).trans (grows_countClose _)).trans
    (grows_removeHeldStream _)

theorem grows_tryFinishRecvClose (st : StreamState) : Grows st st.tryFinishRecvClose := by
  unfold tryFinishRecvClose
  split
  · exact Grows.refl st
  · split
    · exact Grows.refl st
    · have unstuck : Grows st.setRecvFin st.setRecvFin.unstick := { Grows.refl _ with }
      exact ((grows_setRecvFin st).trans unstuck).trans (grows_maybeCountGraceful _)

theorem Reaped.grows {st after : StreamState} {openPending : Bool}
    (reaped : Reaped st openPending after) : Grows st after := by
  cases reaped with
  | kept => exact Grows.refl st
  | removed => exact grows_removeHeldStream st
  | counted => exact grows_maybeCountGraceful st
  | quiet =>
      exact ((grows_countClose st).trans (grows_setRecvFin _)).trans (grows_removeHeldStream _)
  | reset => exact grows_finishStream st _ _

theorem grows_closeSend (st : StreamState) :
    Grows st ((st.closeSend.map Prod.fst).getD st) := by
  unfold closeSend
  split
  · exact Grows.refl st
  · have flagged : Grows st { st with sendFinSent := true }.unstick := { Grows.refl st with }
    exact flagged.trans (grows_maybeCountGraceful _)

theorem grows_drainTuned (st : StreamState) (inputs : CapInputs) :
    Grows st (st.drainTuned inputs) := by
  apply drainTuned_induction inputs
  · intro reached chunk inbound grows _ sent
    obtain rfl := Inbox.trySend_eq_some sent
    refine grows.trans ⟨⟨[.data chunk], rfl, rfl, fun reason membership => ?_⟩,
      fun reset => reset, fun gone => gone⟩
    cases List.mem_singleton.mp membership
  · exact fun reached grows => grows.trans { Grows.refl reached with }
  · exact Grows.refl st

theorem grows_bufferArrival (st : StreamState) (path : Nat) (data : StreamData) :
    Grows st (st.bufferArrival path data) := by
  simp only [bufferArrival]
  split
  · exact Grows.refl st
  · split
    · exact { Grows.refl st with }
    · split
      · exact { Grows.refl st with }
      · exact { Grows.refl st with }

theorem grows_onAck (st : StreamState) (ack : StreamAck) (now : Nat) :
    Grows st (st.onAck ack now) := by
  simp only [onAck, ackSelective, ackCumulative]
  split
  · split
    · exact { Grows.refl st with }
    · exact { Grows.refl st with }
  · split
    · exact { Grows.refl st with }
    · exact { Grows.refl st with }

theorem grows_announceFinal (st : StreamState) (close : StreamClose) :
    Grows st (st.announceFinal close) := by
  unfold announceFinal
  split
  · exact Grows.refl st
  · exact { Grows.refl st with }

theorem grows_apply (st : StreamState) (part : RecvPart) : Grows st (part.apply st) := by
  cases part with
  | arrive path data => exact grows_bufferArrival st path data
  | drain inputs => exact grows_drainTuned st inputs
  | lookAtFin => exact grows_tryFinishRecvClose st
  | announce close => exact grows_announceFinal st close
  | send n => exact { Grows.refl st with }
  | acked ack now => exact grows_onAck st ack now
  | closeSend => exact grows_closeSend st
  | reset reason openPending => exact grows_finishStream st reason openPending
  | lingerReap openPending => exact (reaped_lingerReapProgressFine st openPending).grows
  | residual openPending => exact (reaped_residualDClient st openPending).grows
  | reapHalfClosed isClient openPending =>
      exact (reaped_reapHalfClosed st isClient openPending).grows
  | reapStream openPending => exact (reaped_reapStream st openPending).grows

end StreamState

/-! ## The pump and the copy -/

/-- The receive loop of the pump. -/
inductive RecvLoop where
  | waiting
  /-- In `write_all`; `count` bytes of data were taken. -/
  | writing (rest : Bytes) (count : Nat)
  /-- About to call `note_app_read`. -/
  | reporting (count : Nat)
  | ended
  deriving DecidableEq, Repr

def RecvLoop.unwritten : RecvLoop → Bytes
  | .writing rest _ => rest
  | _ => []

/-- The send loop of the pump. -/
inductive SendLoop where
  | reading
  /-- In `send_data`. -/
  | sending
  | ended
  deriving DecidableEq, Repr

/-- `consumed` lists what the pump took from the inbound channel; `localEof` and `localShut` say
that the local socket was read to its end, and that its writer was shut down. -/
structure Tunnel where
  st : StreamState
  recvLoop : RecvLoop
  sendLoop : SendLoop
  toApp : Pipe UInt8
  fromApp : Pipe UInt8
  appDropped : Bool
  copy : CopyTimed
  consumed : List Inbound
  localEof : Bool
  localShut : Bool

/-- The parts that may follow an earlier part of their operation. -/
def RecvPart.continues : RecvPart → Bool
  | .drain _ => true
  | .lookAtFin => true
  | _ => false

inductive TunnelAction where
  /-- A part of an operation on a stream of the table, or of one that goes on after the removal. -/
  | part (part : RecvPart)
  /-- `finish_stream` up to the frame it sends; the rest is the part `reset`. -/
  | markReset (reason : ResetReason) (openPending : Bool)
  | receive
  | writeSome (count : Nat)
  | report
  | readApp (count : Nat)
  /-- `send_data` returns; its pieces are parts of the stream. -/
  | sendData (ok : Bool)
  | readEof
  | noticeGone
  | localRead (bytes : Bytes)
  | overlayWrite (count : Nat)
  | overlayFlush
  | overlayShutdown
  | overlayRead (count : Nat)
  | localWrite (count : Nat)
  | localFlush
  | localShutdown
  /-- An error of the local socket. -/
  | localError
  | finish
  | dropTunnel
  deriving DecidableEq, Repr

namespace Tunnel

def new (id initialWindow chan : Nat) : Tunnel where
  st := .new id initialWindow chan
  recvLoop := .waiting
  sendLoop := .reading
  toApp := .new initialWindow
  fromApp := .new initialWindow
  appDropped := false
  copy := .new
  consumed := []
  localEof := false
  localShut := false

/-- Both loops are over, so the pump's end of the two pipes is dropped. -/
def pumpEnded (t : Tunnel) : Bool := decide (t.recvLoop = .ended ∧ t.sendLoop = .ended)

/-! ## The session and the pump -/

def onStream (t : Tunnel) (part : RecvPart) : Option Tunnel :=
  if t.st.gone && !part.continues then none else some { t with st := part.apply t.st }

/-- Ending its loop, the pump drops the receiver of the channel. -/
def endRecv (t : Tunnel) : Tunnel :=
  { t with
    recvLoop := .ended
    st := { t.st with inbound := { t.st.inbound with closed := true } } }

def consume (t : Tunnel) (message : Inbound) (queue : List Inbound) : Tunnel :=
  { t with
    st := { t.st with inbound := { t.st.inbound with queue } }
    consumed := t.consumed ++ [message] }

/-- `inbound_rx.recv()`; it returns `None` on an empty channel that has lost its sender, which is
dropped with the stream of the table. -/
def receive (t : Tunnel) : Option Tunnel :=
  match t.recvLoop, t.st.inbound.queue with
  | .waiting, .data bytes :: queue =>
      some { t.consume (.data bytes) queue with recvLoop := .writing bytes bytes.length }
  | .waiting, .close :: queue =>
      some { (t.consume .close queue).endRecv with toApp := t.toApp.shutDown }
  | .waiting, .reset reason :: queue => some (t.consume (.reset reason) queue).endRecv
  | .waiting, [] => if t.st.gone then some t.endRecv else none
  | _, _ => none

/-- A round of `write_all`. -/
def writeSome (t : Tunnel) (count : Nat) : Option Tunnel :=
  match t.recvLoop with
  | .writing rest taken =>
      if rest.isEmpty then some { t with recvLoop := .reporting taken }
      else if t.appDropped then some t.endRecv
      else if 1 ≤ count ∧ count ≤ rest.length ∧ t.toApp.hasRoom count = true then
        some { t with
          toApp := t.toApp.write (rest.take count)
          recvLoop := .writing (rest.drop count) taken }
      else none
  | _ => none

/-- `note_app_read` up to the drain. -/
def report (t : Tunnel) : Option Tunnel :=
  match t.recvLoop with
  | .reporting count =>
      if t.st.gone then some { t with recvLoop := .waiting }
      else some { t with
        recvLoop := .waiting
        st := { t.st with bufferedIn := t.st.bufferedIn - count } }
  | _ => none

def readApp (t : Tunnel) (count : Nat) : Option Tunnel :=
  if t.sendLoop = .reading ∧ 1 ≤ count ∧ count ≤ t.fromApp.buffered.length ∧
      count ≤ maxStreamPayload then
    some { t with fromApp := t.fromApp.read count, sendLoop := .sending }
  else none

def sendData (t : Tunnel) (ok : Bool) : Option Tunnel :=
  if t.sendLoop = .sending then some { t with sendLoop := if ok then .reading else .ended }
  else none

/-- The pump reads the end of the application's data and calls `close_send`. -/
def readEof (t : Tunnel) : Option Tunnel :=
  if t.sendLoop = .reading ∧ t.fromApp.buffered = [] ∧
      (t.fromApp.shut || t.appDropped) = true then
    some { t with
      sendLoop := .ended
      st := if t.st.gone then t.st else (t.st.closeSend.map Prod.fst).getD t.st }
  else none

/-! ## The copy -/

/-- The copy goes on until it has a result. -/
def onCopy (t : Tunnel) (change : CopyTimed → Option CopyTimed) : Option Tunnel :=
  if t.copy.result.isSome then none
  else (change t.copy).map fun copy => { t with copy }

def localRead (t : Tunnel) (bytes : Bytes) : Option Tunnel :=
  (t.onCopy fun c => (c.ab.read bytes).map fun ab => { c with ab }).map fun t =>
    if bytes.isEmpty then { t with localEof := true } else t

/-- A write into the pipe fails once the pump is gone. -/
def overlayWrite (t : Tunnel) (count : Nat) : Option Tunnel :=
  if t.pumpEnded then
    if t.copy.ab.buf.isEmpty then none
    else t.onCopy fun c => some { c with result := some .failed }
  else if t.fromApp.hasRoom count then
    (t.onCopy fun c => (c.ab.write count).map fun ab => { c with ab }).map fun after =>
      { after with fromApp := t.fromApp.write (t.copy.ab.buf.take count) }
  else none

def overlayShutdown (t : Tunnel) : Option Tunnel :=
  (t.onCopy fun c => c.ab.shutdown.map fun ab => { c with ab }).map fun t =>
    { t with fromApp := t.fromApp.shutDown }

/-- `TunnelStream::poll_read`: buffered bytes first, the end of file once the pump has shut the
pipe down or dropped it. -/
def overlayRead (t : Tunnel) (count : Nat) : Option Tunnel :=
  if t.toApp.buffered = [] then
    if t.toApp.shut || t.pumpEnded then
      t.onCopy fun c => (c.ba.read []).map fun ba => { c with ba }
    else none
  else if 1 ≤ count ∧ count ≤ t.toApp.buffered.length then
    (t.onCopy fun c => (c.ba.read (t.toApp.buffered.take count)).map fun ba => { c with ba }).map
      fun after => { after with toApp := t.toApp.read count }
  else none

def localShutdown (t : Tunnel) : Option Tunnel :=
  (t.onCopy fun c => c.ba.shutdown.map fun ba => { c with ba }).map fun t =>
    { t with localShut := true }

def step (t : Tunnel) : TunnelAction → Option Tunnel
  | .part part => t.onStream part
  | .markReset reason openPending => some { t with st := t.st.setReset reason openPending }
  | .receive => t.receive
  | .writeSome count => t.writeSome count
  | .report => t.report
  | .readApp count => t.readApp count
  | .sendData ok => t.sendData ok
  | .readEof => t.readEof
  | .noticeGone =>
      if t.st.gone && !t.copy.goneSeen then t.onCopy fun c => some c.noticeGone else none
  | .localRead bytes => t.localRead bytes
  | .overlayWrite count => t.overlayWrite count
  | .overlayFlush => t.onCopy fun c => c.ab.flush.map fun ab => { c with ab }
  | .overlayShutdown => t.overlayShutdown
  | .overlayRead count => t.overlayRead count
  | .localWrite count => t.onCopy fun c => (c.ba.write count).map fun ba => { c with ba }
  | .localFlush => t.onCopy fun c => c.ba.flush.map fun ba => { c with ba }
  | .localShutdown => t.localShutdown
  | .localError => t.onCopy fun c => some { c with result := some .failed }
  | .finish => t.onCopy CopyTimed.finish
  | .dropTunnel => if t.copy.result.isSome then some { t with appDropped := true } else none

/-- A new stream, on a channel with at least one slot. -/
def Initial (t : Tunnel) : Prop :=
  ∃ id initialWindow chan, 1 ≤ chan ∧ t = new id initialWindow chan

def machine : Machine Tunnel TunnelAction := ⟨Initial, step⟩

/-- Everything up to the final offset that the peer announced was read. -/
def Complete (t : Tunnel) : Prop :=
  ∃ off, t.st.recvCloseOff = some off ∧ off ≤ t.toApp.seen.length

/-- The receive loop ended with the Close. -/
def CloseTaken (t : Tunnel) : Prop := ∃ before, t.consumed = before ++ [.close]

/-- The data the pump took from the channel. -/
def payloads (t : Tunnel) : Bytes := t.consumed.flatMap Inbound.payload

/-! ## What the application reads -/

structure Faithful (t : Tunnel) : Prop where
  truthful : t.st.Truthful
  untold : t.st.gone = false → t.st.Untold
  resets : ∀ reason, .reset reason ∈ t.st.inbound.log → t.st.reset = true
  log : t.st.inbound.log = t.consumed ++ t.st.inbound.queue
  fed : t.appDropped = false → t.toApp.put ++ t.recvLoop.unwritten = t.payloads
  running : t.recvLoop ≠ .ended → t.toApp.put ++ t.recvLoop.unwritten = t.payloads
  stopped : t.recvLoop = .ended → t.toApp.put <+: t.payloads ∧
    (t.CloseTaken ∨ t.st.reset = true ∨ t.st.gone = true ∨ t.toApp.put ≠ t.payloads)
  shut : t.toApp.shut = true → t.recvLoop = .ended
  dropped : t.appDropped = true → t.copy.result.isSome = true
  drained : t.copy.ba.readDone = true →
    t.recvLoop = .ended ∧ t.toApp.buffered = [] ∧ t.toApp.put = t.payloads

/-- The flow towards the application is as before, and the copy did not read its end. -/
structure SameFlow (before after : Tunnel) : Prop where
  st : after.st = before.st
  recvLoop : after.recvLoop = before.recvLoop
  toApp : after.toApp = before.toApp
  consumed : after.consumed = before.consumed
  kept : before.appDropped = true → after.appDropped = true
  dropped : after.appDropped = true → before.appDropped = true ∨ after.copy.result.isSome = true
  result : before.copy.result.isSome = true → after.copy.result.isSome = true
  readDone : after.copy.ba.readDone = true → before.copy.ba.readDone = true

theorem Faithful.of_same {before after : Tunnel} (faithful : before.Faithful)
    (same : SameFlow before after) : after.Faithful := by
  have payloads : after.payloads = before.payloads := by
    unfold Tunnel.payloads
    rw [same.consumed]
  constructor
  · rw [same.st]
    exact faithful.truthful
  · rw [same.st]
    exact faithful.untold
  · rw [same.st]
    exact faithful.resets
  · rw [same.st, same.consumed]
    exact faithful.log
  · intro used
    rw [same.toApp, same.recvLoop, payloads]
    apply faithful.fed
    apply Bool.of_not_eq_true
    intro dropped
    rw [same.kept dropped] at used
    cases used
  · rw [same.toApp, same.recvLoop, payloads]
    exact faithful.running
  · unfold CloseTaken
    rw [same.toApp, same.recvLoop, same.st, same.consumed, payloads]
    exact faithful.stopped
  · rw [same.toApp, same.recvLoop]
    exact faithful.shut
  · intro dropped
    rcases same.dropped dropped with earlier | result
    · exact same.result (faithful.dropped earlier)
    · exact result
  · intro readDone
    rw [same.toApp, same.recvLoop, payloads]
    exact faithful.drained (same.readDone readDone)

theorem Faithful.act {t : Tunnel} (faithful : t.Faithful) {after : StreamState}
    (grows : Grows t.st after) (truthful : after.Truthful)
    (untold : t.st.gone = false → after.gone = false → after.Untold) :
    { t with st := after }.Faithful := by
  have live : after.gone = false → t.st.gone = false := by
    intro stays
    apply Bool.of_not_eq_true
    intro gone
    rw [grows.gone gone] at stays
    cases stays
  obtain ⟨added, log, queue, flagged⟩ := grows.appended
  constructor
  · exact truthful
  · exact fun stays => untold (live stays) stays
  · intro reason membership
    rw [log] at membership
    rcases List.mem_append.mp membership with old | new
    · exact grows.reset (faithful.resets reason old)
    · exact flagged reason new
  · rw [log, queue, faithful.log, List.append_assoc]
  · exact faithful.fed
  · exact faithful.running
  · intro ended
    obtain ⟨written, why⟩ := faithful.stopped ended
    refine ⟨written, ?_⟩
    rcases why with closed | reset | gone | lost
    · exact .inl closed
    · exact .inr (.inl (grows.reset reset))
    · exact .inr (.inr (.inl (grows.gone gone)))
    · exact .inr (.inr (.inr lost))
  · exact faithful.shut
  · exact faithful.dropped
  · exact faithful.drained

theorem payloads_consume (t : Tunnel) (message : Inbound) (queue : List Inbound) :
    (t.consume message queue).payloads = t.payloads ++ message.payload := by
  unfold payloads consume
  rw [List.flatMap_append, List.flatMap_singleton]

theorem log_consume {t : Tunnel} (faithful : t.Faithful) {message : Inbound}
    {queue : List Inbound} (head : t.st.inbound.queue = message :: queue) :
    t.st.inbound.log = (t.consumed ++ [message]) ++ queue := by
  rw [faithful.log, head, List.append_assoc, List.singleton_append]

theorem Faithful.waiting {t : Tunnel} (faithful : t.Faithful) (waiting : t.recvLoop = .waiting) :
    t.recvLoop ≠ .ended ∧ t.toApp.put = t.payloads := by
  have running : t.recvLoop ≠ .ended := by
    rw [waiting]
    exact nofun
  have fed := faithful.running running
  rw [waiting] at fed
  exact ⟨running, (List.append_nil _).symm.trans fed⟩

theorem Faithful.consume {t : Tunnel} (faithful : t.Faithful) {message : Inbound}
    {queue : List Inbound} (head : t.st.inbound.queue = message :: queue)
    (waiting : t.recvLoop = .waiting) (empty : message.payload = []) :
    (t.consume message queue).Faithful := by
  have running := (faithful.waiting waiting).1
  have same : (t.consume message queue).payloads = t.payloads := by
    rw [payloads_consume, empty, List.append_nil]
  constructor
  · exact faithful.truthful.of_same { SameRecv.refl t.st with }
  · exact faithful.untold
  · exact faithful.resets
  · exact log_consume faithful head
  · rw [same]
    exact faithful.fed
  · rw [same]
    exact faithful.running
  · exact fun ended => absurd ended running
  · exact faithful.shut
  · exact faithful.dropped
  · exact fun readDone => absurd (faithful.drained readDone).1 running

theorem Faithful.endRecv {t : Tunnel} (faithful : t.Faithful) (running : t.recvLoop ≠ .ended)
    (why : t.recvLoop.unwritten = [] ∧ (t.CloseTaken ∨ t.st.reset = true ∨ t.st.gone = true) ∨
      t.appDropped = true ∧ t.recvLoop.unwritten ≠ []) : t.endRecv.Faithful := by
  have fed := faithful.running running
  constructor
  · exact faithful.truthful.of_same { SameRecv.refl t.st with closed := fun _ => rfl }
  · exact faithful.untold
  · exact faithful.resets
  · exact faithful.log
  · intro used
    rcases why with ⟨written, _⟩ | ⟨dropped, _⟩
    · rw [written] at fed
      exact fed
    · exact absurd dropped (Bool.not_eq_true _ ▸ used)
  · exact fun impossible => absurd rfl impossible
  · intro _
    refine ⟨⟨_, fed⟩, ?_⟩
    rcases why with ⟨_, closed | reset | gone⟩ | ⟨_, left⟩
    · exact .inl closed
    · exact .inr (.inl reset)
    · exact .inr (.inr (.inl gone))
    · refine .inr (.inr (.inr fun same => left ?_))
      have nothing : t.toApp.put ++ t.recvLoop.unwritten = t.toApp.put := fed.trans same.symm
      exact List.append_right_eq_self.mp nothing
  · exact fun _ => rfl
  · exact faithful.dropped
  · exact fun readDone => absurd (faithful.drained readDone).1 running

theorem Faithful.shutDown {t : Tunnel} (faithful : t.Faithful) (ended : t.recvLoop = .ended) :
    { t with toApp := t.toApp.shutDown }.Faithful :=
  ⟨faithful.truthful, faithful.untold, faithful.resets, faithful.log, faithful.fed,
    faithful.running, faithful.stopped, fun _ => ended, faithful.dropped, faithful.drained⟩

theorem Faithful.receive {t next : Tunnel} (faithful : t.Faithful)
    (taken : t.receive = some next) : next.Faithful := by
  unfold Tunnel.receive at taken
  split at taken
  · rename_i bytes queue waiting head
    cases taken
    obtain ⟨running, fed⟩ := faithful.waiting waiting
    have carried : t.toApp.put ++ bytes = (t.consume (.data bytes) queue).payloads := by
      rw [payloads_consume, Inbound.payload, fed]
    constructor
    · exact faithful.truthful.of_same { SameRecv.refl t.st with }
    · exact faithful.untold
    · exact faithful.resets
    · exact log_consume faithful head
    · exact fun _ => carried
    · exact fun _ => carried
    · intro impossible
      cases impossible
    · exact fun shut => absurd (faithful.shut shut) running
    · exact faithful.dropped
    · exact fun readDone => absurd (faithful.drained readDone).1 running
  · rename_i queue waiting head
    cases taken
    have closed := (faithful.consume head waiting rfl).endRecv (faithful.waiting waiting).1
      (.inl ⟨congrArg RecvLoop.unwritten waiting, .inl ⟨t.consumed, rfl⟩⟩)
    exact closed.shutDown rfl
  · rename_i reason queue waiting head
    cases taken
    have reset : t.st.reset = true := by
      apply faithful.resets reason
      rw [faithful.log, head]
      simp
    exact (faithful.consume head waiting rfl).endRecv (faithful.waiting waiting).1
      (.inl ⟨congrArg RecvLoop.unwritten waiting, .inr (.inl reset)⟩)
  · rename_i waiting _
    split at taken
    · rename_i gone
      cases taken
      exact faithful.endRecv (faithful.waiting waiting).1
        (.inl ⟨congrArg RecvLoop.unwritten waiting, .inr (.inr gone)⟩)
    · cases taken
  · cases taken

theorem Faithful.moveOn {t : Tunnel} (faithful : t.Faithful) (running : t.recvLoop ≠ .ended)
    {recvLoop : RecvLoop} {toApp : Pipe UInt8} (runs : recvLoop ≠ .ended)
    (written : toApp.put ++ recvLoop.unwritten = t.toApp.put ++ t.recvLoop.unwritten)
    (shut : toApp.shut = t.toApp.shut) : { t with recvLoop, toApp }.Faithful := by
  have fed := written.trans (faithful.running running)
  constructor
  · exact faithful.truthful
  · exact faithful.untold
  · exact faithful.resets
  · exact faithful.log
  · exact fun _ => fed
  · exact fun _ => fed
  · exact fun ended => absurd ended runs
  · intro closed
    rw [shut] at closed
    exact absurd (faithful.shut closed) running
  · exact faithful.dropped
  · exact fun readDone => absurd (faithful.drained readDone).1 running

theorem Faithful.writeSome {t next : Tunnel} (faithful : t.Faithful) {count : Nat}
    (taken : t.writeSome count = some next) : next.Faithful := by
  unfold Tunnel.writeSome at taken
  split at taken
  · rename_i rest bytes writing
    have running : t.recvLoop ≠ .ended := by
      rw [writing]
      exact nofun
    split at taken
    · rename_i written
      cases taken
      refine faithful.moveOn running nofun ?_ rfl
      rw [writing, List.isEmpty_iff.mp written]
      rfl
    · rename_i left
      split at taken
      · rename_i dropped
        cases taken
        refine faithful.endRecv running (.inr ⟨dropped, ?_⟩)
        rw [writing]
        exact fun empty => left (List.isEmpty_iff.mpr empty)
      · split at taken
        · cases taken
          refine faithful.moveOn running nofun ?_ rfl
          rw [writing, Pipe.put_write, List.append_assoc]
          exact congrArg _ (List.take_append_drop count rest)
        · cases taken
  · cases taken

theorem Faithful.report {t next : Tunnel} (faithful : t.Faithful)
    (taken : t.report = some next) : next.Faithful := by
  unfold Tunnel.report at taken
  split at taken
  · rename_i count reporting
    have running : t.recvLoop ≠ .ended := by
      rw [reporting]
      exact nofun
    have waits : { t with recvLoop := .waiting }.Faithful := by
      refine faithful.moveOn running nofun ?_ rfl
      rw [reporting]
      rfl
    split at taken
    · cases taken
      exact waits
    · cases taken
      refine waits.act { Grows.refl t.st with } ?_ fun live _ => faithful.untold live
      exact faithful.truthful.of_same { SameRecv.refl t.st with }
  · cases taken

theorem onCopy_eq_some {t next : Tunnel} {change : CopyTimed → Option CopyTimed}
    (taken : t.onCopy change = some next) : t.copy.result = none ∧
      ∃ copy, change t.copy = some copy ∧ next = { t with copy } := by
  unfold onCopy at taken
  split at taken
  · cases taken
  · rename_i running
    obtain ⟨copy, changed, rfl⟩ := Option.map_eq_some_iff.mp taken
    exact ⟨Option.not_isSome_iff_eq_none.mp running, copy, changed, rfl⟩

/-- A step of the direction from the local socket. -/
theorem onCopy_ab {t next : Tunnel} (change : DirState → Option DirState)
    (taken : (t.onCopy fun c => (change c.ab).map fun ab => { c with ab }) = some next) :
    t.copy.result = none ∧
      ∃ ab, change t.copy.ab = some ab ∧ next = { t with copy := { t.copy with ab } } := by
  obtain ⟨running, copy, changed, rfl⟩ := onCopy_eq_some taken
  obtain ⟨ab, changedAb, rfl⟩ := Option.map_eq_some_iff.mp changed
  exact ⟨running, ab, changedAb, rfl⟩

/-- A step of the direction to the local socket. -/
theorem onCopy_ba {t next : Tunnel} (change : DirState → Option DirState)
    (taken : (t.onCopy fun c => (change c.ba).map fun ba => { c with ba }) = some next) :
    t.copy.result = none ∧
      ∃ ba, change t.copy.ba = some ba ∧ next = { t with copy := { t.copy with ba } } := by
  obtain ⟨running, copy, changed, rfl⟩ := onCopy_eq_some taken
  obtain ⟨ba, changedBa, rfl⟩ := Option.map_eq_some_iff.mp changed
  exact ⟨running, ba, changedBa, rfl⟩

/-- A step of the copy that does not read the overlay stream. -/
theorem sameFlow_copy {t : Tunnel} {copy : CopyTimed} (running : t.copy.result = none)
    (readDone : copy.ba.readDone = true → t.copy.ba.readDone = true) :
    SameFlow t { t with copy } where
  st := rfl
  recvLoop := rfl
  toApp := rfl
  consumed := rfl
  kept := fun dropped => dropped
  dropped := fun dropped => .inl dropped
  result := fun finished => by
    rw [running] at finished
    cases finished
  readDone := readDone

theorem Faithful.used {t : Tunnel} (faithful : t.Faithful) (running : t.copy.result = none) :
    t.appDropped = false := by
  apply Bool.of_not_eq_true
  intro dropped
  have finished := faithful.dropped dropped
  rw [running] at finished
  cases finished

theorem Faithful.overlayRead {t next : Tunnel} (faithful : t.Faithful) {count : Nat}
    (taken : t.overlayRead count = some next) : next.Faithful := by
  unfold Tunnel.overlayRead at taken
  split at taken
  · rename_i drained
    split at taken
    · rename_i ending
      obtain ⟨running, copy, _, rfl⟩ := onCopy_eq_some taken
      have used := faithful.used running
      have ended : t.recvLoop = .ended := by
        rcases Bool.or_eq_true_iff.mp ending with shut | pumpEnded
        · exact faithful.shut shut
        · exact (of_decide_eq_true pumpEnded).1
      have fed := faithful.fed used
      rw [ended] at fed
      have all : t.toApp.put = t.payloads := (List.append_nil _).symm.trans fed
      refine { faithful with dropped := ?_, drained := fun _ => ⟨ended, drained, all⟩ }
      intro dropped
      cases used.symm.trans dropped
    · cases taken
  · split at taken
    · rename_i within
      obtain ⟨after, copied, rfl⟩ := Option.map_eq_some_iff.mp taken
      obtain ⟨running, ba, readBytes, rfl⟩ :=
        onCopy_ba (·.read (t.toApp.buffered.take count)) copied
      refine { faithful with dropped := ?_, drained := ?_ }
      · intro dropped
        cases (faithful.used running).symm.trans dropped
      · intro readDone
        have nonempty : t.toApp.buffered.take count ≠ [] := by
          have positive : 0 < (t.toApp.buffered.take count).length := by
            rw [List.length_take]
            omega
          exact List.length_pos_iff.mp positive
        obtain ⟨unread, ⟨empty, _⟩ | ⟨_, rfl⟩⟩ := DirState.read_cases readBytes
        · exact absurd empty nonempty
        · exact absurd (unread.symm.trans readDone) nofun
    · cases taken

theorem onStream_eq_some {t next : Tunnel} {part : RecvPart}
    (taken : t.onStream part = some next) :
    (t.st.gone = false ∨ part.continues = true) ∧ next = { t with st := part.apply t.st } := by
  unfold onStream at taken
  split at taken
  · cases taken
  · rename_i acts
    refine ⟨?_, (Option.some.inj taken).symm⟩
    cases gone : t.st.gone with
    | false => exact .inl rfl
    | true =>
        rw [gone, Bool.true_and, Bool.not_eq_true, Bool.not_eq_false'] at acts
        exact .inr acts

theorem truthful_of_continues {st : StreamState} (truthful : st.Truthful) {part : RecvPart}
    (continues : part.continues = true) : (part.apply st).Truthful := by
  cases part with
  | drain inputs => exact truthful.drainTuned inputs
  | lookAtFin => exact truthful.tryFinishRecvClose
  | _ => cases continues

theorem SameFlow.refl (t : Tunnel) : SameFlow t t where
  st := rfl
  recvLoop := rfl
  toApp := rfl
  consumed := rfl
  kept := fun dropped => dropped
  dropped := .inl
  result := fun finished => finished
  readDone := fun readDone => readDone

theorem Faithful.readEof {t next : Tunnel} (faithful : t.Faithful)
    (taken : t.readEof = some next) : next.Faithful := by
  unfold Tunnel.readEof at taken
  split at taken
  · cases taken
    have acted : { t with st := if t.st.gone then t.st else
        (t.st.closeSend.map Prod.fst).getD t.st }.Faithful := by
      split
      · exact faithful
      · have same := sameRecv_closeSend t.st
        refine faithful.act (grows_closeSend t.st) (faithful.truthful.of_same same) ?_
        exact fun live _ => (faithful.untold live).of_same same
    exact acted.of_same { SameFlow.refl _ with }
  · cases taken

/-- A step of the direction from the local socket, or of the local socket's writer. -/
theorem faithful_copy {t next : Tunnel} (faithful : t.Faithful)
    {change : CopyTimed → Option CopyTimed} (taken : t.onCopy change = some next)
    (readDone : ∀ copy, change t.copy = some copy → copy.ba.readDone = t.copy.ba.readDone) :
    next.Faithful := by
  obtain ⟨running, copy, changed, rfl⟩ := onCopy_eq_some taken
  exact faithful.of_same (sameFlow_copy running fun done => (readDone copy changed).symm.trans done)

theorem Faithful.overlayWrite {t next : Tunnel} (faithful : t.Faithful) {count : Nat}
    (taken : t.overlayWrite count = some next) : next.Faithful := by
  unfold Tunnel.overlayWrite at taken
  split at taken
  · split at taken
    · cases taken
    · refine faithful_copy faithful taken fun copy changed => ?_
      cases changed
      rfl
  · split at taken
    · obtain ⟨after, copied, rfl⟩ := Option.map_eq_some_iff.mp taken
      have wrote : after.Faithful := by
        refine faithful_copy faithful copied fun copy changed => ?_
        obtain ⟨ab, _, rfl⟩ := Option.map_eq_some_iff.mp changed
        rfl
      exact wrote.of_same { SameFlow.refl after with }
    · cases taken

theorem Faithful.localRead {t next : Tunnel} (faithful : t.Faithful) {bytes : Bytes}
    (taken : t.localRead bytes = some next) : next.Faithful := by
  unfold Tunnel.localRead at taken
  obtain ⟨after, copied, rfl⟩ := Option.map_eq_some_iff.mp taken
  have read : after.Faithful := by
    refine faithful_copy faithful copied fun copy changed => ?_
    obtain ⟨ab, _, rfl⟩ := Option.map_eq_some_iff.mp changed
    rfl
  split
  · exact read.of_same { SameFlow.refl after with }
  · exact read

theorem Faithful.overlayShutdown {t next : Tunnel} (faithful : t.Faithful)
    (taken : t.overlayShutdown = some next) : next.Faithful := by
  unfold Tunnel.overlayShutdown at taken
  obtain ⟨after, copied, rfl⟩ := Option.map_eq_some_iff.mp taken
  have done : after.Faithful := by
    refine faithful_copy faithful copied fun copy changed => ?_
    obtain ⟨ab, _, rfl⟩ := Option.map_eq_some_iff.mp changed
    rfl
  exact done.of_same { SameFlow.refl after with }

theorem Faithful.localShutdown {t next : Tunnel} (faithful : t.Faithful)
    (taken : t.localShutdown = some next) : next.Faithful := by
  unfold Tunnel.localShutdown at taken
  obtain ⟨after, copied, rfl⟩ := Option.map_eq_some_iff.mp taken
  have done : after.Faithful := by
    refine faithful_copy faithful copied fun copy changed => ?_
    obtain ⟨ba, shut, rfl⟩ := Option.map_eq_some_iff.mp changed
    exact DirState.readDone_shutdown shut
  exact done.of_same { SameFlow.refl after with }

theorem faithful_step {t next : Tunnel} {action : TunnelAction} (faithful : t.Faithful)
    (taken : t.step action = some next) : next.Faithful := by
  cases action with
  | part part =>
      obtain ⟨acts, rfl⟩ := onStream_eq_some taken
      have truthful : (part.apply t.st).Truthful := by
        rcases acts with live | continues
        · exact faithful.truthful.apply (faithful.untold live) part
        · exact truthful_of_continues faithful.truthful continues
      refine faithful.act (grows_apply t.st part) truthful fun live stays => ?_
      exact (faithful.untold live).apply part stays
  | markReset reason openPending =>
      cases taken
      refine faithful.act (grows_setReset t.st reason openPending)
        (faithful.truthful.setReset reason openPending) fun live _ => ?_
      exact (faithful.untold live).setReset reason openPending
  | receive => exact faithful.receive taken
  | writeSome count => exact faithful.writeSome taken
  | report => exact faithful.report taken
  | readApp count =>
      simp only [step, readApp] at taken
      split at taken
      · cases taken
        exact faithful.of_same { SameFlow.refl t with }
      · cases taken
  | sendData ok =>
      simp only [step, sendData] at taken
      split at taken
      · cases taken
        exact faithful.of_same { SameFlow.refl t with }
      · cases taken
  | readEof => exact faithful.readEof taken
  | noticeGone =>
      simp only [step] at taken
      split at taken
      · refine faithful_copy faithful taken fun copy changed => ?_
        cases changed
        unfold CopyTimed.noticeGone
        split <;> rfl
      · cases taken
  | localRead bytes => exact faithful.localRead taken
  | overlayWrite count => exact faithful.overlayWrite taken
  | overlayFlush =>
      simp only [step] at taken
      refine faithful_copy faithful taken fun copy changed => ?_
      obtain ⟨ab, _, rfl⟩ := Option.map_eq_some_iff.mp changed
      rfl
  | overlayShutdown => exact faithful.overlayShutdown taken
  | overlayRead count => exact faithful.overlayRead taken
  | localWrite count =>
      simp only [step] at taken
      refine faithful_copy faithful taken fun copy changed => ?_
      obtain ⟨ba, wrote, rfl⟩ := Option.map_eq_some_iff.mp changed
      exact DirState.readDone_write wrote
  | localFlush =>
      simp only [step] at taken
      refine faithful_copy faithful taken fun copy changed => ?_
      obtain ⟨ba, flushed, rfl⟩ := Option.map_eq_some_iff.mp changed
      exact DirState.readDone_flush flushed
  | localShutdown => exact faithful.localShutdown taken
  | localError =>
      simp only [step] at taken
      refine faithful_copy faithful taken fun copy changed => ?_
      cases changed
      rfl
  | finish =>
      refine faithful_copy faithful taken fun copy changed => ?_
      unfold CopyTimed.finish at changed
      split at changed
      · cases changed
        rfl
      · cases changed
  | dropTunnel =>
      simp only [step] at taken
      split at taken
      · rename_i finished
        cases taken
        exact faithful.of_same { SameFlow.refl t with
          kept := fun _ => rfl
          dropped := fun _ => .inr finished }
      · cases taken

theorem faithful_of_reachable {t : Tunnel} (reachable : machine.Reachable t) : t.Faithful := by
  refine reachable.invariant Faithful ?_ fun _ _ _ faithful taken => faithful_step faithful taken
  rintro _ ⟨id, initialWindow, chan, _, rfl⟩
  constructor
  · exact ⟨rfl, fun _ => List.not_mem_nil, nofun⟩
  · exact fun _ _ => List.not_mem_nil
  · exact nofun
  · rfl
  · exact fun _ => rfl
  · exact fun _ => rfl
  · exact nofun
  · exact nofun
  · exact nofun
  · exact nofun

/-- An end of file without a reset or the removal of the stream comes after all that the peer
announced. -/
theorem Faithful.complete {t : Tunnel} (faithful : t.Faithful)
    (readDone : t.copy.ba.readDone = true) :
    t.Complete ∨ t.st.reset = true ∨ t.st.gone = true := by
  obtain ⟨ended, drained, all⟩ := faithful.drained readDone
  rcases (faithful.stopped ended).2 with ⟨before, closed⟩ | reset | gone | lost
  · cases live : t.st.gone with
    | true => exact .inr (.inr rfl)
    | false =>
        left
        have log : t.st.inbound.log = before ++ .close :: t.st.inbound.queue := by
          rw [faithful.log, closed, List.append_assoc, List.singleton_append]
        have told : .close ∈ t.st.inbound.log := by
          rw [log]
          exact List.mem_append_right _ List.mem_cons_self
        cases announced : t.st.recvCloseOff with
        | none => exact absurd told (faithful.untold live announced)
        | some off =>
            have covered := faithful.truthful.covered off announced before _ log
            have seen : t.toApp.seen = before.flatMap Inbound.payload := by
              rw [Pipe.seen_eq_put drained, all, payloads, closed, List.flatMap_append]
              exact List.append_nil _
            exact ⟨off, announced, seen ▸ covered⟩
  · exact .inr (.inl reset)
  · exact .inr (.inr gone)
  · exact absurd all lost

theorem Faithful.seen_prefix {t : Tunnel} (faithful : t.Faithful) :
    t.toApp.seen <+: t.st.inbound.delivered := by
  have written : t.toApp.put <+: t.payloads := by
    by_cases ended : t.recvLoop = .ended
    · exact (faithful.stopped ended).1
    · exact ⟨_, faithful.running ended⟩
  have taken : t.payloads <+: t.st.inbound.delivered := by
    refine ⟨t.st.inbound.queue.flatMap Inbound.payload, ?_⟩
    rw [Inbox.delivered, faithful.log, List.flatMap_append]
    rfl
  exact (t.toApp.seen_prefix.trans written).trans taken

/-! ## What the copy says -/

structure Labelled (t : Tunnel) : Prop where
  removed : t.copy.reaped = true → t.st.gone = true
  cause : t.copy.ab.readDone = true → t.copy.reaped = true ∨ t.localEof = true
  orderAb : t.copy.ab.InOrder
  orderBa : t.copy.ba.InOrder
  outcome : ∀ outcome, t.copy.result = some (.ok outcome) → outcome.reaped = t.copy.reaped ∧
    t.copy.ab.readDone = true ∧ t.copy.ba.readDone = true

theorem Labelled.of_same {before after : Tunnel} (labelled : before.Labelled)
    (copy : after.copy = before.copy) (localEof : after.localEof = before.localEof)
    (gone : before.st.gone = true → after.st.gone = true) : after.Labelled := by
  constructor
  · rw [copy]
    exact fun reaped => gone (labelled.removed reaped)
  · rw [copy, localEof]
    exact labelled.cause
  · rw [copy]
    exact labelled.orderAb
  · rw [copy]
    exact labelled.orderBa
  · rw [copy]
    exact labelled.outcome

/-- A step of one direction, while the copy goes on. -/
theorem Labelled.direction {t : Tunnel} (labelled : t.Labelled) (running : t.copy.result = none)
    {ab ba : DirState} (readDone : ab.readDone = t.copy.ab.readDone) (orderAb : ab.InOrder)
    (orderBa : ba.InOrder) : { t with copy := { t.copy with ab, ba } }.Labelled where
  removed := labelled.removed
  cause := fun done => labelled.cause (readDone.symm.trans done)
  orderAb := orderAb
  orderBa := orderBa
  outcome := fun outcome finished => by
    rw [show t.copy.result = some (.ok outcome) from finished] at running
    cases running

theorem Labelled.failed {t : Tunnel} (labelled : t.Labelled) :
    { t with copy := { t.copy with result := some .failed } }.Labelled where
  removed := labelled.removed
  cause := labelled.cause
  orderAb := labelled.orderAb
  orderBa := labelled.orderBa
  outcome := nofun

theorem Labelled.noticeGone {t : Tunnel} (labelled : t.Labelled) (running : t.copy.result = none)
    (gone : t.st.gone = true) : { t with copy := t.copy.noticeGone }.Labelled := by
  unfold CopyTimed.noticeGone
  split
  · exact ⟨labelled.removed, labelled.cause, labelled.orderAb, labelled.orderBa, labelled.outcome⟩
  · refine ⟨fun _ => gone, fun _ => .inl rfl, labelled.orderAb.cut, labelled.orderBa, ?_⟩
    intro outcome finished
    rw [show t.copy.result = some (.ok outcome) from finished] at running
    cases running

theorem Labelled.localRead {t next : Tunnel} (labelled : t.Labelled) {bytes : Bytes}
    (taken : t.localRead bytes = some next) : next.Labelled := by
  unfold Tunnel.localRead at taken
  obtain ⟨after, copied, rfl⟩ := Option.map_eq_some_iff.mp taken
  obtain ⟨running, ab, read, rfl⟩ := onCopy_ab (·.read bytes) copied
  have ordered := labelled.orderAb.read read
  obtain ⟨unread, ⟨rfl, rfl⟩ | ⟨nonempty, rfl⟩⟩ := DirState.read_cases read
  · refine ⟨labelled.removed, fun _ => .inr rfl, ordered, labelled.orderBa, ?_⟩
    intro outcome finished
    rw [show t.copy.result = some (.ok outcome) from finished] at running
    cases running
  · rw [if_neg fun empty => nonempty (List.isEmpty_iff.mp empty)]
    exact labelled.direction running rfl ordered labelled.orderBa

theorem Labelled.overlayWrite {t next : Tunnel} (labelled : t.Labelled) {count : Nat}
    (taken : t.overlayWrite count = some next) : next.Labelled := by
  unfold Tunnel.overlayWrite at taken
  split at taken
  · split at taken
    · cases taken
    · obtain ⟨_, copy, changed, rfl⟩ := onCopy_eq_some taken
      cases changed
      exact labelled.failed
  · split at taken
    · obtain ⟨after, copied, rfl⟩ := Option.map_eq_some_iff.mp taken
      obtain ⟨running, ab, wrote, rfl⟩ := onCopy_ab (·.write count) copied
      have moved := labelled.direction running (DirState.readDone_write wrote)
        (labelled.orderAb.write wrote) labelled.orderBa
      exact moved.of_same rfl rfl fun gone => gone
    · cases taken

theorem Labelled.overlayRead {t next : Tunnel} (labelled : t.Labelled) {count : Nat}
    (taken : t.overlayRead count = some next) : next.Labelled := by
  unfold Tunnel.overlayRead at taken
  split at taken
  · split at taken
    · obtain ⟨running, ba, read, rfl⟩ := onCopy_ba (·.read []) taken
      exact labelled.direction running rfl labelled.orderAb (labelled.orderBa.read read)
    · cases taken
  · split at taken
    · obtain ⟨after, copied, rfl⟩ := Option.map_eq_some_iff.mp taken
      obtain ⟨running, ba, read, rfl⟩ := onCopy_ba (·.read (t.toApp.buffered.take count)) copied
      have moved := labelled.direction running rfl labelled.orderAb (labelled.orderBa.read read)
      exact moved.of_same rfl rfl fun gone => gone
    · cases taken

theorem Labelled.finish {t next : Tunnel} (labelled : t.Labelled)
    (taken : t.onCopy CopyTimed.finish = some next) : next.Labelled := by
  obtain ⟨_, copy, changed, rfl⟩ := onCopy_eq_some taken
  unfold CopyTimed.finish at changed
  split at changed
  · rename_i both
    cases changed
    obtain ⟨abDone, baDone⟩ := Bool.and_eq_true_iff.mp both
    have abRead := labelled.orderAb.2 (labelled.orderAb.1 abDone)
    have baRead := labelled.orderBa.2 (labelled.orderBa.1 baDone)
    refine ⟨labelled.removed, labelled.cause, labelled.orderAb, labelled.orderBa, ?_⟩
    rintro _ ⟨⟩
    exact ⟨rfl, abRead, baRead⟩
  · cases changed

theorem gone_receive {t next : Tunnel} (taken : t.receive = some next) :
    next.copy = t.copy ∧ next.localEof = t.localEof ∧ next.st.gone = t.st.gone := by
  unfold receive at taken
  split at taken
  · cases taken
    exact ⟨rfl, rfl, rfl⟩
  · cases taken
    exact ⟨rfl, rfl, rfl⟩
  · cases taken
    exact ⟨rfl, rfl, rfl⟩
  · split at taken
    · cases taken
      exact ⟨rfl, rfl, rfl⟩
    · cases taken
  · cases taken

theorem gone_writeSome {t next : Tunnel} {count : Nat} (taken : t.writeSome count = some next) :
    next.copy = t.copy ∧ next.localEof = t.localEof ∧ next.st.gone = t.st.gone := by
  unfold writeSome at taken
  split at taken
  · split at taken
    · cases taken
      exact ⟨rfl, rfl, rfl⟩
    · split at taken
      · cases taken
        exact ⟨rfl, rfl, rfl⟩
      · split at taken
        · cases taken
          exact ⟨rfl, rfl, rfl⟩
        · cases taken
  · cases taken

theorem labelled_step {t next : Tunnel} {action : TunnelAction} (labelled : t.Labelled)
    (taken : t.step action = some next) : next.Labelled := by
  cases action with
  | part part =>
      obtain ⟨_, rfl⟩ := onStream_eq_some taken
      exact labelled.of_same rfl rfl (grows_apply t.st part).gone
  | markReset reason openPending =>
      cases taken
      exact labelled.of_same rfl rfl (grows_setReset t.st reason openPending).gone
  | receive =>
      obtain ⟨copy, localEof, gone⟩ := gone_receive taken
      exact labelled.of_same copy localEof gone.trans
  | writeSome count =>
      obtain ⟨copy, localEof, gone⟩ := gone_writeSome taken
      exact labelled.of_same copy localEof gone.trans
  | report =>
      simp only [step, report] at taken
      split at taken
      · split at taken
        · cases taken
          exact labelled.of_same rfl rfl fun gone => gone
        · cases taken
          exact labelled.of_same rfl rfl fun gone => gone
      · cases taken
  | readApp count =>
      simp only [step, readApp] at taken
      split at taken
      · cases taken
        exact labelled.of_same rfl rfl fun gone => gone
      · cases taken
  | sendData ok =>
      simp only [step, sendData] at taken
      split at taken
      · cases taken
        exact labelled.of_same rfl rfl fun gone => gone
      · cases taken
  | readEof =>
      simp only [step, readEof] at taken
      split at taken
      · cases taken
        refine labelled.of_same rfl rfl fun gone => ?_
        rw [if_pos gone]
        exact gone
      · cases taken
  | noticeGone =>
      simp only [step] at taken
      split at taken
      · rename_i gone
        obtain ⟨running, copy, changed, rfl⟩ := onCopy_eq_some taken
        cases changed
        exact labelled.noticeGone running (Bool.and_eq_true_iff.mp gone).1
      · cases taken
  | localRead bytes => exact labelled.localRead taken
  | overlayWrite count => exact labelled.overlayWrite taken
  | overlayFlush =>
      simp only [step] at taken
      obtain ⟨running, ab, flushed, rfl⟩ := onCopy_ab DirState.flush taken
      exact labelled.direction running (DirState.readDone_flush flushed)
        (DirState.inOrder_flush flushed) labelled.orderBa
  | overlayShutdown =>
      simp only [step, overlayShutdown] at taken
      obtain ⟨after, copied, rfl⟩ := Option.map_eq_some_iff.mp taken
      obtain ⟨running, ab, shut, rfl⟩ := onCopy_ab DirState.shutdown copied
      have moved := labelled.direction running (DirState.readDone_shutdown shut)
        (labelled.orderAb.shutdown shut) labelled.orderBa
      exact moved.of_same rfl rfl fun gone => gone
  | overlayRead count => exact labelled.overlayRead taken
  | localWrite count =>
      simp only [step] at taken
      obtain ⟨running, ba, wrote, rfl⟩ := onCopy_ba (·.write count) taken
      exact labelled.direction running rfl labelled.orderAb (labelled.orderBa.write wrote)
  | localFlush =>
      simp only [step] at taken
      obtain ⟨running, ba, flushed, rfl⟩ := onCopy_ba DirState.flush taken
      exact labelled.direction running rfl labelled.orderAb (DirState.inOrder_flush flushed)
  | localShutdown =>
      simp only [step, localShutdown] at taken
      obtain ⟨after, copied, rfl⟩ := Option.map_eq_some_iff.mp taken
      obtain ⟨running, ba, shut, rfl⟩ := onCopy_ba DirState.shutdown copied
      have moved := labelled.direction running rfl labelled.orderAb (labelled.orderBa.shutdown shut)
      exact moved.of_same rfl rfl fun gone => gone
  | localError =>
      simp only [step] at taken
      obtain ⟨_, copy, changed, rfl⟩ := onCopy_eq_some taken
      cases changed
      exact labelled.failed
  | finish => exact labelled.finish taken
  | dropTunnel =>
      simp only [step] at taken
      split at taken
      · cases taken
        exact labelled.of_same rfl rfl fun gone => gone
      · cases taken

theorem labelled_of_reachable {t : Tunnel} (reachable : machine.Reachable t) : t.Labelled := by
  refine reachable.invariant Labelled ?_ fun _ _ _ labelled taken => labelled_step labelled taken
  rintro _ ⟨id, initialWindow, chan, _, rfl⟩
  exact ⟨nofun, nofun, ⟨nofun, nofun⟩, ⟨nofun, nofun⟩, nofun⟩

/-- The application reads a beginning of what the session delivered, and its end only past all that
the peer announced, or on a stream that was reset or removed.  A copy that ended well says that it
was ended by the removal, unless the local socket had come to its own end. -/
theorem truncation_labelled {t : Tunnel} (reachable : machine.Reachable t) :
    t.toApp.seen <+: t.st.inbound.delivered ∧
      (t.copy.ba.readDone = true → t.Complete ∨ t.st.reset = true ∨ t.st.gone = true) ∧
      ∀ outcome, t.copy.result = some (.ok outcome) →
        (t.Complete ∨ t.st.reset = true ∨ t.st.gone = true) ∧
          (outcome.closeLabel = "reaped" ∧ t.st.gone = true ∨
            outcome.closeLabel = "eof" ∧ t.localEof = true) := by
  have faithful := faithful_of_reachable reachable
  have labelled := labelled_of_reachable reachable
  refine ⟨faithful.seen_prefix, faithful.complete, fun outcome finished => ?_⟩
  obtain ⟨label, abDone, baDone⟩ := labelled.outcome outcome finished
  refine ⟨faithful.complete baDone, ?_⟩
  unfold CopyOutcome.closeLabel
  cases reaped : t.copy.reaped with
  | true =>
      rw [if_pos (label.trans reaped)]
      exact .inl ⟨rfl, labelled.removed reaped⟩
  | false =>
      have plain : ¬ outcome.reaped = true := by
        rw [label, reaped]
        exact nofun
      rw [if_neg plain]
      refine .inr ⟨rfl, (labelled.cause abDone).resolve_left ?_⟩
      rw [reaped]
      exact nofun

/-- The peer announces two bytes and resets the stream after the first. -/
def brokenOff : List TunnelAction :=
  [.part (.arrive 1 ⟨7, 0, [97]⟩), .part (.drain ⟨0, 0⟩), .part (.announce ⟨7, some 2⟩),
    .part (.reset .peerReset false), .receive, .writeSome 1, .writeSome 0, .report, .receive,
    .noticeGone, .overlayFlush, .overlayShutdown, .readEof, .overlayRead 1, .localWrite 1,
    .overlayRead 0, .localFlush, .localShutdown, .finish]

/-- The same after the local socket has closed its side. -/
def brokenOffHalfClosed : List TunnelAction :=
  [.localRead [], .overlayFlush, .overlayShutdown, .readEof, .part (.arrive 1 ⟨7, 0, [97]⟩),
    .part (.drain ⟨0, 0⟩), .part (.announce ⟨7, some 2⟩), .part (.reset .timeout false), .receive,
    .writeSome 1, .writeSome 0, .report, .receive, .overlayRead 1, .localWrite 1, .overlayRead 0,
    .localFlush, .localShutdown, .finish]

theorem truncation_labelled_broken_off : ∃ t outcome,
    machine.run (new 7 65536 4) brokenOff = some t ∧ t.copy.result = some (.ok outcome) ∧
      outcome.closeLabel = "reaped" ∧ t.toApp.seen <+: t.st.inbound.delivered := by
  have replayed : ∃ t outcome, machine.run (new 7 65536 4) brokenOff = some t ∧
      t.copy.result = some (.ok outcome) ∧ t.localEof = false := ⟨_, _, rfl, rfl, rfl⟩
  obtain ⟨t, outcome, replay, finished, unread⟩ := replayed
  have begins : machine.Reachable (new 7 65536 4) := .start ⟨7, 65536, 4, by decide, rfl⟩
  have told := truncation_labelled (begins.run replay)
  refine ⟨t, outcome, replay, finished, ?_, told.1⟩
  rcases (told.2.2 outcome finished).2 with ⟨label, _⟩ | ⟨_, ended⟩
  · exact label
  · rw [unread] at ended
    cases ended

/-- The stream was reset before its final offset, and the application read a plain end of file: the
copy ended well and shut the local socket down, under either label. -/
theorem truncation_shown_as_end :
    (∃ t outcome, machine.Reachable t ∧ t.st.reset = true ∧ ¬ t.Complete ∧
      t.copy.ba.readDone = true ∧ t.copy.result = some (.ok outcome) ∧ t.localShut = true ∧
      outcome.closeLabel = "reaped") ∧
    ∃ t outcome, machine.Reachable t ∧ t.st.reset = true ∧ ¬ t.Complete ∧
      t.copy.ba.readDone = true ∧ t.copy.result = some (.ok outcome) ∧ t.localShut = true ∧
      outcome.closeLabel = "eof" := by
  have begins : machine.Reachable (new 7 65536 4) := .start ⟨7, 65536, 4, by decide, rfl⟩
  have first : ∃ t outcome, machine.run (new 7 65536 4) brokenOff = some t ∧
      t.st.reset = true ∧ t.st.recvCloseOff = some 2 ∧ t.toApp.seen = [97] ∧
      t.copy.ba.readDone = true ∧ t.copy.result = some (.ok outcome) ∧ t.localShut = true ∧
      outcome.closeLabel = "reaped" := ⟨_, _, rfl, rfl, rfl, rfl, rfl, rfl, rfl, rfl⟩
  have second : ∃ t outcome, machine.run (new 7 65536 4) brokenOffHalfClosed = some t ∧
      t.st.reset = true ∧ t.st.recvCloseOff = some 2 ∧ t.toApp.seen = [97] ∧
      t.copy.ba.readDone = true ∧ t.copy.result = some (.ok outcome) ∧ t.localShut = true ∧
      outcome.closeLabel = "eof" := ⟨_, _, rfl, rfl, rfl, rfl, rfl, rfl, rfl, rfl⟩
  have truncated : ∀ t : Tunnel, t.st.recvCloseOff = some 2 → t.toApp.seen = [97] →
      ¬ t.Complete := by
    rintro t announced seen ⟨off, same, enough⟩
    obtain rfl : 2 = off := Option.some.inj (announced.symm.trans same)
    rw [seen] at enough
    exact absurd enough (by decide)
  constructor
  · obtain ⟨t, outcome, replay, reset, announced, seen, shown⟩ := first
    exact ⟨t, outcome, begins.run replay, reset, truncated t announced seen, shown⟩
  · obtain ⟨t, outcome, replay, reset, announced, seen, shown⟩ := second
    exact ⟨t, outcome, begins.run replay, reset, truncated t announced seen, shown⟩

end Tunnel

end NyaLink
