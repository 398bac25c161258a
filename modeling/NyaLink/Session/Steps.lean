import NyaLink.Library.Machine
import NyaLink.Stream.Link
import NyaLink.Session.Events
import NyaLink.Session.Retry

/-!
# The session as a transition system

Every session operation is one step, except that `send_data` may stay suspended
in `wait_bulk_send`; what it does afterwards is a step of its own.  The choice of
the path for a new piece is left open, so is the order in which a failed path's
streams are visited.
-/

namespace NyaLink

namespace StreamState

def pieceLength (st : StreamState) (rest : Bytes) : Nat :=
  min (min rest.length (max (st.sendWindow - st.inflightSend) 1)) maxStreamPayload

end StreamState

namespace Session

def noteCarried (s : Session) (id offset : Nat) (sent : Bool) : Session :=
  s.modifyUnacked id offset fun u => { u with carried := sent }

def releasePieces (s : Session) (pieces : List (Nat × Unacked)) : Session :=
  pieces.foldl (fun s piece => s.subInflight piece.2.pathId piece.2.data.length) s

/-! ## Sending -/

/-- The sender goes on with what is left, or its `send_data` returns. -/
def proceed (s : Session) (id : Nat) (rest : Bytes) : Session :=
  { s with senders :=
      if rest = [] then s.senders.erase id
      else s.senders.insert id { rest := rest, waiting := none } }

section

variable (cfg : SessionConfig)

def migrateSendBlocked (s : Session) (id path offset : Nat) (piece : Bytes) : Session :=
  match s.pickRetry cfg path with
  | none => s.noteDataDropped id offset
  | some alt =>
      match s.sendDataFrame cfg id offset piece alt with
      | (s, false) => s.noteDataDropped id offset
      | (s, true) =>
          ((s.setSticky id alt).modifyUnacked id offset fun u =>
            { u with
              pathId := alt
              lastSent := s.now
              retryNotBefore := s.now
              dropped := false
              tried := pushTried u.tried alt
              carried := true }).xferInflight path alt piece.length

/-- A piece is cut; it moves the stickiness unless it only overflows to the path. -/
def cutPiece (s : Session) (id path : Nat) (piece : Bytes) (overflow : Bool) : Session :=
  let s := s.modifyStream id fun st =>
    { st with
      sendNext := st.sendNext + piece.length
      bulk := st.bulk || decide (cfg.interactiveMax < piece.length) }
  if overflow then s else s.setSticky id path

/-- The piece goes into `unacked` and on the inflight counter of its path. -/
def placePiece (s : Session) (id path offset : Nat) (piece : Bytes) : Session :=
  (s.modifyStream id fun st =>
    { st with unacked := st.unacked.insert offset (Endpoint.newUnacked piece path s.now) })
    |>.addInflight path piece.length

def sendInserted (s : Session) (id path offset : Nat) (piece rest : Bytes) (bulk : Bool) :
    Session :=
  match s.sendDataFrame cfg id offset piece path with
  | (s, true) => (s.noteCarried id offset true).proceed id rest
  | (s, false) =>
      match s.getPath path with
      | some p =>
          if bulk && p.isAlive then
            let deadline := s.now + downTimeoutFor cfg p
            let s := s.modifyUnacked id offset fun u => { u with retryNotBefore := deadline }
            { s with senders := s.senders.insert id {
                rest := rest
                waiting := some
                  { pathId := path, offset := offset, piece := piece, deadline := deadline } } }
          else (s.migrateSendBlocked cfg id path offset piece).proceed id rest
      | none => (s.migrateSendBlocked cfg id path offset piece).proceed id rest

/-- One piece of `send_data`: the window is open and a path of the table is picked.  Neither
is tested against the stream having left the table. -/
def sendPiece (s : Session) (id path : Nat) (overflow : Bool) : Option Session :=
  match s.senders.get? id, s.streams.get? id, s.getPath path with
  | some { rest := rest, waiting := none }, some st, some p =>
      if st.windowOk 1 && p.isAlive then
        let n := st.pieceLength rest
        let piece := rest.take n
        let bulk := st.bulk || decide (cfg.interactiveMax < piece.length)
        let placed := (s.cutPiece cfg id path piece overflow).placePiece id path st.sendNext piece
        some (placed.sendInserted cfg id path st.sendNext piece (rest.drop n) bulk)
      else none
  | _, _, _ => none

def markEnqueued (s : Session) (id : Nat) (wait : BulkWait) : Session :=
  s.modifyUnacked id wait.offset fun u =>
    { u with
      lastSent := s.now
      retryNotBefore := s.now
      dropped := false
      carried := u.carried || decide (u.pathId = wait.pathId) }

/-- `wait_bulk_send` wakes up: the stream was reset, the path is dead or the deadline passed,
or the queue may have room. -/
def resumeWait (s : Session) (id : Nat) : Option Session :=
  match s.senders.get? id, s.streams.get? id with
  | some { rest := rest, waiting := some wait }, some st =>
      if st.reset then some (s.proceed id rest)
      else
        let alive := (s.getPath wait.pathId).any Path.isAlive
        if !alive || decide (wait.deadline ≤ s.now) then
          match s.sendDataFrame cfg id wait.offset wait.piece wait.pathId with
          | (s, true) => some ((s.markEnqueued id wait).proceed id rest)
          | (s, false) =>
              some ((s.migrateSendBlocked cfg id wait.pathId wait.offset wait.piece).proceed
                id rest)
        else if (s.getPath wait.pathId).any fun p => decide (cfg.chan ≤ p.queuedBulk) then none
        else
          match s.sendDataFrame cfg id wait.offset wait.piece wait.pathId with
          | (s, true) => some ((s.markEnqueued id wait).proceed id rest)
          | (s, false) => some s
  | _, _ => none

/-! ## Acknowledgement, ending and path failure -/

def onAck (s : Session) (ack : StreamAck) : Session :=
  match s.getStream ack.streamId with
  | none => s
  | some st =>
      (s.releasePieces (st.unacked.filter (st.releases ack)).entries).modifyStream ack.streamId
        fun st => st.onAck ack s.now

def streamEvent (s : Session) (id : Nat) (event : StreamEvent) : Session :=
  match s.getStream id with
  | none => s
  | some st =>
      let after := event.apply st
      let s := if after.gone then s.releasePieces st.unacked.entries else s
      let s := if st.sticky ≠ 0 ∧ after.sticky = 0 then s.dropSticky st.sticky else s
      s.modifyStream id fun _ => after

/-- One piece of `retransmit_from_on`: the result of the send is not looked at. -/
def retransmitPiece (id dest : Nat) (s : Session) (piece : Nat × Unacked) : Session :=
  let rehomed := s.rehomeUnacked id piece.1 dest false
  let sent := rehomed.sendDataFrame cfg id piece.1 piece.2.data dest
  sent.1.noteCarried id piece.1 sent.2

def retransmitFromOn (s : Session) (id source dest : Nat) : Session :=
  match s.getStream id with
  | none => s
  | some st =>
      (st.unacked.entries.filter fun piece => piece.2.pathId = source).foldl
        (retransmitPiece cfg id dest) s

def liveIds (s : Session) : List Nat :=
  (s.streams.entries.filter fun entry => !entry.2.gone).map Prod.fst

/-- `rehome_unacked_from`, visiting the streams in the given order. -/
def rehomeUnackedFrom (s : Session) (dead : Nat) (order : List Nat) : Session :=
  match s.pickRetry cfg dead with
  | none => s
  | some alt => order.foldl (fun s id => s.retransmitFromOn cfg id dead alt) s

def markDown (s : Session) (path : Nat) : Session :=
  s.modifyPath path fun p => { p with status := .down }

/-- `path_failed`, as far as DATA goes. -/
def pathFailed (s : Session) (path : Nat) (order : List Nat) : Session :=
  match s.getPath path with
  | none => s
  | some p =>
      if p.status = .down then s
      else
        let s := (s.markDown path).rehomeUnackedFrom cfg path order
        { s with paths := s.paths.erase path }

/-! ## The writer task -/

def holdStreamData (p : Path) (frame : Frame) : Bool := frame.isData && !p.rttKnown

/-- `park_stream_data` of a DATA frame taken from the urgent queue. -/
def parkStreamData (s : Session) (path : Nat) (data : StreamData) : Session :=
  match s.getPath path with
  | none => s
  | some p =>
      if p.hasRoom cfg false then
        s.modifyPath path fun p => p.enqueue false (.streamData data)
      else
        (s.modifyUnacked data.streamId data.offset fun u =>
          { u with carried := u.carried && decide (u.pathId ≠ path) }).noteDataDropped
            data.streamId data.offset

def writeUrgent (s : Session) (path : Nat) : Option Session :=
  match s.getPath path with
  | none => none
  | some p =>
      match p.urgent with
      | [] => none
      | frame :: rest =>
          let taken := s.modifyPath path fun p => { p with urgent := rest }
          match frame with
          | .streamData data =>
              if holdStreamData p frame then some (taken.parkStreamData cfg path data)
              else some taken
          | _ => some taken

end

def writeBulk (s : Session) (path : Nat) : Option Session :=
  match s.getPath path with
  | none => none
  | some p =>
      if p.rttKnown && !p.writer.isEmpty then
        some (s.modifyPath path fun p => { p with writer := p.writer.tail })
      else none

end Session

structure RttSample where
  ewmaUs : Nat
  stableUs : Nat
  classUs : Nat
  ackUs : Nat
  deriving DecidableEq, Repr

inductive SessionAction where
  | tick (us : Nat)
  | pathAdd (link : String)
  | pathFailed (path : Nat) (order : List Nat)
  | recordRtt (path : Nat) (sample : RttSample)
  | touchRx (path : Nat)
  | markDegraded (path : Nat)
  | setWriteStalled (path : Nat) (stalled : Bool)
  | writeUrgent (path : Nat)
  | writeBulk (path : Nat)
  | control (path : Nat) (frame : Frame)
  | addStream (id : Nat)
  | beginSend (id : Nat) (data : Bytes)
  | sendPiece (id path : Nat) (overflow : Bool)
  | resumeWait (id : Nat)
  /-- `send_data` returns an error. -/
  | endSend (id : Nat)
  | restick (id path : Nat)
  /-- `scan_stall` and `observe_stall_end`. -/
  | noteStall (id : Nat) (stalled : Bool)
  | onAck (ack : StreamAck)
  | retry (id : Nat)
  | streamEvent (id : Nat) (event : StreamEvent)
  deriving DecidableEq, Repr

namespace Session

def newPath (link : String) (now : Nat) : Path where
  link := link
  status := .up
  inflight := 0
  stickyStreams := 0
  congested := false
  writeStalled := false
  rttEwmaUs := 0
  rttStableUs := 0
  rttClassUs := 0
  ackRttUs := 0
  lastRx := now
  writer := []
  urgent := []

def beginSend (s : Session) (id : Nat) (data : Bytes) : Option Session :=
  match s.getStream id, s.senders.get? id with
  | some st, none =>
      if st.reset || data.isEmpty then none
      else some { s with senders := s.senders.insert id { rest := data, waiting := none } }
  | _, _ => none

def endSend (s : Session) (id : Nat) : Option Session :=
  match s.senders.get? id with
  | some { rest := _, waiting := none } => some { s with senders := s.senders.erase id }
  | _ => none

def noteStall (s : Session) (id : Nat) (stalled : Bool) : Session :=
  s.modifyStream id fun st =>
    { st with
      stalled := stalled
      stallFromMs := if stalled then max (monoMs s.now) 1 else 0 }

def step (cfg : SessionConfig) (s : Session) : SessionAction → Option Session
  | .tick us => some { s with now := s.now + us }
  | .pathAdd link =>
      some { s with
        nextPathId := s.nextPathId + 1
        paths := s.paths.insert s.nextPathId (newPath link s.now) }
  | .pathFailed path order =>
      if order.Perm s.liveIds then some (s.pathFailed cfg path order) else none
  | .recordRtt path sample =>
      some (s.modifyPath path fun p =>
        { p with
          rttEwmaUs := sample.ewmaUs
          rttStableUs := sample.stableUs
          rttClassUs := sample.classUs
          ackRttUs := sample.ackUs })
  | .touchRx path =>
      some (s.modifyPath path fun p =>
        { p with
          lastRx := s.now
          status := if p.status = .degraded then .up else p.status })
  | .markDegraded path =>
      some (s.modifyPath path fun p =>
        { p with status := if p.status = .up then .degraded else p.status })
  | .setWriteStalled path stalled =>
      some (s.modifyPath path fun p => { p with writeStalled := stalled })
  | .writeUrgent path => s.writeUrgent cfg path
  | .writeBulk path => s.writeBulk path
  | .control path frame => if frame.isData then none else some (s.sendOnPath cfg path frame).1
  | .addStream id =>
      if (s.streams.get? id).isSome then none
      else
        some { s with streams := s.streams.insert id (.new id cfg.initialWindow cfg.chan) }
  | .beginSend id data => s.beginSend id data
  | .sendPiece id path overflow => s.sendPiece cfg id path overflow
  | .resumeWait id => s.resumeWait cfg id
  | .endSend id => s.endSend id
  | .restick id path => some (s.setSticky id path)
  | .noteStall id stalled => some (s.noteStall id stalled)
  | .onAck ack => some (s.onAck ack)
  | .retry id => some (s.retryExpiredUnacked cfg id)
  | .streamEvent id event => some (s.streamEvent id event)

def new : Session where
  now := 0
  nextPathId := 1
  paths := .empty
  streams := .empty
  senders := .empty
  accepted := []

def machine (cfg : SessionConfig) : Machine Session SessionAction :=
  ⟨fun s => s = new, step cfg⟩

/-! ## What a woken wait does -/

/-- The ways a `wait_bulk_send` goes on. -/
inductive Resumed (cfg : SessionConfig) (s : Session) (id : Nat) (rest : Bytes) (wait : BulkWait)
    (st : StreamState) : Session → Prop where
  | ended (reset : st.reset = true) : Resumed cfg s id rest wait st (s.proceed id rest)
  | enqueued {after : Session} (live : st.reset = false)
      (sent : s.sendDataFrame cfg id wait.offset wait.piece wait.pathId = (after, true)) :
      Resumed cfg s id rest wait st ((after.markEnqueued id wait).proceed id rest)
  | migrated {after : Session} (live : st.reset = false)
      (givenUp : (!(s.getPath wait.pathId).any Path.isAlive ||
        decide (wait.deadline ≤ s.now)) = true)
      (failed : s.sendDataFrame cfg id wait.offset wait.piece wait.pathId = (after, false)) :
      Resumed cfg s id rest wait st
        ((after.migrateSendBlocked cfg id wait.pathId wait.offset wait.piece).proceed id rest)
  | waits {after : Session} (live : st.reset = false)
      (failed : s.sendDataFrame cfg id wait.offset wait.piece wait.pathId = (after, false)) :
      Resumed cfg s id rest wait st after

theorem resumed_of_resumeWait {cfg : SessionConfig} {s t : Session} {id : Nat}
    (resumed : s.resumeWait cfg id = some t) :
    ∃ rest wait st, s.senders.get? id = some ⟨rest, some wait⟩ ∧ s.streams.get? id = some st ∧
      Resumed cfg s id rest wait st t := by
  unfold resumeWait at resumed
  split at resumed
  · rename_i rest wait st sender stored
    refine ⟨rest, wait, st, sender, stored, ?_⟩
    split at resumed
    · rename_i reset
      obtain rfl := Option.some.inj resumed
      exact .ended reset
    · rename_i unreset
      have live : st.reset = false := Bool.eq_false_of_not_eq_true unreset
      dsimp only at resumed
      split at resumed
      · rename_i givenUp
        split at resumed
        · rename_i sent
          obtain rfl := Option.some.inj resumed
          exact .enqueued live sent
        · rename_i failed
          obtain rfl := Option.some.inj resumed
          exact .migrated live givenUp failed
      · split at resumed
        · cases resumed
        · split at resumed
          · rename_i sent
            obtain rfl := Option.some.inj resumed
            exact .enqueued live sent
          · rename_i failed
            obtain rfl := Option.some.inj resumed
            exact .waits live failed
  · cases resumed

end Session

end NyaLink
