import NyaLink.Session.State
import NyaLink.Proto.Wire
import NyaLink.Library.Machine

/-!
# The writer of a path

Senders put frames on the urgent or the bulk queue of a path; one writer task takes them off
and writes them, with pings and ACKs of its own in between.  A queue's gauge is raised before
the queue is tried and lowered after the frame is taken out, so that it runs ahead of the
queue.  When the task ends its receivers go with it: what waits is destroyed, still counted by
the gauge, and nothing is accepted any more.  What was accepted and what became of the frames
are history.
-/

namespace NyaLink

def Wire.Frame.isData : Wire.Frame → Bool
  | .streamData _ => true
  | _ => false

/-- One of the two queues of a path, with its gauge and, as history, what it has accepted and
what waited when the writer ended. -/
structure Lane where
  queue : List Wire.Frame
  queued : Nat
  accepted : List Wire.Frame
  destroyed : List Wire.Frame
  deriving DecidableEq

namespace Lane

/-- `note_enqueue`. -/
def raise (l : Lane) : Lane := { l with queued := l.queued + 1 }

/-- `undo_enqueue`. -/
def lower (l : Lane) : Lane := { l with queued := l.queued - 1 }

def new : Lane := ⟨[], 0, [], []⟩

def push (l : Lane) (frame : Wire.Frame) : Lane :=
  { l with queue := l.queue ++ [frame], accepted := l.accepted ++ [frame] }

/-- The receiver is dropped. -/
def drop (l : Lane) : Lane := { l with queue := [], destroyed := l.queue ++ l.destroyed }

end Lane

/-- A call of `send_on_path` after `note_enqueue`. -/
inductive EnqueuePhase where
  | noted (urgent : Bool) (frame : Wire.Frame)
  /-- The queue was full, or the writer had ended. -/
  | refused (urgent : Bool)
  deriving DecidableEq

def EnqueuePhase.urgent : EnqueuePhase → Bool
  | .noted urgent _ => urgent
  | .refused urgent => urgent

@[simp]
theorem EnqueuePhase.urgent_noted (urgent : Bool) (frame : Wire.Frame) :
    (noted urgent frame).urgent = urgent := rfl

@[simp]
theorem EnqueuePhase.urgent_refused (urgent : Bool) : (refused urgent).urgent = urgent := rfl

/-- What became of a frame the writer took. -/
inductive Fate where
  | written
  /-- Its send was cut off by the close, a failure or the deadline. -/
  | cancelled
  /-- Put back on the bulk queue. -/
  | parked
  /-- There was no room to put it back. -/
  | dropped
  deriving DecidableEq

/-- `source` is the queue a frame came from: urgent or bulk, or none for pings and ACKs. -/
structure Outcome where
  source : Option Bool
  frame : Wire.Frame
  fate : Fate
  deriving DecidableEq

inductive WriterPhase where
  | idle
  /-- This turn of the loop has found the urgent queue empty. -/
  | polled
  | received (urgent : Bool) (frame : Wire.Frame)
  /-- The gauge has been lowered. -/
  | taken (urgent : Bool) (frame : Wire.Frame)
  | parking (frame : Wire.Frame)
  | unparking
  | writing (source : Option Bool) (frame : Wire.Frame) (stalled : Bool)
  | flushing
  | flushReceived (frame : Wire.Frame)
  | flushTaken (frame : Wire.Frame)
  | flushWriting (frame : Wire.Frame)
  /-- On its way out of the task, or closing the connection before. -/
  | shutting
  | closed
  deriving DecidableEq

namespace WriterPhase

/-- The frame of this queue the writer holds. -/
def hand (urgent : Bool) : WriterPhase → List Wire.Frame
  | .received source frame => if source = urgent then [frame] else []
  | .taken source frame => if source = urgent then [frame] else []
  | .parking frame => if urgent then [frame] else []
  | .writing source frame _ => if source = some urgent then [frame] else []
  | .flushReceived frame => if urgent then [frame] else []
  | .flushTaken frame => if urgent then [frame] else []
  | .flushWriting frame => if urgent then [frame] else []
  | _ => []

/-- The gauge of this queue still counts a frame that has left it, or one not put on it yet. -/
def ahead (urgent : Bool) : WriterPhase → Nat
  | .received source _ => if source = urgent then 1 else 0
  | .flushReceived _ => if urgent then 1 else 0
  | .parking _ => if urgent then 0 else 1
  | .unparking => if urgent then 0 else 1
  | _ => 0

/-- The main loop has ended. -/
def leaving : WriterPhase → Bool
  | .flushing | .flushReceived _ | .flushTaken _ | .flushWriting _ | .shutting | .closed => true
  | _ => false

end WriterPhase

structure PathIo where
  rttKnown : Bool
  alive : Bool
  writeStalled : Bool
  congested : Bool
  lane : Bool → Lane
  senders : List EnqueuePhase
  writer : WriterPhase
  /-- `close_tx` has fired. -/
  closing : Bool
  outcomes : List Outcome

inductive WriterAction where
  | offer (frame : Wire.Frame)
  | trySend (call : Nat)
  | undo (call : Nat)
  | rttMeasured
  | setAlive (alive : Bool)
  | close
  | own (frame : Wire.Frame)
  | pollUrgent
  | repoll
  | recv (urgent : Bool)
  | noteDequeue
  | begin_
  | park
  | unpark
  | stall
  | sent
  | interrupted
  | failed
  | seeClose
  | flushRecv
  | flushNote
  | flushGiveUp
  | flushBegin
  | flushEnd (written : Bool)
  | flushEmpty
  | finish
  | abort
  deriving DecidableEq

namespace PathIo

variable (cfg : SessionConfig)

def setLane (s : PathIo) (urgent : Bool) (change : Lane → Lane) : PathIo :=
  { s with lane := fun other => if other = urgent then change (s.lane other) else s.lane other }

def ends (s : PathIo) (source : Option Bool) (frame : Wire.Frame) (fate : Fate) : PathIo :=
  { s with outcomes := s.outcomes ++ [⟨source, frame, fate⟩] }

def frameIsInteractive : Wire.Frame → Bool
  | .streamData body => decide (body.data.length ≤ cfg.interactiveMax)
  | _ => true

/-- The queue `send_on_path` chooses. -/
def choosesUrgent (s : PathIo) (frame : Wire.Frame) : Bool :=
  if frame.isData && (!s.rttKnown || s.writeStalled) then false else frameIsInteractive cfg frame

/-- A `try_send` on this queue succeeds. -/
def accepts (s : PathIo) (urgent : Bool) : Bool :=
  decide (s.writer ≠ .closed) && decide ((s.lane urgent).queue.length < cfg.chan)

def trySend (s : PathIo) (call : Nat) : Option PathIo :=
  match s.senders[call]? with
  | some (.noted urgent frame) =>
      if s.accepts cfg urgent then
        some { s.setLane urgent (·.push frame) with
          senders := s.senders.eraseIdx call
          congested := if urgent then false else s.congested }
      else some { s with senders := s.senders.set call (.refused urgent) }
  | _ => none

/-- `undo_enqueue` of a refused frame; a full bulk queue does not mark the path. -/
def undo (s : PathIo) (call : Nat) : Option PathIo :=
  match s.senders[call]? with
  | some (.refused urgent) =>
      some { s.setLane urgent Lane.lower with
        senders := s.senders.eraseIdx call
        congested := urgent || s.congested }
  | _ => none

/-- The head of a queue goes to the writer. -/
def take (s : PathIo) (urgent : Bool) (phase : Wire.Frame → WriterPhase) : Option PathIo :=
  match (s.lane urgent).queue with
  | [] => none
  | frame :: rest =>
      some { s.setLane urgent fun l => { l with queue := rest } with writer := phase frame }

def holdStreamData (s : PathIo) (frame : Wire.Frame) : Bool := frame.isData && !s.rttKnown

def recv (s : PathIo) (urgent : Bool) : Option PathIo :=
  match urgent, s.writer with
  | true, .idle => s.take true (.received true)
  | false, .polled => if s.rttKnown then s.take false (.received false) else none
  | _, _ => none

/-- Between the gauge and the first await of a write. -/
def begin_ (s : PathIo) : Option PathIo :=
  match s.writer with
  | .taken urgent frame =>
      if urgent && s.holdStreamData frame then
        some { s.setLane false Lane.raise with writer := .parking frame }
      else some { s with writer := .writing (some urgent) frame false }
  | _ => none

/-- `park_stream_data` after `note_enqueue`. -/
def park (s : PathIo) : Option PathIo :=
  match s.writer with
  | .parking frame =>
      if (s.lane false).queue.length < cfg.chan then
        some { (s.setLane false (·.push frame)).ends (some true) frame .parked with
          writer := .idle }
      else some { s.ends (some true) frame .dropped with writer := .unparking }
  | _ => none

/-- The end of a `write_one`. -/
def endWrite (s : PathIo) (fate : Fate) (phase : WriterPhase) : Option PathIo :=
  match s.writer with
  | .writing source frame stalled =>
      some { s.ends source frame fate with
        writer := phase
        writeStalled := if fate = .written ∧ stalled = false then false else s.writeStalled }
  | _ => none

def endFlush (s : PathIo) (fate : Fate) : Option PathIo :=
  match s.writer with
  | .flushWriting frame => some { s.ends (some true) frame fate with writer := .flushing }
  | _ => none

/-- The task ends, and both receivers with it. -/
def endTask (s : PathIo) : PathIo :=
  { s with lane := fun urgent => (s.lane urgent).drop, writer := .closed }

/-- The writer task is aborted; what it held is gone. -/
def abort (s : PathIo) : PathIo :=
  let cut (source : Option Bool) (frame : Wire.Frame) : PathIo :=
    { s.ends source frame .cancelled with writer := .shutting }
  match s.writer with
  | .writing source frame _ => (cut source frame).endTask
  | .flushWriting frame => (cut (some true) frame).endTask
  | _ => s.endTask

/-- Where the writer awaits. -/
def awaits (s : PathIo) : Bool :=
  match s.writer with
  | .idle | .polled | .writing _ _ _ | .flushing | .flushWriting _ | .shutting => true
  | _ => false

def step (s : PathIo) : WriterAction → Option PathIo
  | .offer frame =>
      if s.alive then
        let urgent := s.choosesUrgent cfg frame
        some { s.setLane urgent Lane.raise with senders := s.senders ++ [.noted urgent frame] }
      else none
  | .trySend call => s.trySend cfg call
  | .undo call => s.undo call
  | .rttMeasured => some { s with rttKnown := true }
  | .setAlive alive => some { s with alive := alive }
  | .close => some { s with closing := true }
  | .own frame =>
      if s.writer = .idle ∧ frame.isData = false then
        some { s with writer := .writing none frame false }
      else none
  | .pollUrgent =>
      if s.writer = .idle ∧ (s.lane true).queue = [] then some { s with writer := .polled }
      else none
  | .repoll => if s.writer = .polled then some { s with writer := .idle } else none
  | .recv urgent => s.recv urgent
  | .noteDequeue =>
      match s.writer with
      | .received urgent frame =>
          some { s.setLane urgent Lane.lower with writer := .taken urgent frame }
      | _ => none
  | .begin_ => s.begin_
  | .park => s.park cfg
  | .unpark =>
      if s.writer = .unparking then some { s.setLane false Lane.lower with writer := .idle }
      else none
  | .stall =>
      match s.writer with
      | .writing source frame false =>
          some { s with writer := .writing source frame true, writeStalled := true }
      | _ => none
  | .sent => s.endWrite .written .idle
  | .interrupted => if s.closing then s.endWrite .cancelled .flushing else none
  | .failed => (s.endWrite .cancelled .shutting).map endTask
  | .seeClose =>
      if s.closing ∧ (s.writer = .idle ∨ s.writer = .polled) then
        some { s with writer := .flushing }
      else none
  | .flushRecv => if s.writer = .flushing then s.take true .flushReceived else none
  | .flushNote =>
      match s.writer with
      | .flushReceived frame =>
          some { s.setLane true Lane.lower with writer := .flushTaken frame }
      | _ => none
  | .flushGiveUp =>
      match s.writer with
      | .flushTaken frame => some { s.ends (some true) frame .cancelled with writer := .shutting }
      | _ => none
  | .flushBegin =>
      match s.writer with
      | .flushTaken frame => some { s with writer := .flushWriting frame }
      | _ => none
  | .flushEnd written => s.endFlush (if written then .written else .cancelled)
  | .flushEmpty =>
      if s.writer = .flushing ∧ (s.lane true).queue = [] then some { s with writer := .shutting }
      else none
  | .finish => if s.writer = .shutting then some s.endTask else none
  | .abort => if s.awaits then some s.abort else none

/-- A path whose round-trip time may be known already has nothing on its queues. -/
def Initial (s : PathIo) : Prop :=
  ∃ rttKnown, s = ⟨rttKnown, true, false, false, fun _ => .new, [], .idle, false, []⟩

def machine : Machine PathIo WriterAction := ⟨Initial, step cfg⟩

variable {cfg} {s t : PathIo}

@[simp]
theorem lane_setLane (s : PathIo) (urgent other : Bool) (change : Lane → Lane) :
    (s.setLane urgent change).lane other =
      if other = urgent then change (s.lane other) else s.lane other := rfl

@[simp]
theorem senders_setLane (s : PathIo) (urgent : Bool) (change : Lane → Lane) :
    (s.setLane urgent change).senders = s.senders := rfl

@[simp]
theorem writer_setLane (s : PathIo) (urgent : Bool) (change : Lane → Lane) :
    (s.setLane urgent change).writer = s.writer := rfl

@[simp]
theorem outcomes_setLane (s : PathIo) (urgent : Bool) (change : Lane → Lane) :
    (s.setLane urgent change).outcomes = s.outcomes := rfl

/-! ## What a step does -/

/-- The writer goes on, with no new frame and none done with. -/
inductive Turn (s : PathIo) : WriterPhase → Prop where
  | own {frame : Wire.Frame} (idle : s.writer = .idle) (control : frame.isData = false) :
      Turn s (.writing none frame false)
  | polls (idle : s.writer = .idle) (empty : (s.lane true).queue = []) : Turn s .polled
  | repolls (polled : s.writer = .polled) : Turn s .idle
  | begins {urgent : Bool} {frame : Wire.Frame} (taken : s.writer = .taken urgent frame) :
      Turn s (.writing (some urgent) frame false)
  | stalls {source : Option Bool} {frame : Wire.Frame}
      (writing : s.writer = .writing source frame false) : Turn s (.writing source frame true)
  | closes (loops : s.writer = .idle ∨ s.writer = .polled) : Turn s .flushing
  | flushes {frame : Wire.Frame} (taken : s.writer = .flushTaken frame) :
      Turn s (.flushWriting frame)
  | empties (flushing : s.writer = .flushing) : Turn s .shutting

/-- The three receives, each with its queue and the phase it leads to. -/
inductive Receives (s : PathIo) : WriterAction → Bool → (Wire.Frame → WriterPhase) → Prop where
  | urgent (idle : s.writer = .idle) : Receives s (.recv true) true (.received true)
  | bulk (polled : s.writer = .polled) (known : s.rttKnown = true) :
      Receives s (.recv false) false (.received false)
  | flush (flushing : s.writer = .flushing) : Receives s .flushRecv true .flushReceived

/-- A gauge is lowered for a frame taken off its queue, or one there was no room to put back. -/
inductive Lowers (s : PathIo) : WriterAction → Bool → WriterPhase → Prop where
  | notes {urgent : Bool} {frame : Wire.Frame} (received : s.writer = .received urgent frame) :
      Lowers s .noteDequeue urgent (.taken urgent frame)
  | unparks (unparking : s.writer = .unparking) : Lowers s .unpark false .idle
  | flushNotes {frame : Wire.Frame} (received : s.writer = .flushReceived frame) :
      Lowers s .flushNote true (.flushTaken frame)

/-- The writer has done with a frame. -/
inductive Done (s : PathIo) : Option Bool → Wire.Frame → Fate → WriterPhase → Prop where
  | sent {source : Option Bool} {frame : Wire.Frame} {stalled : Bool}
      (writing : s.writer = .writing source frame stalled) : Done s source frame .written .idle
  | cut {source : Option Bool} {frame : Wire.Frame} {stalled : Bool} {phase : WriterPhase}
      (writing : s.writer = .writing source frame stalled)
      (leaves : phase = .flushing ∨ phase = .shutting) : Done s source frame .cancelled phase
  | flushed {frame : Wire.Frame} {fate : Fate} {phase : WriterPhase}
      (writing : s.writer = .flushWriting frame) (met : fate = .written ∨ fate = .cancelled)
      (leaves : phase = .flushing ∨ phase = .shutting) : Done s (some true) frame fate phase
  | givesUp {frame : Wire.Frame} (taken : s.writer = .flushTaken frame) :
      Done s (some true) frame .cancelled .shutting
  | drops {frame : Wire.Frame} (parking : s.writer = .parking frame) :
      Done s (some true) frame .dropped .unparking

/-- One constructor for each way the state changes. -/
inductive Took (cfg : SessionConfig) (s : PathIo) : WriterAction → PathIo → Prop where
  | offer (frame : Wire.Frame) : Took cfg s (.offer frame)
      { s.setLane (s.choosesUrgent cfg frame) Lane.raise with
        senders := s.senders ++ [.noted (s.choosesUrgent cfg frame) frame] }
  | pushed {call : Nat} {urgent : Bool} {frame : Wire.Frame}
      (found : s.senders[call]? = some (.noted urgent frame))
      (room : s.accepts cfg urgent = true) (congested : Bool) : Took cfg s (.trySend call)
        { s.setLane urgent (·.push frame) with
          senders := s.senders.eraseIdx call
          congested := congested }
  | refused {call : Nat} {urgent : Bool} {frame : Wire.Frame}
      (found : s.senders[call]? = some (.noted urgent frame))
      (full : s.accepts cfg urgent = false) : Took cfg s (.trySend call)
        { s with senders := s.senders.set call (.refused urgent) }
  | undone {call : Nat} {urgent : Bool} (found : s.senders[call]? = some (.refused urgent))
      (congested : Bool) : Took cfg s (.undo call)
        { s.setLane urgent Lane.lower with
          senders := s.senders.eraseIdx call
          congested := congested }
  | flags {action : WriterAction} {rttKnown : Bool} (alive closing : Bool)
      (stays : s.rttKnown = true → rttKnown = true) (apart : action ≠ .recv false) :
      Took cfg s action { s with rttKnown := rttKnown, alive := alive, closing := closing }
  | turns {action : WriterAction} {phase : WriterPhase} (turn : s.Turn phase)
      (writeStalled : Bool) : Took cfg s action
        { s with writer := phase, writeStalled := writeStalled }
  | receives {action : WriterAction} {urgent : Bool} {phase : Wire.Frame → WriterPhase}
      {frame : Wire.Frame} {rest : List Wire.Frame} (receives : s.Receives action urgent phase)
      (waiting : (s.lane urgent).queue = frame :: rest) : Took cfg s action
        { s.setLane urgent fun l => { l with queue := rest } with writer := phase frame }
  | lowers {action : WriterAction} {urgent : Bool} {phase : WriterPhase}
      (lowers : s.Lowers action urgent phase) : Took cfg s action
        { s.setLane urgent Lane.lower with writer := phase }
  | holds {action : WriterAction} {frame : Wire.Frame} (taken : s.writer = .taken true frame)
      (held : s.holdStreamData frame = true) : Took cfg s action
        { s.setLane false Lane.raise with writer := .parking frame }
  | parks {action : WriterAction} {frame : Wire.Frame} (parking : s.writer = .parking frame) :
      Took cfg s action
        { (s.setLane false (·.push frame)).ends (some true) frame .parked with writer := .idle }
  | ends {action : WriterAction} {source : Option Bool} {frame : Wire.Frame} {fate : Fate}
      {phase : WriterPhase} (done : s.Done source frame fate phase) (writeStalled : Bool) :
      Took cfg s action
        { s.ends source frame fate with writer := phase, writeStalled := writeStalled }
  | fails {action : WriterAction} {source : Option Bool} {frame : Wire.Frame}
      (done : s.Done source frame .cancelled .shutting) (writeStalled : Bool) :
      Took cfg s action
        (endTask { s.ends source frame .cancelled with
          writer := .shutting
          writeStalled := writeStalled })
  | quits {action : WriterAction} (running : s.writer ≠ .closed)
      (rests : ∀ urgent, s.writer.hand urgent = [] ∧ s.writer.ahead urgent = 0) :
      Took cfg s action s.endTask

theorem took_take {action : WriterAction} {urgent : Bool} {phase : Wire.Frame → WriterPhase}
    (receives : s.Receives action urgent phase) (taken : s.take urgent phase = some t) :
    s.Took cfg action t := by
  unfold PathIo.take at taken
  split at taken
  · cases taken
  · rename_i frame rest waiting
    cases taken
    exact .receives receives waiting

theorem took_endWrite {action : WriterAction} {fate : Fate} {phase : WriterPhase}
    (done : ∀ {source frame stalled}, s.writer = .writing source frame stalled →
      s.Done source frame fate phase) (taken : s.endWrite fate phase = some t) :
    s.Took cfg action t := by
  unfold PathIo.endWrite at taken
  split at taken
  · rename_i source frame stalled writing
    cases taken
    exact .ends (done writing) _
  · cases taken

theorem took_abort (awaits : s.awaits = true) {action : WriterAction} :
    s.Took cfg action s.abort := by
  unfold PathIo.abort
  dsimp only
  split
  · rename_i source frame stalled writing
    exact .fails (.cut writing (.inr rfl)) s.writeStalled
  · rename_i frame writing
    exact .fails (.flushed writing (.inr rfl) (.inr rfl)) s.writeStalled
  · rename_i notWriting notFlushing
    unfold PathIo.awaits at awaits
    split at awaits
    case h_3 source frame stalled writing => exact absurd writing (notWriting source frame stalled)
    case h_5 frame writing => exact absurd writing (notFlushing frame)
    case h_7 => cases awaits
    all_goals
      rename_i waits
      refine .quits (by simp [waits]) fun urgent => ?_
      rw [waits]
      exact ⟨rfl, rfl⟩

theorem took_of_step {action : WriterAction} (taken : s.step cfg action = some t) :
    s.Took cfg action t := by
  cases action with
  | offer frame =>
      simp only [PathIo.step] at taken
      split at taken
      · cases taken
        exact .offer frame
      · cases taken
  | trySend call =>
      simp only [PathIo.step, PathIo.trySend] at taken
      split at taken
      · rename_i urgent frame found
        split at taken
        · rename_i room
          cases taken
          exact .pushed found room _
        · rename_i full
          cases taken
          exact .refused found (Bool.eq_false_iff.mpr full)
      · cases taken
  | undo call =>
      simp only [PathIo.step, PathIo.undo] at taken
      split at taken
      · rename_i urgent found
        cases taken
        exact .undone found _
      · cases taken
  | rttMeasured =>
      cases taken
      exact .flags s.alive s.closing (fun _ => rfl) (by simp)
  | setAlive alive =>
      cases taken
      exact .flags alive s.closing id (by simp)
  | close =>
      cases taken
      exact .flags s.alive true id (by simp)
  | own frame =>
      simp only [PathIo.step] at taken
      split at taken
      · rename_i idle
        cases taken
        exact .turns (.own idle.1 idle.2) s.writeStalled
      · cases taken
  | pollUrgent =>
      simp only [PathIo.step] at taken
      split at taken
      · rename_i idle
        cases taken
        exact .turns (.polls idle.1 idle.2) s.writeStalled
      · cases taken
  | repoll =>
      simp only [PathIo.step] at taken
      split at taken
      · rename_i polled
        cases taken
        exact .turns (.repolls polled) s.writeStalled
      · cases taken
  | recv urgent =>
      simp only [PathIo.step, PathIo.recv] at taken
      split at taken
      · rename_i idle
        exact took_take (.urgent idle) taken
      · rename_i polled
        split at taken
        · rename_i known
          exact took_take (.bulk polled known) taken
        · cases taken
      · cases taken
  | noteDequeue =>
      simp only [PathIo.step] at taken
      split at taken
      · rename_i urgent frame received
        cases taken
        exact .lowers (.notes received)
      · cases taken
  | begin_ =>
      simp only [PathIo.step, PathIo.begin_] at taken
      split at taken
      · rename_i urgent frame holds
        split at taken
        · rename_i held
          cases taken
          obtain ⟨rfl, early⟩ := Bool.and_eq_true_iff.mp held
          exact .holds holds early
        · cases taken
          exact .turns (.begins holds) s.writeStalled
      · cases taken
  | park =>
      simp only [PathIo.step, PathIo.park] at taken
      split at taken
      · rename_i frame parking
        split at taken
        · cases taken
          exact .parks parking
        · cases taken
          exact .ends (.drops parking) s.writeStalled
      · cases taken
  | unpark =>
      simp only [PathIo.step] at taken
      split at taken
      · rename_i unparking
        cases taken
        exact .lowers (.unparks unparking)
      · cases taken
  | stall =>
      simp only [PathIo.step] at taken
      split at taken
      · rename_i source frame writing
        cases taken
        exact .turns (.stalls writing) true
      · cases taken
  | sent => exact took_endWrite .sent taken
  | interrupted =>
      simp only [PathIo.step] at taken
      split at taken
      · exact took_endWrite (fun writing => .cut writing (.inl rfl)) taken
      · cases taken
  | failed =>
      simp only [PathIo.step, PathIo.endWrite] at taken
      split at taken
      · rename_i source frame stalled writing
        cases taken
        exact .fails (.cut writing (.inr rfl)) _
      · cases taken
  | seeClose =>
      simp only [PathIo.step] at taken
      split at taken
      · rename_i sees
        cases taken
        exact .turns (.closes sees.2) s.writeStalled
      · cases taken
  | flushRecv =>
      simp only [PathIo.step] at taken
      split at taken
      · rename_i flushing
        exact took_take (.flush flushing) taken
      · cases taken
  | flushNote =>
      simp only [PathIo.step] at taken
      split at taken
      · rename_i frame received
        cases taken
        exact .lowers (.flushNotes received)
      · cases taken
  | flushGiveUp =>
      simp only [PathIo.step] at taken
      split at taken
      · rename_i frame holds
        cases taken
        exact .ends (.givesUp holds) s.writeStalled
      · cases taken
  | flushBegin =>
      simp only [PathIo.step] at taken
      split at taken
      · rename_i frame holds
        cases taken
        exact .turns (.flushes holds) s.writeStalled
      · cases taken
  | flushEnd written =>
      simp only [PathIo.step, PathIo.endFlush] at taken
      split at taken
      · rename_i frame writing
        cases taken
        refine .ends (.flushed writing ?_ (.inl rfl)) s.writeStalled
        cases written with
        | true => exact .inl rfl
        | false => exact .inr rfl
      · cases taken
  | flushEmpty =>
      simp only [PathIo.step] at taken
      split at taken
      · rename_i empty
        cases taken
        exact .turns (.empties empty.1) s.writeStalled
      · cases taken
  | finish =>
      simp only [PathIo.step] at taken
      split at taken
      · rename_i shutting
        cases taken
        refine .quits (by simp [shutting]) fun urgent => ?_
        rw [shutting]
        exact ⟨rfl, rfl⟩
      · cases taken
  | abort =>
      simp only [PathIo.step] at taken
      split at taken
      · rename_i awaits
        cases taken
        exact took_abort awaits
      · cases taken

section

variable {action : WriterAction} {urgent : Bool} {source : Option Bool} {frame : Wire.Frame}
  {fate : Fate} {phase : WriterPhase}

theorem Turn.running (turn : s.Turn phase) : s.writer ≠ .closed ∧ phase ≠ .closed := by
  cases turn with
  | own holds | polls holds | repolls holds | begins holds | stalls holds | flushes holds
  | empties holds => simp [holds]
  | closes loops => rcases loops with holds | holds <;> simp [holds]

theorem Turn.keeps (turn : s.Turn phase) (urgent : Bool) :
    phase.hand urgent = s.writer.hand urgent ∧ phase.ahead urgent = s.writer.ahead urgent := by
  cases turn with
  | own holds | polls holds | repolls holds | begins holds | stalls holds | empties holds =>
      simp [holds, WriterPhase.hand, WriterPhase.ahead]
  | flushes holds => cases urgent <;> simp [holds, WriterPhase.hand, WriterPhase.ahead]
  | closes loops =>
      rcases loops with holds | holds <;> simp [holds, WriterPhase.hand, WriterPhase.ahead]

theorem Receives.running {phase : Wire.Frame → WriterPhase}
    (receives : s.Receives action urgent phase) :
    s.writer ≠ .closed ∧ ∀ frame, phase frame ≠ .closed := by
  cases receives with
  | urgent holds | bulk holds | flush holds => simp [holds]

theorem Receives.empty {phase : Wire.Frame → WriterPhase}
    (receives : s.Receives action urgent phase) (other : Bool) :
    s.writer.hand other = [] ∧ s.writer.ahead other = 0 := by
  cases receives with
  | urgent holds | bulk holds | flush holds => simp [holds, WriterPhase.hand, WriterPhase.ahead]

theorem Receives.holds {phase : Wire.Frame → WriterPhase}
    (receives : s.Receives action urgent phase) (frame : Wire.Frame) (other : Bool) :
    (phase frame).hand other = (if urgent = other then [frame] else []) ∧
      (phase frame).ahead other = if urgent = other then 1 else 0 := by
  cases receives with
  | urgent | bulk => exact ⟨rfl, rfl⟩
  | flush => cases other <;> exact ⟨rfl, rfl⟩

theorem Lowers.running (lowers : s.Lowers action urgent phase) :
    s.writer ≠ .closed ∧ phase ≠ .closed := by
  cases lowers with
  | notes holds | unparks holds | flushNotes holds => simp [holds]

theorem Lowers.keeps (lowers : s.Lowers action urgent phase) (other : Bool) :
    phase.hand other = s.writer.hand other ∧
      phase.ahead other + (if urgent = other then 1 else 0) = s.writer.ahead other := by
  cases lowers with
  | notes holds => simp [holds, WriterPhase.hand, WriterPhase.ahead]
  | unparks holds | flushNotes holds =>
      cases other <;> simp [holds, WriterPhase.hand, WriterPhase.ahead]

theorem Done.running (done : s.Done source frame fate phase) :
    s.writer ≠ .closed ∧ phase ≠ .closed := by
  cases done with
  | sent holds | givesUp holds | drops holds => simp [holds]
  | cut holds leaves => rcases leaves with rfl | rfl <;> simp [holds]
  | flushed holds met leaves => rcases leaves with rfl | rfl <;> simp [holds]

theorem Done.holds (done : s.Done source frame fate phase) (other : Bool) :
    s.writer.hand other = if source = some other then [frame] else [] := by
  cases done with
  | sent holds | cut holds => simp [holds, WriterPhase.hand]
  | flushed holds | givesUp holds | drops holds =>
      cases other <;> simp [holds, WriterPhase.hand]

theorem Done.leaves (done : s.Done source frame fate phase) (other : Bool) :
    phase.hand other = [] ∧ phase.ahead other = s.writer.ahead other := by
  cases done with
  | sent holds | givesUp holds | drops holds => simp [holds, WriterPhase.hand, WriterPhase.ahead]
  | cut holds leaves =>
      rcases leaves with rfl | rfl <;> simp [holds, WriterPhase.hand, WriterPhase.ahead]
  | flushed holds met leaves =>
      rcases leaves with rfl | rfl <;> simp [holds, WriterPhase.hand, WriterPhase.ahead]

end

/-! ## The writer ends once -/

/-- What a step does to the writer, and what it destroys. -/
inductive Progress (s t : PathIo) : Prop where
  | apart (writer : t.writer = s.writer)
      (destroyed : ∀ urgent, (t.lane urgent).destroyed = (s.lane urgent).destroyed)
      (queue : s.writer = .closed → ∀ urgent, (t.lane urgent).queue = (s.lane urgent).queue)
  | moves (running : s.writer ≠ .closed) (goesOn : t.writer ≠ .closed)
      (destroyed : ∀ urgent, (t.lane urgent).destroyed = (s.lane urgent).destroyed)
  | ends (running : s.writer ≠ .closed) (closed : t.writer = .closed)
      (queue : ∀ urgent, (t.lane urgent).queue = [])

theorem destroyed_setLane (s : PathIo) (urgent : Bool) {change : Lane → Lane}
    (kept : ∀ l : Lane, (change l).destroyed = l.destroyed) (other : Bool) :
    ((s.setLane urgent change).lane other).destroyed = (s.lane other).destroyed := by
  rw [lane_setLane]
  split
  · exact kept _
  · rfl

theorem destroyed_push (s : PathIo) (urgent : Bool) (frame : Wire.Frame) (other : Bool) :
    ((s.setLane urgent (·.push frame)).lane other).destroyed = (s.lane other).destroyed := by
  apply s.destroyed_setLane urgent
  intro l
  rfl

theorem queue_setLane (s : PathIo) (urgent : Bool) {change : Lane → Lane}
    (kept : ∀ l : Lane, (change l).queue = l.queue) (other : Bool) :
    ((s.setLane urgent change).lane other).queue = (s.lane other).queue := by
  rw [lane_setLane]
  split
  · exact kept _
  · rfl

theorem progress_step {action : WriterAction} (taken : s.step cfg action = some t) :
    Progress s t := by
  cases took_of_step taken with
  | offer frame =>
      exact .apart rfl (s.destroyed_setLane _ fun _ => rfl) fun _ => s.queue_setLane _ fun _ => rfl
  | pushed found room congested =>
      refine .apart rfl (s.destroyed_push _ _) fun closed => ?_
      simp [accepts, closed] at room
  | refused found full => exact .apart rfl (fun _ => rfl) fun _ _ => rfl
  | undone found congested =>
      exact .apart rfl (s.destroyed_setLane _ fun _ => rfl) fun _ => s.queue_setLane _ fun _ => rfl
  | flags alive closing stays apart => exact .apart rfl (fun _ => rfl) fun _ _ => rfl
  | turns turn writeStalled => exact .moves turn.running.1 turn.running.2 fun _ => rfl
  | receives receives waiting =>
      refine .moves receives.running.1 (receives.running.2 _) fun other => ?_
      simp only [lane_setLane]
      split
      · rfl
      · rfl
  | lowers lowers =>
      exact .moves lowers.running.1 lowers.running.2 (s.destroyed_setLane _ fun _ => rfl)
  | holds inHand held =>
      exact .moves (by simp [inHand]) (by simp) (s.destroyed_setLane _ fun _ => rfl)
  | parks parking => exact .moves (by simp [parking]) (by simp) (s.destroyed_push _ _)
  | ends done writeStalled => exact .moves done.running.1 done.running.2 fun _ => rfl
  | fails done writeStalled => exact .ends done.running.1 rfl fun _ => rfl
  | quits running rests => exact .ends running rfl fun _ => rfl

theorem running_of_step {action : WriterAction} (taken : s.step cfg action = some t)
    (running : t.writer ≠ .closed) : s.writer ≠ .closed := by
  cases progress_step taken with
  | apart writer destroyed queue => exact writer ▸ running
  | moves before goesOn destroyed => exact before
  | ends before closed queue => exact before

/-- Nothing is destroyed before the writer ends, and nothing waits after. -/
structure Ending (s : PathIo) : Prop where
  running : s.writer ≠ .closed → ∀ urgent, (s.lane urgent).destroyed = []
  closed : s.writer = .closed → ∀ urgent, (s.lane urgent).queue = []

theorem Ending.step (ending : s.Ending) {action : WriterAction}
    (taken : s.step cfg action = some t) : t.Ending := by
  cases progress_step taken with
  | apart writer destroyed queue =>
      constructor
      · intro running urgent
        rw [destroyed, ending.running (writer ▸ running)]
      · intro closed urgent
        rw [writer] at closed
        rw [queue closed, ending.closed closed]
  | moves running goesOn destroyed =>
      constructor
      · intro _ urgent
        rw [destroyed, ending.running running]
      · intro closed
        exact absurd closed goesOn
  | ends running closed queue =>
      constructor
      · intro still
        exact absurd closed still
      · exact fun _ => queue

theorem ending_of_reachable (reached : (machine cfg).Reachable s) : s.Ending := by
  refine reached.invariant PathIo.Ending ?_ fun _ _ _ ending taken => ending.step taken
  rintro _ ⟨rttKnown, rfl⟩
  exact ⟨fun _ _ => rfl, fun _ _ => rfl⟩

/-! ## Both queues are served in order -/

/-- The frames of a queue the writer has done with, oldest first. -/
def ended (s : PathIo) (urgent : Bool) : List Wire.Frame :=
  (s.outcomes.filter fun outcome => outcome.source = some urgent).map Outcome.frame

theorem ended_ends (s : PathIo) (source : Option Bool) (frame : Wire.Frame) (fate : Fate)
    (urgent : Bool) : (s.ends source frame fate).ended urgent =
      s.ended urgent ++ if source = some urgent then [frame] else [] := by
  simp only [ended, ends, List.filter_append, List.map_append]
  by_cases same : source = some urgent <;> simp [same]

/-- What a queue has accepted has been dealt with, is in the writer's hand, still waits or was
destroyed, in this order; its gauge counts what waits, what is under way and what was
destroyed. -/
structure Account (s : PathIo) (urgent : Bool) : Prop where
  fifo : (s.lane urgent).accepted = s.ended urgent ++ s.writer.hand urgent ++
    (s.lane urgent).queue ++ (s.lane urgent).destroyed
  gauge : (s.lane urgent).queued = (s.lane urgent).queue.length +
    (s.senders.countP fun sender => sender.urgent == urgent) + s.writer.ahead urgent +
      (s.lane urgent).destroyed.length

def Served (s : PathIo) : Prop := ∀ urgent, s.Account urgent

theorem Account.same {urgent : Bool} (account : s.Account urgent) (lane : t.lane = s.lane)
    (senders : t.senders = s.senders) (outcomes : t.outcomes = s.outcomes)
    (hand : t.writer.hand urgent = s.writer.hand urgent)
    (ahead : t.writer.ahead urgent = s.writer.ahead urgent) : t.Account urgent := by
  have same : t.ended urgent = s.ended urgent := by rw [ended, ended, outcomes]
  constructor
  · rw [lane, same, hand]
    exact account.fifo
  · rw [lane, senders, ahead]
    exact account.gauge

theorem Served.offer (served : s.Served) (urgent : Bool) (frame : Wire.Frame) :
    Served { s.setLane urgent Lane.raise with senders := s.senders ++ [.noted urgent frame] } := by
  intro other
  obtain ⟨fifo, gauge⟩ := served other
  by_cases same : other = urgent
  · subst same
    refine ⟨by simpa [Lane.raise, ended] using fifo, ?_⟩
    simp [Lane.raise, List.countP_append, gauge]
    omega
  · refine ⟨by simpa [same, ended] using fifo, ?_⟩
    simp [same, List.countP_append, Ne.symm same, gauge]

theorem countP_eraseIdx (kind : EnqueuePhase → Bool) {senders : List EnqueuePhase} {call : Nat}
    {sender : EnqueuePhase} (found : senders[call]? = some sender) :
    (senders.eraseIdx call).countP kind + (if kind sender then 1 else 0) = senders.countP kind := by
  induction senders generalizing call with
  | nil => cases found
  | cons head rest inductionHypothesis =>
      cases call with
      | zero =>
          obtain rfl : head = sender := Option.some.inj found
          rw [List.eraseIdx_cons_zero, List.countP_cons]
      | succ call =>
          have inRest : rest[call]? = some sender := found
          have erased := inductionHypothesis inRest
          rw [List.eraseIdx_cons_succ, List.countP_cons, List.countP_cons]
          omega

theorem Served.pushed (served : s.Served) (ending : s.Ending) {call : Nat} {urgent : Bool}
    {frame : Wire.Frame} (found : s.senders[call]? = some (.noted urgent frame))
    (room : s.accepts cfg urgent = true) (congested : Bool) :
    Served { s.setLane urgent (·.push frame) with
      senders := s.senders.eraseIdx call
      congested := congested } := by
  intro other
  obtain ⟨fifo, gauge⟩ := served other
  have erased := countP_eraseIdx (fun sender => sender.urgent == other) found
  by_cases same : other = urgent
  · subst same
    have running : s.writer ≠ .closed := of_decide_eq_true (Bool.and_eq_true_iff.mp room).1
    have intact := ending.running running other
    refine ⟨?_, ?_⟩
    · simp only [lane_setLane, if_true, Lane.push, fifo, intact, List.append_nil,
        List.append_assoc]
      rfl
    · simp only [EnqueuePhase.urgent_noted, beq_self_eq_true, if_true] at erased
      simp [Lane.push]
      omega
  · refine ⟨by simpa [same, ended] using fifo, ?_⟩
    simp only [EnqueuePhase.urgent_noted, beq_iff_eq, Ne.symm same, if_false,
      Nat.add_zero] at erased
    simp [same, gauge, erased]

theorem Served.refused (served : s.Served) {call : Nat} {urgent : Bool} {frame : Wire.Frame}
    (found : s.senders[call]? = some (.noted urgent frame)) :
    Served { s with senders := s.senders.set call (.refused urgent) } := by
  intro other
  obtain ⟨fifo, gauge⟩ := served other
  have moved := Machine.countP_set_of_some
    (fun sender : EnqueuePhase => sender.urgent == other) (.refused urgent) found
  simp only [EnqueuePhase.urgent_noted, EnqueuePhase.urgent_refused] at moved
  exact ⟨fifo, by rw [gauge, ← Nat.add_right_cancel moved]⟩

theorem Served.undone (served : s.Served) {call : Nat} {urgent : Bool}
    (found : s.senders[call]? = some (.refused urgent)) (congested : Bool) :
    Served { s.setLane urgent Lane.lower with
      senders := s.senders.eraseIdx call
      congested := congested } := by
  intro other
  obtain ⟨fifo, gauge⟩ := served other
  have erased := countP_eraseIdx (fun sender => sender.urgent == other) found
  by_cases same : other = urgent
  · subst same
    refine ⟨by simpa [Lane.lower, ended] using fifo, ?_⟩
    simp only [EnqueuePhase.urgent_refused, beq_self_eq_true, if_true] at erased
    simp [Lane.lower]
    omega
  · refine ⟨by simpa [same, ended] using fifo, ?_⟩
    simp only [EnqueuePhase.urgent_refused, beq_iff_eq, Ne.symm same, if_false,
      Nat.add_zero] at erased
    simp [same, gauge, erased]

/-- The head of a queue moves to the hand of the writer, which the gauge still counts. -/
theorem Served.receives (served : s.Served) {action : WriterAction} {urgent : Bool}
    {phase : Wire.Frame → WriterPhase} {frame : Wire.Frame} {rest : List Wire.Frame}
    (receives : s.Receives action urgent phase)
    (waiting : (s.lane urgent).queue = frame :: rest) :
    Served { s.setLane urgent fun l => { l with queue := rest } with writer := phase frame } := by
  intro other
  obtain ⟨fifo, gauge⟩ := served other
  obtain ⟨hand, ahead⟩ := receives.holds frame other
  rw [(receives.empty other).1] at fifo
  rw [(receives.empty other).2] at gauge
  by_cases same : other = urgent
  · subst same
    rw [waiting] at fifo gauge
    refine ⟨?_, ?_⟩
    · simpa [hand, ended] using fifo
    · simp [ahead, gauge]
      omega
  · refine ⟨?_, ?_⟩
    · simpa [same, Ne.symm same, hand, ended] using fifo
    · simpa [same, Ne.symm same, ahead] using gauge

/-- The gauge is lowered for the frame in the writer's hand. -/
theorem Served.lowers (served : s.Served) {action : WriterAction} {urgent : Bool}
    {phase : WriterPhase} (lowers : s.Lowers action urgent phase) :
    Served { s.setLane urgent Lane.lower with writer := phase } := by
  intro other
  obtain ⟨fifo, gauge⟩ := served other
  obtain ⟨hand, behind⟩ := lowers.keeps other
  by_cases same : other = urgent
  · subst same
    refine ⟨by simpa [Lane.lower, hand, ended] using fifo, ?_⟩
    simp only [if_true] at behind
    simp [Lane.lower]
    omega
  · refine ⟨by simpa [same, hand, ended] using fifo, ?_⟩
    simp only [Ne.symm same, if_false, Nat.add_zero] at behind
    simpa [same, behind] using gauge

theorem Served.ends (served : s.Served) {source : Option Bool} {frame : Wire.Frame} {fate : Fate}
    {phase : WriterPhase} (done : s.Done source frame fate phase) (writeStalled : Bool) :
    Served { s.ends source frame fate with writer := phase, writeStalled := writeStalled } := by
  intro other
  obtain ⟨fifo, gauge⟩ := served other
  obtain ⟨empty, ahead⟩ := done.leaves other
  refine ⟨?_, ?_⟩
  · change (s.lane other).accepted = (s.ends source frame fate).ended other ++ phase.hand other ++
      (s.lane other).queue ++ (s.lane other).destroyed
    rw [ended_ends, empty, fifo, done.holds, List.append_nil]
  · change (s.lane other).queued = _ + _ + phase.ahead other + _
    rw [ahead]
    exact gauge

theorem Served.holds (served : s.Served) {frame : Wire.Frame}
    (taken : s.writer = .taken true frame) :
    Served { s.setLane false Lane.raise with writer := .parking frame } := by
  intro other
  obtain ⟨fifo, gauge⟩ := served other
  rw [taken] at fifo gauge
  cases other with
  | true => exact ⟨fifo, gauge⟩
  | false =>
      refine ⟨fifo, ?_⟩
      simp [WriterPhase.ahead] at gauge
      simp [Lane.raise, WriterPhase.ahead, gauge]
      omega

theorem Served.parks (served : s.Served) (ending : s.Ending) {frame : Wire.Frame}
    (parking : s.writer = .parking frame) :
    Served { (s.setLane false (·.push frame)).ends (some true) frame .parked with
      writer := .idle } := by
  intro other
  obtain ⟨fifo, gauge⟩ := served other
  have intact := ending.running (by simp [parking]) other
  rw [parking, intact] at fifo gauge
  constructor
  · change (if other = false then _ else _ : Lane).accepted =
      (s.ends (some true) frame .parked).ended other ++ [] ++
        (if other = false then _ else _ : Lane).queue ++
          (if other = false then _ else _ : Lane).destroyed
    rw [ended_ends]
    cases other with
    | true => simpa [WriterPhase.hand, intact] using fifo
    | false =>
        simp only [WriterPhase.hand, Bool.false_eq_true, if_false, List.append_nil] at fifo
        simp [Lane.push, fifo, intact]
  · cases other with
    | true =>
        rw [← intact] at gauge
        exact gauge
    | false =>
        have counted : (s.lane false).queued = (s.lane false).queue.length +
            (s.senders.countP fun sender => sender.urgent == false) + 1 := gauge
        change (s.lane false).queued = ((s.lane false).queue ++ [frame]).length +
          (s.senders.countP fun sender => sender.urgent == false) + 0 +
            (s.lane false).destroyed.length
        rw [counted, intact, List.length_append, List.length_singleton]
        simp only [List.length_nil]
        omega

theorem Served.endTask (served : s.Served)
    (rests : ∀ urgent, s.writer.hand urgent = [] ∧ s.writer.ahead urgent = 0) :
    s.endTask.Served := by
  intro other
  obtain ⟨fifo, gauge⟩ := served other
  rw [(rests other).1] at fifo
  rw [(rests other).2] at gauge
  constructor
  · simpa [PathIo.endTask, Lane.drop, WriterPhase.hand, PathIo.ended] using fifo
  · simp only [PathIo.endTask, Lane.drop, WriterPhase.ahead, List.length_nil, List.length_append]
    omega

theorem Served.step (served : s.Served) (ending : s.Ending) {action : WriterAction}
    (taken : s.step cfg action = some t) : t.Served := by
  cases took_of_step taken with
  | offer frame => exact served.offer _ frame
  | pushed found room congested => exact served.pushed ending found room congested
  | refused found full => exact served.refused found
  | undone found congested => exact served.undone found congested
  | flags alive closing stays apart =>
      exact fun other => (served other).same rfl rfl rfl rfl rfl
  | turns turn writeStalled =>
      exact fun other =>
        (served other).same rfl rfl rfl (turn.keeps other).1 (turn.keeps other).2
  | receives receives waiting => exact served.receives receives waiting
  | lowers lowers => exact served.lowers lowers
  | holds inHand held => exact served.holds inHand
  | parks parking => exact served.parks ending parking
  | ends done writeStalled => exact served.ends done writeStalled
  | fails done writeStalled => exact (served.ends done writeStalled).endTask fun _ => ⟨rfl, rfl⟩
  | quits running rests => exact served.endTask rests

/-! ## No STREAM_DATA before the first pong -/

/-- STREAM_DATA is beyond the bulk queue only on a path whose round-trip time is known, so that
none is ever held back; what the writer has done with was written, until it leaves its loop. -/
structure Proven (s : PathIo) : Prop where
  queue : ∀ frame ∈ (s.lane true).queue, frame.isData = true → s.rttKnown = true
  sender : ∀ frame, EnqueuePhase.noted true frame ∈ s.senders → frame.isData = true →
    s.rttKnown = true
  hand : ∀ urgent, ∀ frame ∈ s.writer.hand urgent, frame.isData = true → s.rttKnown = true
  own : ∀ frame stalled, s.writer = .writing none frame stalled → frame.isData = false
  notParking : (∀ frame, s.writer ≠ .parking frame) ∧ s.writer ≠ .unparking
  ended : ∀ outcome ∈ s.outcomes, (outcome.frame.isData = true → s.rttKnown = true) ∧
    (outcome.fate = .written ∨ outcome.fate = .cancelled ∧ s.writer.leaving = true)

theorem Proven.phase (proven : s.Proven) {phase : WriterPhase}
    (hand : ∀ urgent, ∀ frame ∈ phase.hand urgent, frame ∈ s.writer.hand urgent)
    (own : ∀ frame stalled, phase = .writing none frame stalled → frame.isData = false)
    (notParking : (∀ frame, phase ≠ .parking frame) ∧ phase ≠ .unparking)
    (leaving : s.writer.leaving = true → phase.leaving = true) (writeStalled : Bool) :
    Proven { s with writer := phase, writeStalled := writeStalled } :=
  ⟨proven.queue, proven.sender,
    fun urgent frame held => proven.hand urgent frame (hand urgent frame held), own,
    notParking, fun outcome present =>
      have ⟨known, fate⟩ := proven.ended outcome present
      ⟨known, fate.imp_right fun ⟨cut, left⟩ => ⟨cut, leaving left⟩⟩⟩

/-- Gauges and accepted frames do not matter. -/
theorem Proven.setLane (proven : s.Proven) (urgent : Bool) {change : Lane → Lane}
    (kept : ∀ l : Lane, (change l).queue = l.queue) : (s.setLane urgent change).Proven := by
  refine ⟨?_, proven.sender, proven.hand, proven.own, proven.notParking, proven.ended⟩
  simp only [lane_setLane]
  split
  · rw [kept]
    exact proven.queue
  · exact proven.queue

theorem Proven.senders (proven : s.Proven) {senders : List EnqueuePhase}
    (kept : ∀ frame, EnqueuePhase.noted true frame ∈ senders → frame.isData = true →
      s.rttKnown = true) (congested : Bool) :
    Proven { s with senders := senders, congested := congested } :=
  ⟨proven.queue, kept, proven.hand, proven.own, proven.notParking, proven.ended⟩

theorem choosesUrgent_known {frame : Wire.Frame} (urgent : s.choosesUrgent cfg frame = true)
    (data : frame.isData = true) : s.rttKnown = true := by
  simp only [choosesUrgent, data, Bool.true_and] at urgent
  split at urgent
  · cases urgent
  · rename_i proven
    simp only [Bool.or_eq_true, Bool.not_eq_true', not_or] at proven
    simpa using proven.1

theorem Proven.offer (proven : s.Proven) (frame : Wire.Frame) :
    Proven { s.setLane (s.choosesUrgent cfg frame) Lane.raise with
      senders := s.senders ++ [.noted (s.choosesUrgent cfg frame) frame] } := by
  have raised : (s.setLane (s.choosesUrgent cfg frame) Lane.raise).Proven :=
    proven.setLane _ fun _ => rfl
  refine raised.senders (fun other present data => ?_) _
  rcases List.mem_append.mp present with earlier | new
  · exact proven.sender other earlier data
  · obtain ⟨urgent, rfl⟩ := EnqueuePhase.noted.inj (List.mem_singleton.mp new)
    exact choosesUrgent_known urgent.symm data

theorem Proven.pushed (proven : s.Proven) {call : Nat} {urgent : Bool} {frame : Wire.Frame}
    (found : s.senders[call]? = some (.noted urgent frame)) (congested : Bool) :
    Proven { s.setLane urgent (·.push frame) with
      senders := s.senders.eraseIdx call
      congested := congested } := by
  have present := List.mem_of_getElem? found
  refine ⟨?_, fun other kept => proven.sender other (List.mem_of_mem_eraseIdx kept),
    proven.hand, proven.own, proven.notParking, proven.ended⟩
  simp only [lane_setLane]
  split
  · rename_i same
    intro other waiting data
    rcases List.mem_append.mp waiting with earlier | new
    · exact proven.queue other earlier data
    · obtain rfl := List.mem_singleton.mp new
      exact proven.sender other (by rw [same]; exact present) data
  · exact proven.queue

theorem Proven.turns (proven : s.Proven) {phase : WriterPhase} (turn : s.Turn phase)
    (writeStalled : Bool) : Proven { s with writer := phase, writeStalled := writeStalled } := by
  have hand : ∀ urgent, ∀ frame ∈ phase.hand urgent, frame ∈ s.writer.hand urgent := by
    intro urgent frame held
    rwa [(turn.keeps urgent).1] at held
  cases turn with
  | own idle control =>
      refine proven.phase hand ?_ (by simp) (by simp [idle, WriterPhase.leaving]) _
      rintro _ _ same
      cases same
      exact control
  | stalls writing =>
      refine proven.phase hand ?_ (by simp) (by simp [writing, WriterPhase.leaving]) _
      rintro _ _ same
      cases same
      exact proven.own _ _ writing
  | polls holds | repolls holds | begins holds =>
      exact proven.phase hand (by simp) (by simp) (by simp [holds, WriterPhase.leaving]) _
  | closes | flushes | empties => exact proven.phase hand (by simp) (by simp) (fun _ => rfl) _

/-- A frame comes off a queue that vouches for it. -/
theorem Proven.receives (proven : s.Proven) {action : WriterAction} {urgent : Bool}
    {phase : Wire.Frame → WriterPhase} {frame : Wire.Frame} {rest : List Wire.Frame}
    (receives : s.Receives action urgent phase)
    (waiting : (s.lane urgent).queue = frame :: rest) :
    Proven { s.setLane urgent fun l => { l with queue := rest } with writer := phase frame } := by
  have vouched : frame.isData = true → s.rttKnown = true := by
    cases receives with
    | urgent | flush => exact proven.queue frame (waiting ▸ List.mem_cons_self)
    | bulk polled known => exact fun _ => known
  have leaving : s.writer.leaving = true → (phase frame).leaving = true := by
    cases receives with
    | urgent holds | bulk holds => simp [holds, WriterPhase.leaving]
    | flush => exact fun _ => rfl
  refine ⟨?_, proven.sender, fun other held present data => ?_, ?_, ?_, fun outcome present =>
    have ⟨known, fate⟩ := proven.ended outcome present
    ⟨known, fate.imp_right fun ⟨cut, left⟩ => ⟨cut, leaving left⟩⟩⟩
  · simp only [lane_setLane]
    split
    · rename_i same
      subst same
      exact fun other later => proven.queue other (waiting ▸ List.mem_cons_of_mem _ later)
    · exact proven.queue
  · rw [(receives.holds frame other).1] at present
    split at present
    · obtain rfl := List.mem_singleton.mp present
      exact vouched data
    · cases present
  · cases receives <;> simp
  · cases receives <;> simp

theorem Proven.lowers (proven : s.Proven) {action : WriterAction} {urgent : Bool}
    {phase : WriterPhase} (lowers : s.Lowers action urgent phase) :
    Proven { s.setLane urgent Lane.lower with writer := phase } := by
  have hand : ∀ other, ∀ frame ∈ phase.hand other, frame ∈ s.writer.hand other := by
    intro other frame held
    rwa [(lowers.keeps other).1] at held
  have lowered : (s.setLane urgent Lane.lower).Proven := proven.setLane _ fun _ => rfl
  cases lowers with
  | notes received =>
      exact lowered.phase hand (by simp) (by simp) (by simp [received, WriterPhase.leaving]) _
  | unparks unparking => exact absurd unparking proven.notParking.2
  | flushNotes received => exact lowered.phase hand (by simp) (by simp) (fun _ => rfl) _

/-- The writer has done with a frame that it took, and so parks none. -/
theorem Proven.ends (proven : s.Proven) {source : Option Bool} {frame : Wire.Frame} {fate : Fate}
    {phase : WriterPhase} (done : s.Done source frame fate phase) (writeStalled : Bool) :
    Proven { s.ends source frame fate with writer := phase, writeStalled := writeStalled } := by
  have known : frame.isData = true → s.rttKnown = true := by
    intro data
    cases source with
    | some urgent => exact proven.hand urgent frame (by rw [done.holds]; simp) data
    | none =>
        cases done with
        | sent writing | cut writing =>
            rw [proven.own frame _ writing] at data
            cases data
  have hand : ∀ urgent, ∀ other ∈ phase.hand urgent, other ∈ s.writer.hand urgent := by
    intro urgent other held
    rw [(done.leaves urgent).1] at held
    cases held
  have goes : (fate = .written ∨ fate = .cancelled ∧ phase.leaving = true) ∧
      (s.writer.leaving = true → phase.leaving = true) ∧
      ∀ other, phase ≠ .parking other ∧ phase ≠ .unparking ∧
        ∀ stalled, phase ≠ .writing none other stalled := by
    cases done with
    | sent writing => simp [writing, WriterPhase.leaving]
    | cut writing leaves => rcases leaves with rfl | rfl <;> simp [WriterPhase.leaving]
    | flushed writing met leaves =>
        rcases leaves with rfl | rfl <;> rcases met with rfl | rfl <;> simp [WriterPhase.leaving]
    | givesUp => simp [WriterPhase.leaving]
    | drops parking => exact absurd parking (proven.notParking.1 _)
  obtain ⟨met, leaving, apart⟩ := goes
  have rest := proven.phase hand (fun other stalled same => absurd same ((apart other).2.2 stalled))
    ⟨fun other => (apart other).1, (apart frame).2.1⟩ leaving writeStalled
  refine ⟨rest.queue, rest.sender, rest.hand, rest.own, rest.notParking, fun outcome present => ?_⟩
  rcases List.mem_append.mp present with earlier | new
  · exact rest.ended outcome earlier
  · obtain rfl := List.mem_singleton.mp new
    exact ⟨known, met⟩

theorem Proven.endTask (proven : s.Proven) : s.endTask.Proven := by
  have left : Proven { s with writer := .closed } :=
    proven.phase (fun _ _ held => by cases held) (by simp) (by simp) (fun _ => rfl) s.writeStalled
  refine ⟨?_, left.sender, left.hand, left.own, left.notParking, left.ended⟩
  intro frame waits
  cases waits

theorem Proven.step (proven : s.Proven) {action : WriterAction}
    (taken : s.step cfg action = some t) : t.Proven := by
  cases took_of_step taken with
  | offer frame => exact proven.offer frame
  | pushed found room congested => exact proven.pushed found congested
  | refused found full =>
      refine proven.senders (fun other kept data => ?_) _
      rcases List.mem_or_eq_of_mem_set kept with earlier | impossible
      · exact proven.sender other earlier data
      · cases impossible
  | @undone call urgent found congested =>
      have lowered : (s.setLane urgent Lane.lower).Proven := proven.setLane _ fun _ => rfl
      exact lowered.senders
        (fun other kept => proven.sender other (List.mem_of_mem_eraseIdx kept)) _
  | flags alive closing stays apart =>
      exact ⟨fun frame waits data => stays (proven.queue frame waits data),
        fun frame offered data => stays (proven.sender frame offered data),
        fun urgent frame held data => stays (proven.hand urgent frame held data), proven.own,
        proven.notParking, fun outcome present =>
          have ⟨known, fate⟩ := proven.ended outcome present
          ⟨fun data => stays (known data), fate⟩⟩
  | turns turn writeStalled => exact proven.turns turn writeStalled
  | receives receives waiting => exact proven.receives receives waiting
  | lowers lowers => exact proven.lowers lowers
  | holds inHand held =>
      -- the frame's queue has vouched for it, so the writer finds none to hold back
      simp only [holdStreamData, Bool.and_eq_true, Bool.not_eq_true'] at held
      have known := proven.hand true _ (by simp [inHand, WriterPhase.hand]) held.1
      rw [held.2] at known
      cases known
  | parks parking => exact absurd parking (proven.notParking.1 _)
  | ends done writeStalled => exact proven.ends done writeStalled
  | fails done writeStalled => exact (proven.ends done writeStalled).endTask
  | quits running rests => exact proven.endTask

theorem served_of_reachable (reached : (machine cfg).Reachable s) : s.Served := by
  have both := reached.invariant (fun s => s.Served ∧ s.Ending) ?_
    fun _ _ _ ⟨served, ending⟩ taken => ⟨served.step ending taken, ending.step taken⟩
  · exact both.1
  · rintro _ ⟨rttKnown, rfl⟩
    exact ⟨fun _ => ⟨rfl, rfl⟩, fun _ _ => rfl, fun _ _ => rfl⟩

theorem proven_of_reachable (reached : (machine cfg).Reachable s) : s.Proven := by
  refine reached.invariant PathIo.Proven ?_ fun _ _ _ proven taken => proven.step taken
  rintro _ ⟨rttKnown, rfl⟩
  exact ⟨by simp [Lane.new], by simp, by simp [WriterPhase.hand], by simp, by simp, by simp⟩

/-- In every reachable state, what either queue has accepted is what the writer has done with,
then what it holds, then what waits, then what its end destroyed, in this order; the gauge counts
what waits, the sends under way, the frame the writer has yet to account for and what was
destroyed; nothing is destroyed before the writer ends and nothing waits after; and as long as
the writer is in its loop every frame it has done with was written. -/
theorem accepted_in_order (reached : (machine cfg).Reachable s) (urgent : Bool) :
    (s.lane urgent).accepted = s.ended urgent ++ s.writer.hand urgent ++ (s.lane urgent).queue ++
      (s.lane urgent).destroyed ∧
    (s.lane urgent).queued = (s.lane urgent).queue.length +
      (s.senders.countP fun sender => sender.urgent == urgent) + s.writer.ahead urgent +
        (s.lane urgent).destroyed.length ∧
    (s.writer ≠ .closed → (s.lane urgent).destroyed = []) ∧
    (s.writer = .closed → (s.lane urgent).queue = []) ∧
    (s.writer.leaving = false → ∀ outcome ∈ s.outcomes, outcome.fate = .written) := by
  obtain ⟨fifo, gauge⟩ := served_of_reachable reached urgent
  have ending := ending_of_reachable reached
  refine ⟨fifo, gauge, fun running => ending.running running urgent,
    fun closed => ending.closed closed urgent, fun inLoop outcome present => ?_⟩
  rcases ((proven_of_reachable reached).ended outcome present).2 with written | ⟨_, left⟩
  · exact written
  · rw [inLoop] at left
    cases left

/-- A path whose round-trip time is not known yet, with queues for one frame. -/
def fresh : PathIo := ⟨false, true, false, false, fun _ => .new, [], .idle, false, []⟩

def narrow : SessionConfig := { SessionConfig.standard with chan := 1, interactiveMax := 0 }

def piece : Wire.Frame := .streamData ⟨1, 0, [7]⟩

/-- STREAM_DATA waits on the bulk queue for the first pong while a SESSION_CLOSE is written; the
path fails during its own turn and destroys the piece behind it. -/
def closeThenData : List WriterAction :=
  [.offer piece, .trySend 0, .offer .sessionClose, .trySend 0, .recv true, .noteDequeue, .begin_,
    .sent, .rttMeasured, .pollUrgent, .recv false, .noteDequeue, .begin_, .offer piece,
    .trySend 0, .failed]

theorem accepted_in_order_closeThenData :
    ∃ s, (machine narrow).run fresh closeThenData = some s ∧
      s.outcomes = [⟨some true, .sessionClose, .written⟩, ⟨some false, piece, .cancelled⟩] ∧
      (s.lane false).destroyed = [piece] ∧
      (s.lane false).accepted = s.ended false ++ s.writer.hand false ++ (s.lane false).queue ++
        (s.lane false).destroyed := by
  have history : ((machine narrow).run fresh closeThenData).map
      (fun s => (s.outcomes, (s.lane false).destroyed)) =
        some ([⟨some true, .sessionClose, .written⟩, ⟨some false, piece, .cancelled⟩],
          [piece]) := by
    decide +kernel
  obtain ⟨s, ran, made⟩ := Option.map_eq_some_iff.mp history
  obtain ⟨outcomes, destroyed⟩ := Prod.mk.inj made
  exact ⟨s, ran, outcomes, destroyed,
    (accepted_in_order (Machine.Reachable.run (.start ⟨false, rfl⟩) ran) false).1⟩

/-- Until the path has a round-trip time, no STREAM_DATA is on the urgent queue, in the writer's
hand or dealt with; and whether or not it has one, the writer never takes STREAM_DATA that it
would have to hold back, so that it parks none. -/
theorem no_data_before_rtt (reached : (machine cfg).Reachable s) :
    (s.rttKnown = false → ∀ frame, frame ∈ (s.lane true).queue ∨
      (∃ urgent, frame ∈ s.writer.hand urgent) ∨ (∃ outcome ∈ s.outcomes, outcome.frame = frame) →
        frame.isData = false) ∧
    (∀ frame, s.writer = .taken true frame → s.holdStreamData frame = false) ∧
    (∀ outcome ∈ s.outcomes, outcome.fate ≠ .parked ∧ outcome.fate ≠ .dropped) := by
  have proven := proven_of_reachable reached
  refine ⟨fun unknown frame place => ?_, fun frame holds => ?_, fun outcome present => ?_⟩
  · by_contra data
    rw [Bool.not_eq_false] at data
    have known : s.rttKnown = true := by
      rcases place with waits | ⟨urgent, held⟩ | ⟨outcome, present, rfl⟩
      · exact proven.queue frame waits data
      · exact proven.hand urgent frame held data
      · exact (proven.ended outcome present).1 data
    rw [unknown] at known
    cases known
  · by_contra held
    simp only [holdStreamData, Bool.not_eq_false, Bool.and_eq_true, Bool.not_eq_true'] at held
    have known := proven.hand true frame (by simp [holds, WriterPhase.hand]) held.1
    rw [held.2] at known
    cases known
  · rcases (proven.ended outcome present).2 with written | ⟨cut, _⟩
    · simp [written]
    · simp [cut]

/-- The data frame is on the bulk queue only, and the writer at rest. -/
theorem no_data_before_rtt_waiting :
    ∃ s, (machine narrow).run fresh (closeThenData.take 8) = some s ∧ s.rttKnown = false ∧
      (s.lane false).queue = [piece] ∧
      ∀ outcome ∈ s.outcomes, outcome.frame.isData = false := by
  have history : ((machine narrow).run fresh (closeThenData.take 8)).map
      (fun s => (s.rttKnown, (s.lane false).queue)) = some (false, [piece]) := by
    decide +kernel
  obtain ⟨s, ran, made⟩ := Option.map_eq_some_iff.mp history
  obtain ⟨unknown, queue⟩ := Prod.mk.inj made
  have reachable : (machine narrow).Reachable s := Machine.Reachable.run (.start ⟨false, rfl⟩) ran
  exact ⟨s, ran, unknown, queue, fun outcome present =>
    (no_data_before_rtt reachable).1 unknown _ (.inr (.inr ⟨outcome, present, rfl⟩))⟩

/-! ## Bulk overtakes once -/

theorem length_setLane (s : PathIo) (urgent : Bool) {change : Lane → Lane}
    (kept : ∀ l : Lane, l.queue.length ≤ (change l).queue.length) :
    (s.lane true).queue.length ≤ ((s.setLane urgent change).lane true).queue.length := by
  rw [lane_setLane]
  split
  · exact kept _
  · exact Nat.le_refl _

theorem length_push (s : PathIo) (urgent : Bool) (frame : Wire.Frame) :
    (s.lane true).queue.length ≤ ((s.setLane urgent (·.push frame)).lane true).queue.length :=
  s.length_setLane urgent fun l => by simp [Lane.push]

/-- A step that does not end the writer takes at most one frame off the urgent queue, and only by
one of the two receives. -/
theorem length_step {action : WriterAction} (taken : s.step cfg action = some t)
    (running : t.writer ≠ .closed) : (s.lane true).queue.length ≤ (t.lane true).queue.length +
      if action = .recv true ∨ action = .flushRecv then 1 else 0 := by
  have least : ∀ {u : PathIo}, (s.lane true).queue.length ≤ (u.lane true).queue.length →
      (s.lane true).queue.length ≤ (u.lane true).queue.length +
        if action = .recv true ∨ action = .flushRecv then 1 else 0 :=
    fun kept => kept.trans (Nat.le_add_right _ _)
  cases took_of_step taken with
  | offer | undone | lowers | holds =>
      apply least
      exact s.length_setLane _ fun _ => Nat.le_refl _
  | pushed | parks =>
      apply least
      exact s.length_push _ _
  | refused | flags | turns | ends => exact least (Nat.le_refl _)
  | receives receives waiting =>
      cases receives with
      | urgent | flush => simp [waiting]
      | bulk => simp
  | fails | quits => exact absurd rfl running

/-- The writer turns to the bulk queue only when it has just found the urgent one empty. -/
theorem polled_step {action : WriterAction} (taken : s.step cfg action = some t)
    (polled : t.writer = .polled) :
    (s.lane true).queue = [] ∨ s.writer = .polled ∧ action ≠ .recv false := by
  cases took_of_step taken with
  | offer | pushed | refused | undone => exact .inr ⟨polled, by simp⟩
  | flags alive closing stays apart => exact .inr ⟨polled, apart⟩
  | turns turn writeStalled =>
      cases turn with
      | polls idle empty => exact .inl empty
      | _ => cases polled
  | receives receives waiting => cases receives <;> cases polled
  | lowers lowers => cases lowers <;> cases polled
  | ends done writeStalled =>
      cases done with
      | cut writing leaves => rcases leaves with rfl | rfl <;> cases polled
      | flushed writing met leaves => rcases leaves with rfl | rfl <;> cases polled
      | _ => cases polled
  | holds | parks | fails | quits => cases polled

/-- A writer that has ended takes nothing any more. -/
theorem recv_closed {schedule : List WriterAction} (ran : (machine cfg).run s schedule = some t)
    (closed : s.writer = .closed) : schedule.count (.recv false) = 0 := by
  induction schedule generalizing s with
  | nil => rfl
  | cons action rest inductionHypothesis =>
      obtain ⟨next, taken, remaining⟩ := Option.bind_eq_some_iff.mp ran
      have other : action ≠ .recv false := by
        rintro rfl
        simp [machine, PathIo.step, PathIo.recv, closed] at taken
      have stays : next.writer = .closed := by
        by_contra running
        exact running_of_step taken running closed
      rw [List.count_cons, inductionHypothesis remaining stays]
      simp [other]

/-- Once the writer is past a poll it takes no bulk frame while an urgent one still waits, here
one with `ahead` others before it. -/
theorem overtakes_le {schedule : List WriterAction} {ahead : Nat}
    (ran : (machine cfg).run s schedule = some t) (waits : ahead < (s.lane true).queue.length)
    (notYet : schedule.count (.recv true) + schedule.count .flushRecv ≤ ahead) :
    schedule.count (.recv false) ≤ if s.writer = .polled then 1 else 0 := by
  induction schedule generalizing s ahead with
  | nil => exact Nat.zero_le _
  | cons action rest inductionHypothesis =>
      obtain ⟨next, taken, remaining⟩ := Option.bind_eq_some_iff.mp ran
      have nonempty : (s.lane true).queue ≠ [] := List.ne_nil_of_length_pos (by omega)
      have later : rest.count (.recv false) ≤ if next.writer = .polled then 1 else 0 := by
        by_cases ended : next.writer = .closed
        · rw [recv_closed remaining ended]
          exact Nat.zero_le _
        have shorter := length_step taken ended
        simp only [List.count_cons] at notYet
        by_cases received : action = .recv true ∨ action = .flushRecv
        · rw [if_pos received] at shorter
          have counted : rest.count (.recv true) + rest.count .flushRecv + 1 ≤ ahead := by
            rcases received with rfl | rfl
            · simp only [beq_self_eq_true, if_true] at notYet
              omega
            · simp only [beq_self_eq_true, if_true] at notYet
              omega
          exact inductionHypothesis remaining (by omega) (Nat.le_sub_of_add_le counted)
        · rw [if_neg received] at shorter
          exact inductionHypothesis remaining (Nat.lt_of_lt_of_le waits shorter) (by omega)
      rw [List.count_cons]
      by_cases polled : next.writer = .polled
      · -- Only a writer that had polled already has polled now.
        obtain empty | ⟨before, other⟩ := polled_step taken polled
        · exact absurd empty nonempty
        · simpa [before, other, polled] using later
      · rw [if_neg polled] at later
        by_cases bulk : action = .recv false
        · subst bulk
          have before : s.writer = .polled := by
            simp only [machine, PathIo.step, PathIo.recv] at taken
            split at taken
            · rename_i impossible _
              cases impossible
            · assumption
            · cases taken
          rw [if_pos before, beq_self_eq_true, if_pos rfl]
          omega
        · simp only [beq_iff_eq, bulk, if_false]
          omega

/-- Whatever the interleaving, before the turn of an urgent frame with `ahead` others before it
comes, the writer takes at most one bulk frame. -/
theorem bulk_overtakes_once {schedule : List WriterAction} {ahead : Nat}
    (ran : (machine cfg).run s schedule = some t) (waits : ahead < (s.lane true).queue.length)
    (notYet : schedule.count (.recv true) + schedule.count .flushRecv ≤ ahead) :
    schedule.count (.recv false) ≤ 1 := by
  refine (overtakes_le ran waits notYet).trans ?_
  split
  · exact Nat.le_refl _
  · exact Nat.zero_le _

/-- A bulk frame waits, and the urgent frame comes just after the writer has polled. -/
def justMissed : PathIo :=
  { fresh with
    rttKnown := true
    lane := fun urgent => if urgent then ⟨[.sessionClose], 1, [.sessionClose], []⟩
      else ⟨[piece, piece], 2, [piece, piece], []⟩
    writer := .polled }

theorem bulk_overtakes_once_justMissed :
    [WriterAction.recv false, .noteDequeue, .begin_, .sent].count (.recv false) ≤ 1 ∧
    ∃ s, (machine narrow).run justMissed [.recv false, .noteDequeue, .begin_, .sent] = some s ∧
      s.outcomes = [⟨some false, piece, .written⟩] := by
  have history : ((machine narrow).run justMissed [.recv false, .noteDequeue, .begin_, .sent]).map
      outcomes = some [⟨some false, piece, .written⟩] := by decide +kernel
  obtain ⟨s, ran, made⟩ := Option.map_eq_some_iff.mp history
  exact ⟨@bulk_overtakes_once narrow justMissed s _ 0 ran (by decide) (by decide), s, ran, made⟩

end PathIo

end NyaLink
