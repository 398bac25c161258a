import NyaLink.Session.Scheduler

/-!
# Session state

The path table, the streams and the senders of one session, and the small
operations everything else is made of: a frame onto a queue, bytes onto a path's
inflight counter, a piece onto another path.  Removed streams stay in the map,
marked `gone`, because a suspended sender still holds them.
-/

namespace NyaLink

/-- `send_data` suspended in `wait_bulk_send`. -/
structure BulkWait where
  pathId : Nat
  offset : Nat
  piece : Bytes
  deadline : Nat
  deriving DecidableEq, Repr

/-- A running call of `send_data`, between two pieces or in `wait_bulk_send`. -/
structure Sender where
  rest : Bytes
  waiting : Option BulkWait
  deriving DecidableEq, Repr

/-- `accepted` is history: every frame a queue took, with the path. -/
structure Session where
  now : Nat
  nextPathId : Nat
  paths : OrdMap Nat Path
  streams : OrdMap Nat StreamState
  senders : OrdMap Nat Sender
  accepted : List (Nat × Frame)
  deriving DecidableEq

def Frame.isData : Frame → Bool
  | .streamData _ => true
  | _ => false

def frameIsInteractive (cfg : SessionConfig) : Frame → Bool
  | .streamData data => decide (data.data.length ≤ cfg.interactiveMax)
  | _ => true

namespace Session

def getPath (s : Session) (id : Nat) : Option Path := s.paths.get? id

def getStream (s : Session) (id : Nat) : Option StreamState :=
  (s.streams.get? id).filter fun st => !st.gone

def modifyPath (s : Session) (id : Nat) (change : Path → Path) : Session :=
  { s with paths := s.paths.modify id change }

def modifyStream (s : Session) (id : Nat) (change : StreamState → StreamState) : Session :=
  { s with streams := s.streams.modify id change }

/-- Change one piece of a stream's `unacked` map, if it is there. -/
def modifyUnacked (s : Session) (id offset : Nat) (change : Unacked → Unacked) : Session :=
  s.modifyStream id fun st => { st with unacked := st.unacked.modify offset change }

def addInflight (s : Session) (id n : Nat) : Session :=
  s.modifyPath id fun p => { p with inflight := p.inflight + n }

def subInflight (s : Session) (id n : Nat) : Session :=
  s.modifyPath id fun p => { p with inflight := p.inflight - n }

def xferInflight (s : Session) (source dest n : Nat) : Session :=
  if source = dest ∨ n = 0 then s else (s.subInflight source n).addInflight dest n

/-- The queue a frame goes to: DATA stays off the urgent queue while the path is unproven or
its writes stall. -/
def goesUrgent (cfg : SessionConfig) (p : Path) (frame : Frame) : Bool :=
  if frame.isData && (!p.rttKnown || p.writeStalled) then false else frameIsInteractive cfg frame

end Session

namespace Path

def hasRoom (cfg : SessionConfig) (p : Path) (urgent : Bool) : Bool :=
  decide ((if urgent then p.urgent else p.writer).length < cfg.chan)

def enqueue (p : Path) (urgent : Bool) (frame : Frame) : Path :=
  if urgent then { p with urgent := p.urgent ++ [frame], congested := false }
  else { p with writer := p.writer ++ [frame] }

end Path

namespace Session

/-- `send_on_path`: `true` when the path is alive and its queue took the frame. -/
def sendOnPath (cfg : SessionConfig) (s : Session) (id : Nat) (frame : Frame) :
    Session × Bool :=
  match s.getPath id with
  | none => (s, false)
  | some p =>
      if !p.isAlive then (s, false)
      else
        let urgent := goesUrgent cfg p frame
        if p.hasRoom cfg urgent then
          ({ s.modifyPath id fun p => p.enqueue urgent frame with
              accepted := s.accepted ++ [(id, frame)] }, true)
        else if urgent then (s.modifyPath id fun p => { p with congested := true }, false)
        else (s, false)

def sendDataFrame (cfg : SessionConfig) (s : Session) (streamId offset : Nat) (data : Bytes)
    (path : Nat) : Session × Bool :=
  s.sendOnPath cfg path
    (.streamData { streamId := streamId, offset := offset, data := data })

def pieceAt (s : Session) (id offset : Nat) : Option Unacked :=
  (s.streams.get? id).bind fun st => st.unacked.get? offset

/-- `rehome_unacked`.  `sent` is history: the new path has taken a frame for the piece. -/
def rehomeUnacked (s : Session) (id offset dest : Nat) (sent : Bool) : Session :=
  match s.pieceAt id offset with
  | none => s
  | some u =>
      (s.xferInflight u.pathId dest u.data.length).modifyUnacked id offset fun u =>
        { u with
          pathId := dest
          lastSent := s.now
          retryNotBefore := s.now
          dropped := false
          tried := pushTried u.tried dest
          carried := sent }

def noteDataDropped (s : Session) (id offset : Nat) : Session :=
  match s.getStream id with
  | none => s
  | some _ => s.modifyUnacked id offset fun u => { u with dropped := true, retryNotBefore := s.now }

def dropSticky (s : Session) (id : Nat) : Session :=
  s.modifyPath id fun p => { p with stickyStreams := p.stickyStreams - 1 }

def addSticky (s : Session) (id : Nat) : Session :=
  s.modifyPath id fun p => { p with stickyStreams := p.stickyStreams + 1 }

def setSticky (s : Session) (id path : Nat) : Session :=
  match s.getStream id with
  | none => s
  | some st =>
      if !st.isSteerable || st.sticky == path then s
      else
        let s := s.modifyStream id fun st => { st with sticky := path }
        (if st.sticky = 0 then s else s.dropSticky st.sticky).addSticky path

/-- `pick_retry`: a path other than this one. -/
def pickRetry (cfg : SessionConfig) (s : Session) (avoid : Nat) : Option Nat :=
  pickRetryPath cfg s.now s.paths.entries [avoid]

/-! ## Lookups -/

theorem getStream_eq_some_iff {s : Session} {id : Nat} {st : StreamState} :
    s.getStream id = some st ↔ s.streams.get? id = some st ∧ st.gone = false := by
  simp [getStream, Option.filter_eq_some_iff]

theorem getPath_modifyPath (s : Session) (id other : Nat) (change : Path → Path) :
    (s.modifyPath id change).getPath other =
      if other = id then (s.getPath other).map change else s.getPath other :=
  OrdMap.get?_modify s.paths id other change

theorem xferInflight_streams (s : Session) (source dest n : Nat) :
    (s.xferInflight source dest n).streams = s.streams := by
  unfold xferInflight
  split
  · rfl
  · rfl

/-- What a send does: the queue of an alive path takes the frame, or nothing but the congestion
mark of the path may change. -/
theorem sendOnPath_cases (cfg : SessionConfig) (s : Session) (id : Nat) (frame : Frame) :
    (∃ p urgent, s.getPath id = some p ∧ p.isAlive = true ∧ p.hasRoom cfg urgent = true ∧
      s.sendOnPath cfg id frame = ({ s.modifyPath id fun p => p.enqueue urgent frame with
        accepted := s.accepted ++ [(id, frame)] }, true)) ∨
    s.sendOnPath cfg id frame = (s, false) ∨
    s.sendOnPath cfg id frame = (s.modifyPath id fun p => { p with congested := true }, false) := by
  unfold sendOnPath
  cases found : s.getPath id with
  | none => exact .inr (.inl rfl)
  | some p =>
      cases alive : p.isAlive with
      | false => exact .inr (.inl (by simp only [alive, Bool.not_false, if_true]))
      | true =>
          simp only [alive, Bool.not_true, Bool.false_eq_true, if_false]
          cases room : p.hasRoom cfg (goesUrgent cfg p frame) with
          | true => exact .inl ⟨p, goesUrgent cfg p frame, rfl, alive, room, rfl⟩
          | false =>
              cases goesUrgent cfg p frame with
              | true => exact .inr (.inr rfl)
              | false => exact .inr (.inl rfl)

theorem mem_entries_iff_getPath {s : Session} {id : Nat} {p : Path} :
    (id, p) ∈ s.paths.entries ↔ s.getPath id = some p :=
  OrdMap.get?_eq_some_iff.symm

theorem getPath_of_pickRetryPath {cfg : SessionConfig} {s : Session} {tried : List Nat} {id : Nat}
    (picked : pickRetryPath cfg s.now s.paths.entries tried = some id) :
    ∃ p, s.getPath id = some p ∧ p.isAlive = true := by
  obtain ⟨p, membership, alive⟩ := pickRetryPath_alive picked
  exact ⟨p, mem_entries_iff_getPath.mp membership, alive⟩

end Session

end NyaLink
