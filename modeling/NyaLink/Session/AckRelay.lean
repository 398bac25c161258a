import Mathlib.Tactic.MkIffOfInductiveProp
import NyaLink.Session.AckRegister
import NyaLink.Session.RetryPass

/-!
# ACKs between failing paths

The steps in which an ACK moves between the registers of the paths, the hands of
a writer and the hands of those who move ACKs away from a failed path, in any
interleaving and with any number of failing paths.  The lock of a register is
held from the alive test of `store_ack` to its insert; every other access to a
register is one step.  The final take of an IO task may come at any time after
its path went down, also while another task is still inside `path_failed`; a task
whose first flush fails exits without one.

A path that went down stays down, and one path, `home`, never fails.  `accepted`
and `written` are history, and so is the number of a generation.
-/

namespace NyaLink

/-- Where `merge_pending_acks` is. -/
inductive MergeStage where
  | pickRetry
  | getPath (alt : Nat)
  | merge (alt : Nat)
  deriving DecidableEq, Repr

/-- A running `merge_pending_acks`, with the ACKs that are not merged yet. -/
structure Handover where
  stage : MergeStage
  acks : List GenAck
  deriving DecidableEq, Repr

/-- Where `path_failed` is: the path went down, its registers were taken, it left the table, and
what was taken is merged. -/
inductive FailPhase where
  | idle
  | down
  | taken (acks : OrdMap Nat GenAck)
  | removed (acks : OrdMap Nat GenAck)
  | merging (handover : Handover)
  deriving DecidableEq

/-- `path_failed` has not taken for the second time. -/
def FailPhase.takes : FailPhase → Bool
  | .down | .taken _ | .removed _ => true
  | _ => false

structure RelayPath where
  listed : Bool
  alive : Bool
  writing : Bool
  pendingAcks : OrdMap Nat GenAck
  /-- The ACK of a `store_ack` that holds the lock and found the path alive. -/
  storing : Option GenAck
  /-- `RestoreAcks` of the writer. -/
  inFlight : Option GenAck
  rest : List GenAck
  failing : FailPhase
  exit : Option Handover
  deriving DecidableEq

structure AckRelay where
  recvNext : OrdMap Nat Nat
  paths : OrdMap Nat RelayPath
  generated : List GenAck
  accepted : List GenAck
  written : List GenAck
  deriving DecidableEq

/-- Who runs `merge_pending_acks` for a path. -/
inductive Mover where
  | pathFailed
  | ioTask
  deriving DecidableEq, Repr

inductive RelayAction where
  | addPath (path : Nat)
  | advance (stream n : Nat)
  /-- `store_ack` takes the lock and finds the path alive. -/
  | testAlive (stream path window : Nat) (sack : List (Nat × Nat))
  | insertAck (path : Nat)
  | startWriter (path : Nat)
  | takeAcks (path : Nat) (streams : List Nat)
  | popFront (path : Nat)
  | sent (path : Nat)
  | restoreAck (path : Nat)
  | swapDown (path : Nat)
  | takeAllAcks (path : Nat)
  | removePath (path : Nat)
  | takeAgain (path : Nat)
  | finalTake (path : Nat)
  /-- The first flush failed: the IO task returns after `path_failed`. -/
  | flushFailed (path : Nat)
  | pickRetry (path : Nat) (mover : Mover) (alt : Option Nat)
  | getPath (path : Nat) (mover : Mover)
  | mergeAck (path : Nat) (mover : Mover) (index : Nat)
  deriving DecidableEq, Repr

namespace RelayPath

def new : RelayPath := ⟨true, true, false, .empty, none, none, [], .idle, none⟩

def popGuard (p : RelayPath) : Option (GenAck × RelayPath) :=
  match p.inFlight, p.rest with
  | some a, _ => some (a, { p with inFlight := none })
  | none, a :: rest => some (a, { p with rest := rest })
  | none, [] => none

def handover (p : RelayPath) : Mover → Option Handover
  | .pathFailed =>
      match p.failing with
      | .merging handover => some handover
      | _ => none
  | .ioTask => p.exit

def setHandover (p : RelayPath) (mover : Mover) (handover : Handover) : RelayPath :=
  match mover with
  | .pathFailed => { p with failing := .merging handover }
  | .ioTask => { p with exit := some handover }

def attended (p : RelayPath) : Bool := p.exit.isNone || p.failing.takes

/-- `pick_retry` may choose the path. -/
def eligible (p : RelayPath) : Bool := p.listed && p.alive

end RelayPath

namespace AckRelay

def new (home : Nat) : AckRelay :=
  ⟨.empty, OrdMap.empty.insert home .new, [], [], []⟩

def offsetOf (s : AckRelay) (stream : Nat) : Nat := (s.recvNext.get? stream).getD 0

def setPath (s : AckRelay) (path : Nat) (p : RelayPath) : AckRelay :=
  { s with paths := s.paths.insert path p }

def onPath (s : AckRelay) (path : Nat) (change : RelayPath → Option RelayPath) : Option AckRelay :=
  (s.paths.get? path).bind fun p => (change p).map fun after => s.setPath path after

/-- What `pick_retry` may return when the path is left out: an alive path of the table if there
is one. -/
def mayPick (s : AckRelay) (path : Nat) : Option Nat → Bool
  | some alt => alt != path && (s.paths.get? alt).any RelayPath.eligible
  | none => s.paths.entries.all fun entry => entry.1 == path || !entry.2.eligible

/-- `merge_pending_acks` goes on with its handover. -/
def onHandover (s : AckRelay) (path : Nat) (mover : Mover)
    (change : Handover → Option Handover) : Option AckRelay :=
  s.onPath path fun p => (p.handover mover).bind fun handover =>
    (change handover).map fun after => p.setHandover mover after

/-- One `merge_ack` of a handover. -/
def mergeInto (s : AckRelay) (path : Nat) (mover : Mover) (index : Nat) : Option AckRelay :=
  ((s.paths.get? path).bind fun p => p.handover mover).bind fun handover =>
    match handover.stage, handover.acks[index]? with
    | .merge alt, some a =>
        (s.onPath alt fun q =>
          if q.storing = none then some { q with pendingAcks := mergeAck q.pendingAcks a }
          else none).bind fun merged =>
            merged.onPath path fun p =>
              some (p.setHandover mover ⟨.merge alt, handover.acks.eraseIdx index⟩)
    | _, _ => none

def step (s : AckRelay) : RelayAction → Option AckRelay
  | .addPath path => if (s.paths.get? path).isSome then none else some (s.setPath path .new)
  | .advance stream n =>
      some { s with recvNext := s.recvNext.insert stream (s.offsetOf stream + n) }
  | .testAlive stream path window sack =>
      let a : GenAck := ⟨s.generated.length, ⟨stream, s.offsetOf stream, window, sack⟩⟩
      { s with generated := a :: s.generated }.onPath path fun p =>
        if p.alive && decide (p.storing = none) then some { p with storing := some a } else none
  | .insertAck path =>
      (s.paths.get? path).bind fun p => p.storing.map fun a =>
        { s with accepted := a :: s.accepted }.setPath path
          { p with storing := none, pendingAcks := p.pendingAcks.insert a.ack.streamId a }
  | .startWriter path => s.onPath path fun p =>
      if p.exit = none then some { p with writing := true } else none
  | .takeAcks path streams => s.onPath path fun p =>
      if p.writing = true ∧ p.exit = none ∧ p.storing = none ∧ p.inFlight = none ∧
          p.rest = [] then
        let result := takeAcks p.pendingAcks streams
        some { p with pendingAcks := result.2, rest := result.1 }
      else none
  | .popFront path => s.onPath path fun p =>
      match p.inFlight, p.rest with
      | none, a :: rest => some { p with inFlight := some a, rest := rest }
      | _, _ => none
  | .sent path =>
      (s.paths.get? path).bind fun p => p.inFlight.map fun a =>
        { s with written := a :: s.written }.setPath path { p with inFlight := none }
  | .restoreAck path => s.onPath path fun p =>
      if p.storing = none then
        p.popGuard.map fun popped =>
          { popped.2 with pendingAcks := mergeAck popped.2.pendingAcks popped.1 }
      else none
  | .swapDown path => s.onPath path fun p =>
      if p.listed && p.alive then some { p with alive := false, failing := .down } else none
  | .takeAllAcks path => s.onPath path fun p =>
      if p.failing = .down ∧ p.storing = none then
        some { p with failing := .taken p.pendingAcks, pendingAcks := .empty }
      else none
  | .removePath path => s.onPath path fun p =>
      match p.failing with
      | .taken acks => some { p with listed := false, failing := .removed acks }
      | _ => none
  | .takeAgain path => s.onPath path fun p =>
      match p.failing, p.storing with
      | .removed acks, none =>
          some { p with
            pendingAcks := .empty
            failing := .merging ⟨.pickRetry,
              (p.pendingAcks.entries.foldl collectAck acks).entries.map Prod.snd⟩ }
      | _, _ => none
  | .finalTake path => s.onPath path fun p =>
      if p.writing = true ∧ p.alive = false ∧ p.exit = none ∧ p.storing = none ∧
          p.inFlight = none ∧ p.rest = [] then
        some { p with
          pendingAcks := .empty
          exit := some ⟨.pickRetry, p.pendingAcks.entries.map Prod.snd⟩ }
      else none
  | .flushFailed path => s.onPath path fun p =>
      if p.writing = false ∧ p.alive = false ∧ p.exit = none then
        some { p with exit := some ⟨.pickRetry, []⟩ }
      else none
  | .pickRetry path mover alt =>
      if s.mayPick path alt then
        s.onHandover path mover fun handover =>
          match handover.stage, alt with
          | .pickRetry, some dest => some ⟨.getPath dest, handover.acks⟩
          | .pickRetry, none => some ⟨.pickRetry, []⟩
          | _, _ => none
      else none
  | .getPath path mover => s.onHandover path mover fun handover =>
      match handover.stage with
      | .getPath alt =>
          if (s.paths.get? alt).any RelayPath.listed then some ⟨.merge alt, handover.acks⟩
          else some ⟨.getPath alt, []⟩
      | _ => none
  | .mergeAck path mover index => s.mergeInto path mover index

/-- Every path may fail but `home`. -/
def machine (home : Nat) : Machine AckRelay RelayAction :=
  ⟨fun s => s = .new home, fun s action =>
    if action = .swapDown home then none else s.step action⟩

/-! ## What has to hold of every ACK -/

def Superseded (s : AckRelay) (a : GenAck) : Prop :=
  ∃ b ∈ s.accepted, b.ack.streamId = a.ack.streamId ∧ a.gen < b.gen

/-- `path_failed` was not called, or has merged all it took. -/
def isOver : FailPhase → Bool
  | .idle => true
  | .merging handover => handover.acks.isEmpty
  | _ => false

/-- Nothing is in progress on the path, and if it failed its IO task has exited. -/
@[mk_iff]
structure AtRest (p : RelayPath) : Prop where
  lock : p.storing = none
  inFlight : p.inFlight = none
  rest : p.rest = []
  failing : isOver p.failing = true
  moved : p.exit.all (fun handover => handover.acks.isEmpty) = true
  exited : p.alive = true ∨ p.exit.isSome = true

instance (p : RelayPath) : Decidable (AtRest p) := decidable_of_iff' _ (atRest_iff p)

def Quiescent (s : AckRelay) : Prop := ∀ entry ∈ s.paths.entries, AtRest entry.2

instance (s : AckRelay) : Decidable s.Quiescent := List.decidableBAll _ _

/-- In a quiescent state, every accepted ACK that was neither written nor superseded is in the
register of a path of the table. -/
def NoneStranded (s : AckRelay) : Prop :=
  s.Quiescent → ∀ a ∈ s.accepted, a ∉ s.written → ¬ s.Superseded a →
    ∃ path p, s.paths.get? path = some p ∧ p.listed = true ∧
      p.pendingAcks.get? a.ack.streamId = some a

/-- At the same offset, `path_failed` does not keep an older ACK than the one it takes the second
time. -/
def collectFresh (taken : OrdMap Nat GenAck) (entry : Nat × GenAck) : Bool :=
  (taken.get? entry.1).all fun held =>
    decide (held.ack.ackedOffset ≠ entry.2.ack.ackedOffset) || decide (entry.2.gen ≤ held.gen)

/-- A handover finds its target in the table and merges while somebody still takes from the
target's register, no IO task exits at its first flush and leaves ACKs that nobody takes, and no
two ACKs with the same offset meet the wrong way round. -/
def landsSafely (s : AckRelay) : RelayAction → Bool
  | .restoreAck path => (s.paths.get? path).all fun p => p.popGuard.all fun popped =>
      AckBoard.tieFresh (p.pendingAcks.get? popped.1.ack.streamId) popped.1
  | .takeAgain path => (s.paths.get? path).all fun p =>
      match p.failing with
      | .removed acks => p.pendingAcks.entries.all (collectFresh acks)
      | _ => true
  | .flushFailed path => (s.paths.get? path).all fun p =>
      p.failing.takes || p.pendingAcks.entries.isEmpty
  | .getPath path mover => ((s.paths.get? path).bind fun p => p.handover mover).all fun handover =>
      match handover.stage with
      | .getPath alt => handover.acks.isEmpty || (s.paths.get? alt).any RelayPath.listed
      | _ => true
  | .mergeAck path mover index =>
      ((s.paths.get? path).bind fun p => p.handover mover).all fun handover =>
        match handover.stage, handover.acks[index]? with
        | .merge alt, some a => (s.paths.get? alt).all fun q =>
            q.attended && AckBoard.tieFresh (q.pendingAcks.get? a.ack.streamId) a
        | _, _ => true
  | _ => true

/-! ## What a step can do -/

theorem onPath_eq_some {s next : AckRelay} {path : Nat}
    {change : RelayPath → Option RelayPath} (taken : s.onPath path change = some next) :
    ∃ p after, s.paths.get? path = some p ∧ change p = some after ∧
      next = s.setPath path after := by
  obtain ⟨p, found, mapped⟩ := Option.bind_eq_some_iff.mp taken
  obtain ⟨after, changed, rfl⟩ := Option.map_eq_some_iff.mp mapped
  exact ⟨p, after, found, changed, rfl⟩

theorem onHandover_eq_some {s next : AckRelay} {path : Nat} {mover : Mover}
    {change : Handover → Option Handover} (taken : s.onHandover path mover change = some next) :
    ∃ p handover after, s.paths.get? path = some p ∧ p.handover mover = some handover ∧
      change handover = some after ∧ next = s.setPath path (p.setHandover mover after) := by
  obtain ⟨p, last, found, changed, rfl⟩ := onPath_eq_some taken
  obtain ⟨handover, running, mapped⟩ := Option.bind_eq_some_iff.mp changed
  obtain ⟨after, moved, rfl⟩ := Option.map_eq_some_iff.mp mapped
  exact ⟨p, handover, after, found, running, moved, rfl⟩

theorem mergeInto_eq_some {s next : AckRelay} {path : Nat} {mover : Mover} {index : Nat}
    (taken : s.mergeInto path mover index = some next) :
    ∃ p handover alt a q again, s.paths.get? path = some p ∧
      p.handover mover = some handover ∧ handover.stage = .merge alt ∧
      handover.acks[index]? = some a ∧ s.paths.get? alt = some q ∧ q.storing = none ∧
      (s.setPath alt { q with pendingAcks := mergeAck q.pendingAcks a }).paths.get? path =
        some again ∧
      next = (s.setPath alt { q with pendingAcks := mergeAck q.pendingAcks a }).setPath path
        (again.setHandover mover ⟨.merge alt, handover.acks.eraseIdx index⟩) := by
  obtain ⟨handover, chosen, merging⟩ := Option.bind_eq_some_iff.mp taken
  obtain ⟨p, found, running⟩ := Option.bind_eq_some_iff.mp chosen
  split at merging
  · rename_i alt a stage listed
    obtain ⟨merged, inTarget, outOf⟩ := Option.bind_eq_some_iff.mp merging
    obtain ⟨q, after, target, changed, rfl⟩ := onPath_eq_some inTarget
    split at changed
    · rename_i free
      cases changed
      obtain ⟨again, last, foundAgain, same, rfl⟩ := onPath_eq_some outOf
      cases same
      exact ⟨p, handover, alt, a, q, again, found, running, stage, listed, target, free,
        foundAgain, rfl⟩
    · cases changed
  · cases merging

/-- One constructor for each way a step is taken. -/
inductive Took (s : AckRelay) : RelayAction → AckRelay → Prop where
  | addPath {path : Nat} (absent : s.paths.get? path = none) :
      Took s (.addPath path) (s.setPath path .new)
  | advance {stream n : Nat} :
      Took s (.advance stream n)
        { s with recvNext := s.recvNext.insert stream (s.offsetOf stream + n) }
  | testAlive {stream path window : Nat} {sack : List (Nat × Nat)} {p : RelayPath} {a : GenAck}
      (found : s.paths.get? path = some p) (alive : p.alive = true)
      (new : a = ⟨s.generated.length, ⟨stream, s.offsetOf stream, window, sack⟩⟩) :
      Took s (.testAlive stream path window sack)
        ({ s with generated := a :: s.generated }.setPath path { p with storing := some a })
  | insertAck {path : Nat} {p : RelayPath} {a : GenAck} (found : s.paths.get? path = some p)
      (storing : p.storing = some a) :
      Took s (.insertAck path)
        ({ s with accepted := a :: s.accepted }.setPath path
          { p with storing := none, pendingAcks := p.pendingAcks.insert a.ack.streamId a })
  | startWriter {path : Nat} {p : RelayPath} (found : s.paths.get? path = some p) :
      Took s (.startWriter path) (s.setPath path { p with writing := true })
  | takeAcks {path : Nat} {streams : List Nat} {p : RelayPath}
      (found : s.paths.get? path = some p) (writing : p.writing = true) (running : p.exit = none)
      (free : p.storing = none) (empty : p.rest = []) :
      Took s (.takeAcks path streams)
        (s.setPath path { p with
          pendingAcks := (NyaLink.takeAcks p.pendingAcks streams).2
          rest := (NyaLink.takeAcks p.pendingAcks streams).1 })
  | popFront {path : Nat} {p : RelayPath} {a : GenAck} {rest : List GenAck}
      (found : s.paths.get? path = some p) (idle : p.inFlight = none)
        (behind : p.rest = a :: rest) :
      Took s (.popFront path) (s.setPath path { p with inFlight := some a, rest := rest })
  | sent {path : Nat} {p : RelayPath} {a : GenAck} (found : s.paths.get? path = some p)
      (inFlight : p.inFlight = some a) :
      Took s (.sent path)
        ({ s with written := a :: s.written }.setPath path { p with inFlight := none })
  | restoreAck {path : Nat} {p rest : RelayPath} {a : GenAck} (found : s.paths.get? path = some p)
      (free : p.storing = none) (popped : p.popGuard = some (a, rest)) :
      Took s (.restoreAck path)
        (s.setPath path { rest with pendingAcks := NyaLink.mergeAck rest.pendingAcks a })
  | swapDown {path : Nat} {p : RelayPath} (found : s.paths.get? path = some p)
      (alive : p.alive = true) :
      Took s (.swapDown path) (s.setPath path { p with alive := false, failing := .down })
  | takeAllAcks {path : Nat} {p : RelayPath} (found : s.paths.get? path = some p)
      (down : p.failing = .down) (free : p.storing = none) :
      Took s (.takeAllAcks path)
        (s.setPath path { p with failing := .taken p.pendingAcks, pendingAcks := .empty })
  | removePath {path : Nat} {p : RelayPath} {acks : OrdMap Nat GenAck}
      (found : s.paths.get? path = some p) (phase : p.failing = .taken acks) :
      Took s (.removePath path)
        (s.setPath path { p with listed := false, failing := .removed acks })
  | takeAgain {path : Nat} {p : RelayPath} {acks : OrdMap Nat GenAck}
      (found : s.paths.get? path = some p) (phase : p.failing = .removed acks)
      (free : p.storing = none) :
      Took s (.takeAgain path)
        (s.setPath path { p with
          pendingAcks := .empty
          failing := .merging ⟨.pickRetry,
            (p.pendingAcks.entries.foldl collectAck acks).entries.map Prod.snd⟩ })
  | finalTake {path : Nat} {p : RelayPath} (found : s.paths.get? path = some p)
      (failed : p.alive = false) (running : p.exit = none) (free : p.storing = none)
      (guard : p.inFlight = none ∧ p.rest = []) :
      Took s (.finalTake path)
        (s.setPath path { p with
          pendingAcks := .empty
          exit := some ⟨.pickRetry, p.pendingAcks.entries.map Prod.snd⟩ })
  | flushFailed {path : Nat} {p : RelayPath} (found : s.paths.get? path = some p)
      (unwritten : p.writing = false) (failed : p.alive = false) (running : p.exit = none) :
      Took s (.flushFailed path) (s.setPath path { p with exit := some ⟨.pickRetry, []⟩ })
  | picked {path dest : Nat} {mover : Mover} {p : RelayPath} {handover : Handover}
      (found : s.paths.get? path = some p) (running : p.handover mover = some handover) :
      Took s (.pickRetry path mover (some dest))
        (s.setPath path (p.setHandover mover ⟨.getPath dest, handover.acks⟩))
  | unpicked {path : Nat} {mover : Mover} {p : RelayPath} {handover : Handover}
      (found : s.paths.get? path = some p) (running : p.handover mover = some handover)
      (nowhere : s.mayPick path none = true) :
      Took s (.pickRetry path mover none)
        (s.setPath path (p.setHandover mover ⟨.pickRetry, []⟩))
  | gotPath {path alt : Nat} {mover : Mover} {p : RelayPath} {handover : Handover}
      (found : s.paths.get? path = some p) (running : p.handover mover = some handover) :
      Took s (.getPath path mover)
        (s.setPath path (p.setHandover mover ⟨.merge alt, handover.acks⟩))
  | lostPath {path alt : Nat} {mover : Mover} {p : RelayPath} {handover : Handover}
      (found : s.paths.get? path = some p) (running : p.handover mover = some handover)
      (stage : handover.stage = .getPath alt)
      (unlisted : (s.paths.get? alt).any RelayPath.listed = false) :
      Took s (.getPath path mover) (s.setPath path (p.setHandover mover ⟨.getPath alt, []⟩))
  | mergeAck {path alt index : Nat} {mover : Mover} {p q again : RelayPath} {handover : Handover}
      {a : GenAck} (found : s.paths.get? path = some p)
      (running : p.handover mover = some handover) (stage : handover.stage = .merge alt)
      (listed : handover.acks[index]? = some a) (target : s.paths.get? alt = some q)
      (free : q.storing = none)
      (foundAgain : (s.setPath alt { q with
        pendingAcks := NyaLink.mergeAck q.pendingAcks a }).paths.get? path = some again) :
      Took s (.mergeAck path mover index)
        ((s.setPath alt { q with
          pendingAcks := NyaLink.mergeAck q.pendingAcks a }).setPath path
            (again.setHandover mover ⟨.merge alt, handover.acks.eraseIdx index⟩))

theorem took_of_step {s next : AckRelay} {action : RelayAction}
    (taken : s.step action = some next) : s.Took action next := by
  cases action with
  | addPath path =>
      simp only [AckRelay.step] at taken
      split at taken
      · cases taken
      · rename_i absent
        cases taken
        exact .addPath (Option.not_isSome_iff_eq_none.mp absent)
  | advance stream n =>
      cases taken
      exact .advance
  | testAlive stream path window sack =>
      obtain ⟨p, after, found, changed, rfl⟩ := onPath_eq_some taken
      split at changed
      · rename_i up
        cases changed
        exact .testAlive found (Bool.and_eq_true_iff.mp up).1 rfl
      · cases changed
  | insertAck path =>
      obtain ⟨p, found, mapped⟩ := Option.bind_eq_some_iff.mp taken
      obtain ⟨a, storing, rfl⟩ := Option.map_eq_some_iff.mp mapped
      exact .insertAck found storing
  | startWriter path =>
      obtain ⟨p, after, found, changed, rfl⟩ := onPath_eq_some taken
      split at changed
      · cases changed
        exact .startWriter found
      · cases changed
  | takeAcks path streams =>
      obtain ⟨p, after, found, changed, rfl⟩ := onPath_eq_some taken
      split at changed
      · rename_i free
        obtain ⟨writing, running, unlocked, _, empty⟩ := free
        cases changed
        exact .takeAcks found writing running unlocked empty
      · cases changed
  | popFront path =>
      obtain ⟨p, after, found, changed, rfl⟩ := onPath_eq_some taken
      split at changed
      · rename_i a rest idle behind
        cases changed
        exact .popFront found idle behind
      · cases changed
  | sent path =>
      obtain ⟨p, found, mapped⟩ := Option.bind_eq_some_iff.mp taken
      obtain ⟨a, inFlight, rfl⟩ := Option.map_eq_some_iff.mp mapped
      exact .sent found inFlight
  | restoreAck path =>
      obtain ⟨p, after, found, changed, rfl⟩ := onPath_eq_some taken
      split at changed
      · rename_i free
        obtain ⟨⟨a, rest⟩, popped, rfl⟩ := Option.map_eq_some_iff.mp changed
        exact .restoreAck found free popped
      · cases changed
  | swapDown path =>
      obtain ⟨p, after, found, changed, rfl⟩ := onPath_eq_some taken
      split at changed
      · rename_i up
        cases changed
        exact .swapDown found (Bool.and_eq_true_iff.mp up).2
      · cases changed
  | takeAllAcks path =>
      obtain ⟨p, after, found, changed, rfl⟩ := onPath_eq_some taken
      split at changed
      · rename_i free
        cases changed
        exact .takeAllAcks found free.1 free.2
      · cases changed
  | removePath path =>
      obtain ⟨p, after, found, changed, rfl⟩ := onPath_eq_some taken
      split at changed
      · rename_i acks phase
        cases changed
        exact .removePath found phase
      · cases changed
  | takeAgain path =>
      obtain ⟨p, after, found, changed, rfl⟩ := onPath_eq_some taken
      split at changed
      · rename_i acks phase free
        cases changed
        exact .takeAgain found phase free
      · cases changed
  | finalTake path =>
      obtain ⟨p, after, found, changed, rfl⟩ := onPath_eq_some taken
      split at changed
      · rename_i free
        obtain ⟨_, failed, running, unlocked, guard⟩ := free
        cases changed
        exact .finalTake found failed running unlocked guard
      · cases changed
  | flushFailed path =>
      obtain ⟨p, after, found, changed, rfl⟩ := onPath_eq_some taken
      split at changed
      · rename_i free
        cases changed
        exact .flushFailed found free.1 free.2.1 free.2.2
      · cases changed
  | pickRetry path mover alt =>
      simp only [AckRelay.step] at taken
      split at taken
      · rename_i picks
        obtain ⟨p, handover, after, found, running, moved, rfl⟩ := onHandover_eq_some taken
        split at moved
        · cases moved
          exact .picked found running
        · cases moved
          exact .unpicked found running picks
        · cases moved
      · cases taken
  | getPath path mover =>
      obtain ⟨p, handover, after, found, running, moved, rfl⟩ := onHandover_eq_some taken
      split at moved
      · rename_i alt stage
        split at moved
        · cases moved
          exact .gotPath found running
        · rename_i unlisted
          cases moved
          exact .lostPath found running stage (Bool.eq_false_of_not_eq_true unlisted)
      · cases moved
  | mergeAck path mover index =>
      obtain ⟨p, handover, alt, a, q, again, found, running, stage, listed, target, free,
        foundAgain, rfl⟩ := mergeInto_eq_some taken
      exact .mergeAck found running stage listed target free foundAgain

/-! ## The paths of a session -/

def Agrees (s : AckRelay) (session : Session) : Prop :=
  ∀ path, session.aliveAt path = (s.paths.get? path).any RelayPath.eligible

theorem Agrees.mayPick {s : AckRelay} {session : Session} (agrees : s.Agrees session)
    (cfg : SessionConfig) (path : Nat) : s.mayPick path (session.pickRetry cfg path) = true := by
  cases picked : session.pickRetryTried cfg [path] with
  | some alt =>
      obtain ⟨alive, moved⟩ := Session.pickRetryTried_spec picked
      have here : session.pickRetry cfg path = some alt := picked
      rw [here, AckRelay.mayPick, ← agrees alt, alive, Bool.and_true, bne_iff_ne]
      exact fun same => moved (congrArg some same.symm)
  | none =>
      have here : session.pickRetry cfg path = none := picked
      rw [here, AckRelay.mayPick, List.all_eq_true]
      rintro ⟨other, p⟩ membership
      by_cases same : other = path
      · simp [same]
      · have eligible : session.aliveAt other = p.eligible := by
          rw [agrees other, OrdMap.get?_eq_some_iff.mpr membership, Option.any_some]
        have dead : session.aliveAt other = false := by
          by_contra alive
          have found : (session.pickRetryTried cfg [path]).isSome = true :=
            Session.pickRetryTried_isSome (Bool.not_eq_false _ ▸ alive) fun last =>
              same (Option.some.inj last).symm
          rw [picked] at found
          cases found
        rw [← eligible, dead]
        simp

end AckRelay

end NyaLink
