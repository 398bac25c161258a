import NyaLink.Library.Machine
import NyaLink.Hop.Copy

/-!
# The copier, poll by poll

`DirState::poll` and `CopyTimed::poll` as they go from one I/O call to the next.
The answers of reader and writer are arbitrary; a poll ends with the first
`Pending`, and the next one makes the same call again.
-/

namespace NyaLink.Poll

inductive WaitOn where
  | read
  | write
  deriving DecidableEq, Repr

structure DirCopy where
  bytes : Nat
  readWaitUs : Nat
  writeWaitUs : Nat
  droppedBytes : Nat
  deriving DecidableEq, Repr

structure CopyOutcome where
  aToB : DirCopy
  bToA : DirCopy
  reaped : Bool
  deriving DecidableEq, Repr

/-- An error of an I/O call, or `WriteZero`. -/
inductive CopyError (E : Type) where
  | io (e : E)
  | writeZero
  deriving DecidableEq, Repr

/-- What a writer was made to do. -/
inductive SinkOp where
  | wrote (bytes : Bytes)
  | flushed
  | shutdown
  deriving DecidableEq, Repr

def SinkOp.bytes : SinkOp → Bytes
  | .wrote bytes => bytes
  | .flushed => []
  | .shutdown => []

/-- One direction.  `source`, `lost` and `sink` are history: what was read, what was dropped,
and the calls its writer completed. -/
structure DirState where
  buf : Bytes
  pos : Nat
  cap : Nat
  readDone : Bool
  needFlush : Bool
  shuttingDown : Bool
  done : Bool
  out : DirCopy
  wait : Option (Nat × WaitOn)
  source : Bytes
  lost : Bytes
  sink : List SinkOp
  deriving DecidableEq, Repr

/-- What an I/O call answers. -/
inductive Answer (E : Type) where
  | pending
  | failed (e : E)
  /-- `poll_read` has filled in these bytes. -/
  | data (bytes : Bytes)
  /-- `poll_write` has taken so many. -/
  | count (n : Nat)
  /-- `poll_flush` or `poll_shutdown` is through. -/
  | finished
  deriving DecidableEq, Repr

/-- How the poll of a direction goes on after an answer. -/
inductive Polled (E : Type) where
  /-- With its next call; `idleFlush` for the flush after a read that is pending. -/
  | again (idleFlush : Bool)
  | pending
  | ready
  | failed (e : CopyError E)
  deriving DecidableEq, Repr

namespace DirState

def new : DirState where
  buf := List.replicate copyBuf 0
  pos := 0
  cap := 0
  readDone := false
  needFlush := false
  shuttingDown := false
  done := false
  out := ⟨0, 0, 0, 0⟩
  wait := none
  source := []
  lost := []
  sink := []

def pending (d : DirState) (now : Nat) (waits : WaitOn) : DirState :=
  if d.wait.isNone then { d with wait := some (now, waits) } else d

def ready (d : DirState) (now : Nat) : DirState :=
  match d.wait with
  | some (t, .read) =>
      { d with wait := none, out := { d.out with readWaitUs := d.out.readWaitUs + (now - t) } }
  | some (t, .write) =>
      { d with wait := none, out := { d.out with writeWaitUs := d.out.writeWaitUs + (now - t) } }
  | none => d

/-- `buf[pos..cap]`. -/
def held (d : DirState) : Bytes := (d.buf.take d.cap).drop d.pos

def written (d : DirState) : Bytes := d.sink.flatMap SinkOp.bytes

/-- `poll_shutdown`. -/
def answerShutdown {E : Type} (d : DirState) : Answer E → Option (DirState × Polled E)
  | .pending => some (d, .pending)
  | .failed e => some (d, .failed (.io e))
  | .finished => some ({ d with done := true, sink := d.sink ++ [.shutdown] }, .ready)
  | _ => none

/-- `poll_read`: the answer goes to the front of the buffer. -/
def answerRead {E : Type} (d : DirState) (now : Nat) : Answer E → Option (DirState × Polled E)
  | .pending => some (if d.needFlush then (d, .again true) else (d.pending now .read, .pending))
  | .failed e => some (d, .failed (.io e))
  | .data bytes =>
      if bytes.length ≤ copyBuf then
        let d := d.ready now
        some (if bytes.length = 0 then { d with readDone := true }
          else { d with
            buf := bytes ++ d.buf.drop bytes.length
            pos := 0
            cap := bytes.length
            source := d.source ++ bytes }, .again false)
      else none
  | _ => none

def answerIdleFlush {E : Type} (d : DirState) (now : Nat) :
    Answer E → Option (DirState × Polled E)
  | .pending => some (d, .pending)
  | .failed e => some (d, .failed (.io e))
  | .finished =>
      let d : DirState := { d with needFlush := false, sink := d.sink ++ [.flushed] }
      some (d.pending now .read, .pending)
  | _ => none

/-- `poll_write`, which takes no more than it was offered. -/
def answerWrite {E : Type} (d : DirState) (now : Nat) : Answer E → Option (DirState × Polled E)
  | .pending => some (d.pending now .write, .pending)
  | .failed e => some (d, .failed (.io e))
  | .count n =>
      if n = 0 then some (d, .failed .writeZero)
      else if n ≤ d.held.length then
        let d := d.ready now
        some ({ d with
          pos := d.pos + n
          out := { d.out with bytes := d.out.bytes + n }
          needFlush := true
          sink := d.sink ++ [.wrote (d.held.take n)] }, .again false)
      else none
  | _ => none

def answerFlush {E : Type} (d : DirState) : Answer E → Option (DirState × Polled E)
  | .pending => some (d, .pending)
  | .failed e => some (d, .failed (.io e))
  | .finished =>
      some ({ d with needFlush := false, shuttingDown := true, sink := d.sink ++ [.flushed] },
        .again false)
  | _ => none

/-- The call that `poll` makes next, and what it does with the answer. -/
def answer {E : Type} (d : DirState) (idleFlush : Bool) (now : Nat) (a : Answer E) :
    Option (DirState × Polled E) :=
  if d.done then none
  else if d.shuttingDown then d.answerShutdown a
  else if d.pos = d.cap ∧ d.readDone = false then
    if idleFlush then d.answerIdleFlush now a else d.answerRead now a
  else if d.pos < d.cap then d.answerWrite now a
  else d.answerFlush a

def cut (d : DirState) (now : Nat) : DirState :=
  let d := d.ready now
  { d with
    out := { d.out with droppedBytes := d.out.droppedBytes + (d.cap - d.pos) }
    pos := d.cap
    readDone := true
    lost := d.lost ++ d.held }

end DirState

/-- Where the task is: between two polls, or at a call of a direction. -/
inductive PollPoint where
  | idle
  | ab (idleFlush : Bool)
  | ba (idleFlush abReady : Bool)
  deriving DecidableEq, Repr

/-- `CopyTimed`.  `gone` says that the signal is still to come; `baCalls` is history: the answers
to the calls of `b` to `a`. -/
structure CopyTimed (E : Type) where
  ab : DirState
  ba : DirState
  gone : Bool
  reaped : Bool
  point : PollPoint
  result : Option (Except (CopyError E) CopyOutcome)
  baCalls : List (Bool × Nat × Answer E)
  deriving DecidableEq

inductive CopyAction (E : Type) where
  /-- The task is polled; `gone` says that the signal has come. -/
  | poll (gone : Bool) (now : Nat)
  | answer (now : Nat) (a : Answer E)
  deriving DecidableEq

namespace CopyTimed

variable {E : Type}

/-- With the signal for `copy_bidirectional_timed_until`, else `copy_bidirectional_timed`. -/
def new (withGone : Bool) : CopyTimed E :=
  ⟨.new, .new, withGone, false, .idle, none, []⟩

/-- `gone` is ready: `a` to `b` is as at the end of file, unless it is already. -/
def noticeGone (c : CopyTimed E) (now : Nat) : CopyTimed E :=
  if c.ab.readDone then { c with gone := false }
  else { c with gone := false, ab := c.ab.cut now, reaped := true }

def finish (c : CopyTimed E) (abReady baReady : Bool) : CopyTimed E :=
  if abReady && baReady then
    { c with point := .idle, result := some (.ok ⟨c.ab.out, c.ba.out, c.reaped⟩) }
  else { c with point := .idle }

def pollBa (c : CopyTimed E) (abReady : Bool) : CopyTimed E :=
  if c.ba.done then c.finish abReady true else { c with point := .ba false abReady }

def pollAb (c : CopyTimed E) : CopyTimed E :=
  if c.ab.done then c.pollBa true else { c with point := .ab false }

def fail (c : CopyTimed E) (e : CopyError E) : CopyTimed E :=
  { c with point := .idle, result := some (.error e) }

def afterAb (c : CopyTimed E) : Polled E → CopyTimed E
  | .again idleFlush => { c with point := .ab idleFlush }
  | .pending => c.pollBa false
  | .ready => c.pollBa true
  | .failed e => c.fail e

def afterBa (c : CopyTimed E) (abReady : Bool) : Polled E → CopyTimed E
  | .again idleFlush => { c with point := .ba idleFlush abReady }
  | .pending => c.finish abReady false
  | .ready => c.finish abReady true
  | .failed e => c.fail e

def step (c : CopyTimed E) : CopyAction E → Option (CopyTimed E)
  | .poll gone now =>
      if c.point = .idle ∧ c.result.isNone then
        some (if c.gone && gone then c.noticeGone now else c).pollAb
      else none
  | .answer now a =>
      match c.point with
      | .idle => none
      | .ab idleFlush =>
          (c.ab.answer idleFlush now a).map fun (ab, polled) => { c with ab := ab }.afterAb polled
      | .ba idleFlush abReady =>
          (c.ba.answer idleFlush now a).map fun (ba, polled) =>
            { c with ba := ba, baCalls := c.baCalls ++ [(idleFlush, now, a)] }.afterBa abReady
              polled

def machine (E : Type) (withGone : Bool) : Machine (CopyTimed E) (CopyAction E) where
  initial c := c = .new withGone
  step := step

end CopyTimed

/-! ## What an answer does to a direction -/

namespace DirState

def timed (d : DirState) (wait : Option (Nat × WaitOn)) (readUs writeUs : Nat) : DirState :=
  { d with wait := wait, out := { d.out with readWaitUs := readUs, writeWaitUs := writeUs } }

theorem pending_eq_timed (d : DirState) (now : Nat) (waits : WaitOn) :
    ∃ wait readUs writeUs, d.pending now waits = d.timed wait readUs writeUs := by
  simp only [pending]
  split_ifs
  · exact ⟨some (now, waits), d.out.readWaitUs, d.out.writeWaitUs, rfl⟩
  · exact ⟨d.wait, d.out.readWaitUs, d.out.writeWaitUs, rfl⟩

theorem ready_eq_timed (d : DirState) (now : Nat) :
    ∃ wait readUs writeUs, d.ready now = d.timed wait readUs writeUs := by
  simp only [ready]
  split
  · exact ⟨none, _, _, rfl⟩
  · exact ⟨none, _, _, rfl⟩
  · exact ⟨d.wait, d.out.readWaitUs, d.out.writeWaitUs, rfl⟩

/-- The books of a direction: every byte read was written, was dropped, or is held, in this
order, and what its writer was made to do is what its flags say. -/
structure Sound (d : DirState) : Prop where
  size : d.buf.length = copyBuf
  pos_le : d.pos ≤ d.cap
  cap_le : d.cap ≤ copyBuf
  conserved : d.source = d.written ++ d.lost ++ d.held
  writtenCount : d.out.bytes = d.written.length
  lostCount : d.out.droppedBytes = d.lost.length
  lostLast : d.lost ≠ [] → d.readDone = true ∧ d.pos = d.cap
  drained : d.shuttingDown = true → d.readDone = true ∧ d.pos = d.cap
  shutting : d.done = true → d.shuttingDown = true
  notShut : d.shuttingDown = false → .shutdown ∉ d.sink
  flushed : d.shuttingDown = true → d.done = false →
    ∃ ops, d.sink = ops ++ [.flushed] ∧ .shutdown ∉ ops
  ended : d.done = true → ∃ ops, d.sink = ops ++ [.flushed, .shutdown] ∧ .shutdown ∉ ops

theorem sound_new : DirState.new.Sound where
  size := List.length_replicate
  pos_le := Nat.le_refl _
  cap_le := Nat.zero_le _
  conserved := rfl
  writtenCount := rfl
  lostCount := rfl
  lostLast := fun some => absurd rfl some
  drained := fun impossible => by cases impossible
  shutting := fun impossible => by cases impossible
  notShut := fun _ => List.not_mem_nil
  flushed := fun impossible => by cases impossible
  ended := fun impossible => by cases impossible

theorem Sound.timed {d : DirState} (sound : d.Sound) (wait : Option (Nat × WaitOn))
    (readUs writeUs : Nat) : (d.timed wait readUs writeUs).Sound :=
  ⟨sound.size, sound.pos_le, sound.cap_le, sound.conserved, sound.writtenCount, sound.lostCount,
    sound.lostLast, sound.drained, sound.shutting, sound.notShut, sound.flushed, sound.ended⟩

theorem Sound.pending {d : DirState} (sound : d.Sound) (now : Nat) (waits : WaitOn) :
    (d.pending now waits).Sound := by
  obtain ⟨wait, readUs, writeUs, same⟩ := pending_eq_timed d now waits
  rw [same]
  exact sound.timed wait readUs writeUs

theorem Sound.ready {d : DirState} (sound : d.Sound) (now : Nat) : (d.ready now).Sound := by
  obtain ⟨wait, readUs, writeUs, same⟩ := ready_eq_timed d now
  rw [same]
  exact sound.timed wait readUs writeUs

theorem ready_place (d : DirState) (now : Nat) :
    (d.ready now).pos = d.pos ∧ (d.ready now).cap = d.cap ∧
      (d.ready now).readDone = d.readDone ∧ (d.ready now).held = d.held := by
  obtain ⟨wait, readUs, writeUs, same⟩ := ready_eq_timed d now
  rw [same]
  exact ⟨rfl, rfl, rfl, rfl⟩

theorem length_held {d : DirState} (sound : d.Sound) : d.held.length = d.cap - d.pos := by
  rw [held, List.length_drop, List.length_take, sound.size, Nat.min_eq_left sound.cap_le]

theorem held_eq_nil {d : DirState} (empty : d.pos = d.cap) : d.held = [] := by
  rw [held, empty]
  exact List.drop_eq_nil_of_le (List.length_take_le _ _)

theorem Sound.lost_eq_nil {d : DirState} (sound : d.Sound)
    (notAll : d.readDone = false ∨ d.pos < d.cap) : d.lost = [] := by
  by_contra some
  obtain ⟨readDone, empty⟩ := sound.lostLast some
  rcases notAll with unread | waiting
  · rw [readDone] at unread
    cases unread
  · exact absurd empty (Nat.ne_of_lt waiting)

theorem written_append (ops : List SinkOp) (op : SinkOp) :
    (ops ++ [op]).flatMap SinkOp.bytes = ops.flatMap SinkOp.bytes ++ op.bytes := by
  simp only [List.flatMap_append, List.flatMap_cons, List.flatMap_nil, List.append_nil]

theorem Sound.answeredQuietly {d : DirState} (sound : d.Sound) (op : SinkOp)
    (quiet : op.bytes = []) :
    d.source = (d.sink ++ [op]).flatMap SinkOp.bytes ++ d.lost ++ d.held ∧
      d.out.bytes = ((d.sink ++ [op]).flatMap SinkOp.bytes).length := by
  rw [written_append, quiet, List.append_nil]
  exact ⟨sound.conserved, sound.writtenCount⟩

section Answers

variable {E : Type} {d after : DirState} {polled : Polled E} {now : Nat} {a : Answer E}

theorem Sound.answerShutdown (sound : d.Sound) (shutting : d.shuttingDown = true)
    (going : d.done = false) (taken : d.answerShutdown a = some (after, polled)) :
    after.Sound := by
  cases a with
  | pending =>
      cases taken
      exact sound
  | failed e =>
      cases taken
      exact sound
  | finished =>
      cases taken
      obtain ⟨ops, sink, notShut⟩ := sound.flushed shutting going
      obtain ⟨conserved, counted⟩ := sound.answeredQuietly .shutdown rfl
      refine ⟨sound.size, sound.pos_le, sound.cap_le, conserved, counted, sound.lostCount,
        sound.lostLast, sound.drained, fun _ => shutting, fun notShutting => ?_,
        fun _ impossible => ?_, fun _ => ?_⟩
      · rw [shutting] at notShutting
        cases notShutting
      · cases impossible
      · exact ⟨ops, by simp only [sink, List.append_assoc, List.singleton_append], notShut⟩
  | data bytes => cases taken
  | count n => cases taken

theorem Sound.answerRead (sound : d.Sound) (empty : d.pos = d.cap) (reading : d.readDone = false)
    (taken : d.answerRead now a = some (after, polled)) : after.Sound := by
  cases a with
  | pending =>
      simp only [DirState.answerRead, Option.some.injEq] at taken
      split_ifs at taken
      · cases taken
        exact sound
      · cases taken
        exact sound.pending now .read
  | failed e =>
      cases taken
      exact sound
  | data bytes =>
      have sound := sound.ready now
      obtain ⟨pos, cap, readDone, -⟩ := ready_place d now
      rw [← pos, ← cap] at empty
      rw [← readDone] at reading
      simp only [DirState.answerRead, Option.ite_none_right_eq_some, Option.some.injEq,
        Prod.mk.injEq] at taken
      obtain ⟨fits, rfl, -⟩ := taken
      generalize d.ready now = d at sound empty reading ⊢
      split_ifs with nothing
      · exact ⟨sound.size, sound.pos_le, sound.cap_le, sound.conserved, sound.writtenCount,
          sound.lostCount, fun _ => ⟨rfl, empty⟩, fun _ => ⟨rfl, empty⟩, sound.shutting,
          sound.notShut, sound.flushed, sound.ended⟩
      · have nothingLost := sound.lost_eq_nil (.inl reading)
        have notDrained : d.shuttingDown ≠ true := fun shutting => by
          have drained := (sound.drained shutting).1
          rw [reading] at drained
          cases drained
        refine ⟨?_, Nat.zero_le _, fits, ?_, sound.writtenCount, sound.lostCount,
          fun some => absurd nothingLost some, fun shutting => absurd shutting notDrained,
          sound.shutting, sound.notShut, sound.flushed, sound.ended⟩
        · have size := sound.size
          simp only [List.length_append, List.length_drop]
          omega
        · have before := sound.conserved
          simp only [held_eq_nil empty, nothingLost, List.append_nil] at before
          simp only [DirState.held, DirState.written, nothingLost, List.append_nil,
            List.drop_zero, List.take_left]
          exact congrArg (· ++ bytes) before
  | finished => cases taken
  | count n => cases taken

theorem Sound.answerIdleFlush (sound : d.Sound) (notShutting : d.shuttingDown = false)
    (taken : d.answerIdleFlush now a = some (after, polled)) : after.Sound := by
  cases a with
  | pending =>
      cases taken
      exact sound
  | failed e =>
      cases taken
      exact sound
  | finished =>
      simp only [DirState.answerIdleFlush, Option.some.injEq, Prod.mk.injEq] at taken
      obtain ⟨rfl, -⟩ := taken
      obtain ⟨conserved, counted⟩ := sound.answeredQuietly .flushed rfl
      have flushed : Sound { d with needFlush := false, sink := d.sink ++ [.flushed] } := by
        refine ⟨sound.size, sound.pos_le, sound.cap_le, conserved, counted, sound.lostCount,
          sound.lostLast, sound.drained, sound.shutting, fun going => ?_, fun shutting => ?_,
          fun done => ?_⟩
        · simpa only [List.mem_append, List.mem_singleton, reduceCtorEq, or_false] using
            sound.notShut going
        · rw [notShutting] at shutting
          cases shutting
        · rw [sound.shutting done] at notShutting
          cases notShutting
      exact flushed.pending now .read
  | data bytes => cases taken
  | count n => cases taken

theorem Sound.answerFlush (sound : d.Sound) (empty : d.pos = d.cap) (readDone : d.readDone = true)
    (notShutting : d.shuttingDown = false) (taken : d.answerFlush a = some (after, polled)) :
    after.Sound := by
  cases a with
  | pending =>
      cases taken
      exact sound
  | failed e =>
      cases taken
      exact sound
  | finished =>
      cases taken
      obtain ⟨conserved, counted⟩ := sound.answeredQuietly .flushed rfl
      refine ⟨sound.size, sound.pos_le, sound.cap_le, conserved, counted, sound.lostCount,
        sound.lostLast, fun _ => ⟨readDone, empty⟩, fun _ => rfl, fun impossible => ?_,
        fun _ _ => ⟨d.sink, rfl, sound.notShut notShutting⟩, fun done => ?_⟩
      · cases impossible
      · rw [sound.shutting done] at notShutting
        cases notShutting
  | data bytes => cases taken
  | count n => cases taken

theorem Sound.answerWrite (sound : d.Sound) (waiting : d.pos < d.cap)
    (taken : d.answerWrite now a = some (after, polled)) : after.Sound := by
  cases a with
  | pending =>
      cases taken
      exact sound.pending now .write
  | failed e =>
      cases taken
      exact sound
  | count n =>
      have sound := sound.ready now
      obtain ⟨pos, cap, -, held⟩ := ready_place d now
      rw [← pos, ← cap] at waiting
      simp only [DirState.answerWrite, ← held] at taken
      split_ifs at taken with zero fits
      · cases taken
        assumption
      · cases taken
        generalize d.ready now = d at sound waiting fits ⊢
        have nothingLost := sound.lost_eq_nil (.inr waiting)
        have notDrained : d.shuttingDown ≠ true := fun shutting =>
          absurd (sound.drained shutting).2 (Nat.ne_of_lt waiting)
        have within : d.pos + n ≤ d.cap := by
          rw [length_held sound] at fits
          omega
        refine ⟨sound.size, within, sound.cap_le, ?_, ?_, sound.lostCount,
          fun some => absurd nothingLost some, fun shutting => absurd shutting notDrained,
          sound.shutting, fun going => ?_, fun shutting => absurd shutting notDrained,
          fun done => absurd (sound.shutting done) notDrained⟩
        · have rest : (d.buf.take d.cap).drop (d.pos + n) = d.held.drop n := by
            rw [DirState.held, List.drop_drop]
          have before := sound.conserved
          simp only [DirState.written, written_append, SinkOp.bytes, nothingLost,
            List.append_nil] at before ⊢
          rw [before, List.append_assoc]
          refine congrArg (_ ++ ·) ?_
          exact (List.take_append_drop n d.held).symm.trans (congrArg (_ ++ ·) rest.symm)
        · simp only [DirState.written, written_append, SinkOp.bytes, List.length_append,
            List.length_take, Nat.min_eq_left fits]
          exact congrArg (· + n) sound.writtenCount
        · simpa only [List.mem_append, List.mem_singleton, reduceCtorEq, or_false] using
            sound.notShut going
  | finished => cases taken
  | data bytes => cases taken

theorem Sound.answer (sound : d.Sound) {idleFlush : Bool}
    (taken : d.answer idleFlush now a = some (after, polled)) : after.Sound := by
  simp only [DirState.answer] at taken
  split_ifs at taken with done shutting reading idle waiting
  · exact sound.answerShutdown shutting (Bool.eq_false_iff.mpr done) taken
  · exact sound.answerIdleFlush (Bool.eq_false_iff.mpr shutting) taken
  · exact sound.answerRead reading.1 reading.2 taken
  · exact sound.answerWrite waiting taken
  · have empty : d.pos = d.cap := Nat.le_antisymm sound.pos_le (Nat.le_of_not_lt waiting)
    have readDone : d.readDone = true := by
      simpa only [empty, true_and, Bool.not_eq_false] using reading
    exact sound.answerFlush empty readDone (Bool.eq_false_iff.mpr shutting) taken

theorem Sound.cut (sound : d.Sound) (reading : d.readDone = false) (now : Nat) :
    (d.cut now).Sound := by
  have sound := sound.ready now
  obtain ⟨-, -, readDone, -⟩ := ready_place d now
  rw [← readDone] at reading
  simp only [DirState.cut]
  generalize d.ready now = d at sound reading
  have nothingLost := sound.lost_eq_nil (.inl reading)
  refine ⟨sound.size, Nat.le_refl _, sound.cap_le, ?_, sound.writtenCount, ?_,
    fun _ => ⟨rfl, rfl⟩, fun _ => ⟨rfl, rfl⟩, sound.shutting, sound.notShut, sound.flushed,
    sound.ended⟩
  · have none : DirState.held { d with pos := d.cap } = [] := held_eq_nil rfl
    have before := sound.conserved
    simp only [DirState.held, DirState.written] at none before ⊢
    rw [none, List.append_nil, before, List.append_assoc]
  · simp only [List.length_append, length_held sound]
    exact congrArg (· + _) sound.lostCount

theorem lost_answer {idleFlush : Bool}
    (taken : d.answer idleFlush now a = some (after, polled)) : after.lost = d.lost := by
  obtain ⟨_, _, _, ready⟩ := ready_eq_timed d now
  obtain ⟨_, _, _, noData⟩ := pending_eq_timed d now .read
  obtain ⟨_, _, _, full⟩ := pending_eq_timed d now .write
  simp only [answer] at taken
  split_ifs at taken
  · cases a <;> cases taken <;> rfl
  · cases a <;> cases taken
    · rfl
    · rfl
    · obtain ⟨_, _, _, idle⟩ := pending_eq_timed
        { d with needFlush := false, sink := d.sink ++ [.flushed] } now .read
      rw [idle]
      rfl
  · cases a with
    | pending =>
        simp only [answerRead, noData, Option.some.injEq] at taken
        split_ifs at taken <;> cases taken <;> rfl
    | failed e =>
        cases taken
        rfl
    | data bytes =>
        simp only [answerRead, ready, Option.ite_none_right_eq_some, Option.some.injEq,
          Prod.mk.injEq] at taken
        obtain ⟨-, rfl, -⟩ := taken
        split_ifs <;> rfl
    | count n => cases taken
    | finished => cases taken
  · cases a with
    | pending =>
        simp only [answerWrite, full, Option.some.injEq, Prod.mk.injEq] at taken
        rw [← taken.1]
        rfl
    | failed e =>
        cases taken
        rfl
    | count n =>
        simp only [answerWrite, ready] at taken
        split_ifs at taken <;> cases taken <;> rfl
    | data bytes => cases taken
    | finished => cases taken
  · cases a <;> cases taken <;> rfl

theorem done_of_ready {idleFlush : Bool} (taken : d.answer idleFlush now a = some (after, .ready)) :
    after.done = true := by
  simp only [answer] at taken
  split_ifs at taken
  · cases a <;> cases taken
    rfl
  · cases a <;> cases taken
  · cases a with
    | pending =>
        simp only [answerRead, Option.some.injEq] at taken
        split_ifs at taken <;> cases taken
    | data bytes =>
        simp only [answerRead, Option.ite_none_right_eq_some, Option.some.injEq, Prod.mk.injEq,
          reduceCtorEq, and_false] at taken
    | failed e => cases taken
    | count n => cases taken
    | finished => cases taken
  · cases a with
    | count n =>
        simp only [answerWrite] at taken
        split_ifs at taken <;> cases taken
    | pending => cases taken
    | failed e => cases taken
    | data bytes => cases taken
    | finished => cases taken
  · cases a <;> cases taken

end Answers

def replay {E : Type} : DirState → List (Bool × Nat × Answer E) → Option DirState
  | d, [] => some d
  | d, (idleFlush, now, a) :: rest =>
      (d.answer idleFlush now a).bind fun (after, _) => replay after rest

theorem replay_append {E : Type} {calls : List (Bool × Nat × Answer E)} {start d after : DirState}
    {idleFlush : Bool} {now : Nat} {a : Answer E} {polled : Polled E}
    (replayed : replay start calls = some d)
    (taken : d.answer idleFlush now a = some (after, polled)) :
    replay start (calls ++ [(idleFlush, now, a)]) = some after := by
  induction calls generalizing start with
  | nil =>
      obtain rfl : start = d := Option.some.inj replayed
      simp only [List.nil_append, replay, taken, Option.bind_some]
  | cons call rest inductionHypothesis =>
      obtain ⟨flush, at_, first⟩ := call
      obtain ⟨⟨next, polled⟩, answered, later⟩ := Option.bind_eq_some_iff.mp replayed
      simp only [List.cons_append, replay, answered, Option.bind_some]
      exact inductionHypothesis later

/-- Every byte read is accounted for, and what was written comes first. -/
structure Conserved (d : DirState) : Prop where
  fromSource : d.written <+: d.source
  counted : d.source.length = d.written.length + (d.cap - d.pos) + d.out.droppedBytes
  bytes : d.out.bytes = d.written.length

theorem Sound.accounted {d : DirState} (sound : d.Sound) : d.Conserved where
  fromSource := ⟨d.lost ++ d.held, by rw [sound.conserved, List.append_assoc]⟩
  counted := by
    rw [sound.conserved, List.length_append, List.length_append, length_held sound,
      sound.lostCount, Nat.add_right_comm]
  bytes := sound.writtenCount

def ShutOnce (d : DirState) : Prop :=
  ∃ ops, d.sink = ops ++ [.flushed, .shutdown] ∧ .shutdown ∉ ops

theorem Sound.written_eq_source {d : DirState} (sound : d.Sound) (done : d.done = true)
    (nothingLost : d.lost = []) : d.written = d.source := by
  have drained := sound.drained (sound.shutting done)
  rw [sound.conserved, nothingLost, held_eq_nil drained.2, List.append_nil, List.append_nil]

end DirState

/-! ## Both directions -/

namespace CopyTimed

variable {E : Type}

/-- The books of both directions; what `b` to `a` did was up to its own calls. -/
structure Books (c : CopyTimed E) : Prop where
  ab : c.ab.Sound
  ba : c.ba.Sound
  abLost : c.reaped = false → c.ab.lost = []
  baLost : c.ba.lost = []
  baOwn : DirState.replay .new c.baCalls = some c.ba

structure Sound (c : CopyTimed E) : Prop extends c.Books where
  going : c.point ≠ .idle → c.result = none
  abReady : ∀ idleFlush, c.point = .ba idleFlush true → c.ab.done = true
  ended : ∀ outcome, c.result = some (.ok outcome) →
    c.ab.done = true ∧ c.ba.done = true ∧ outcome = ⟨c.ab.out, c.ba.out, c.reaped⟩

theorem sound_new (withGone : Bool) : (new withGone : CopyTimed E).Sound where
  ab := DirState.sound_new
  ba := DirState.sound_new
  abLost := fun _ => rfl
  baLost := rfl
  baOwn := rfl
  going := fun _ => rfl
  abReady := fun _ impossible => by cases impossible
  ended := fun _ impossible => by cases impossible

section Going

variable {c : CopyTimed E} (books : c.Books) (going : c.result = none)
include books going

theorem Books.at (point : PollPoint)
    (abReady : ∀ idleFlush, point = .ba idleFlush true → c.ab.done = true) :
    Sound { c with point := point } :=
  ⟨⟨books.ab, books.ba, books.abLost, books.baLost, books.baOwn⟩, fun _ => going, abReady,
    fun _ ended => by rw [going] at ended; cases ended⟩

theorem Books.finish {abReady baReady : Bool} (abDone : abReady = true → c.ab.done = true)
    (baDone : baReady = true → c.ba.done = true) : (c.finish abReady baReady).Sound := by
  simp only [CopyTimed.finish]
  split_ifs with both
  · simp only [Bool.and_eq_true] at both
    refine ⟨⟨books.ab, books.ba, books.abLost, books.baLost, books.baOwn⟩,
      fun running => absurd rfl running, fun _ impossible => (by cases impossible),
      fun outcome ended => ?_⟩
    cases ended
    exact ⟨abDone both.1, baDone both.2, rfl⟩
  · exact books.at going .idle fun _ impossible => by cases impossible

theorem Books.pollBa {abReady : Bool} (abDone : abReady = true → c.ab.done = true) :
    (c.pollBa abReady).Sound := by
  simp only [CopyTimed.pollBa]
  split_ifs with baDone
  · exact books.finish going abDone fun _ => baDone
  · refine books.at going _ fun idleFlush same => abDone ?_
    simp only [PollPoint.ba.injEq] at same
    exact same.2

theorem Books.pollAb : c.pollAb.Sound := by
  simp only [CopyTimed.pollAb]
  split_ifs with abDone
  · exact books.pollBa going fun _ => abDone
  · exact books.at going _ fun _ impossible => by cases impossible

omit going in
theorem Books.fail (e : CopyError E) : (c.fail e).Sound :=
  ⟨⟨books.ab, books.ba, books.abLost, books.baLost, books.baOwn⟩,
    fun running => absurd rfl running, fun _ impossible => (by cases impossible),
    fun _ impossible => by cases impossible⟩

theorem Books.afterAb {polled : Polled E} (abDone : polled = .ready → c.ab.done = true) :
    (c.afterAb polled).Sound := by
  cases polled with
  | again idleFlush => exact books.at going _ fun _ impossible => by cases impossible
  | pending => exact books.pollBa going fun impossible => by cases impossible
  | ready => exact books.pollBa going fun _ => abDone rfl
  | failed e => exact books.fail e

theorem Books.afterBa {abReady : Bool} {polled : Polled E}
    (abDone : abReady = true → c.ab.done = true) (baDone : polled = .ready → c.ba.done = true) :
    (c.afterBa abReady polled).Sound := by
  cases polled with
  | again idleFlush =>
      refine books.at going _ fun _ same => abDone ?_
      simp only [PollPoint.ba.injEq] at same
      exact same.2
  | pending => exact books.finish going abDone fun impossible => by cases impossible
  | ready => exact books.finish going abDone fun _ => baDone rfl
  | failed e => exact books.fail e

end Going

theorem Books.noticeGone {c : CopyTimed E} (books : c.Books) (now : Nat) :
    (c.noticeGone now).Books := by
  simp only [CopyTimed.noticeGone]
  split_ifs with readDone
  · exact ⟨books.ab, books.ba, books.abLost, books.baLost, books.baOwn⟩
  · exact ⟨books.ab.cut (Bool.eq_false_iff.mpr readDone) now, books.ba,
      fun impossible => (by cases impossible), books.baLost, books.baOwn⟩

theorem sound_step {c next : CopyTimed E} {action : CopyAction E} (sound : c.Sound)
    (taken : c.step action = some next) : next.Sound := by
  cases action with
  | poll gone now =>
      simp only [step, Option.ite_none_right_eq_some, Option.isNone_iff_eq_none,
        Option.some.injEq] at taken
      obtain ⟨⟨-, going⟩, rfl⟩ := taken
      split_ifs
      · refine (sound.toBooks.noticeGone now).pollAb ?_
        simp only [noticeGone]
        split_ifs <;> exact going
      · exact sound.toBooks.pollAb going
  | answer now a =>
      simp only [step] at taken
      split at taken
      · cases taken
      · rename_i idleFlush here
        have going : c.result = none := sound.going (by simp [here])
        obtain ⟨⟨ab, polled⟩, answered, rfl⟩ := Option.map_eq_some_iff.mp taken
        have books : Books { c with ab := ab } :=
          ⟨sound.ab.answer answered, sound.ba,
            fun notReaped => (DirState.lost_answer answered).trans (sound.abLost notReaped),
            sound.baLost, sound.baOwn⟩
        refine books.afterAb going fun ready => ?_
        obtain rfl : polled = .ready := ready
        exact DirState.done_of_ready answered
      · rename_i idleFlush abReady here
        have going : c.result = none := sound.going (by simp [here])
        obtain ⟨⟨ba, polled⟩, answered, rfl⟩ := Option.map_eq_some_iff.mp taken
        have books : Books { c with
            ba := ba
            baCalls := c.baCalls ++ [(idleFlush, now, a)] } :=
          ⟨sound.ab, sound.ba.answer answered, sound.abLost,
            (DirState.lost_answer answered).trans sound.baLost,
            DirState.replay_append sound.baOwn answered⟩
        refine books.afterBa going (fun abDone => ?_) fun ready => ?_
        · exact sound.abReady idleFlush (by rw [here, abDone])
        · obtain rfl : polled = .ready := ready
          exact DirState.done_of_ready answered

theorem sound_of_reachable {withGone : Bool} {c : CopyTimed E}
    (reachable : (machine E withGone).Reachable c) : c.Sound := by
  refine Machine.Reachable.invariant Sound ?_ ?_ reachable
  · rintro c rfl
    exact sound_new withGone
  · intro c action next sound taken
    exact sound_step sound taken

/-- At every moment of a copy nothing is lost but what the signal drops of `a` to `b`. -/
theorem relay_conserved {withGone : Bool} {c : CopyTimed E}
    (reachable : (machine E withGone).Reachable c) :
    c.ab.Conserved ∧ c.ba.Conserved ∧
      (c.ab.done = true → c.ab.ShutOnce ∧ (c.reaped = false → c.ab.written = c.ab.source)) ∧
      (c.ba.done = true → c.ba.ShutOnce ∧ c.ba.written = c.ba.source) ∧
      (∀ outcome, c.result = some (.ok outcome) →
        c.ab.done = true ∧ c.ba.done = true ∧ outcome = ⟨c.ab.out, c.ba.out, c.reaped⟩) ∧
      (c.ab.out.droppedBytes ≠ 0 → c.reaped = true) ∧ c.ba.out.droppedBytes = 0 ∧
      (∀ now, (c.noticeGone now).ba = c.ba ∧ (c.noticeGone now).ab.written = c.ab.written) ∧
      DirState.replay .new c.baCalls = some c.ba := by
  have sound := sound_of_reachable reachable
  refine ⟨sound.ab.accounted, sound.ba.accounted, fun done => ⟨sound.ab.ended done, ?_⟩,
    fun done => ⟨sound.ba.ended done, sound.ba.written_eq_source done sound.baLost⟩,
    sound.ended, fun dropped => ?_, ?_, fun now => ?_, sound.baOwn⟩
  · exact fun notReaped => sound.ab.written_eq_source done (sound.abLost notReaped)
  · by_contra notReaped
    have nothingLost := sound.abLost (Bool.eq_false_iff.mpr notReaped)
    exact dropped (by rw [sound.ab.lostCount, nothingLost, List.length_nil])
  · rw [sound.ba.lostCount, sound.baLost, List.length_nil]
  · simp only [noticeGone]
    split_ifs
    · exact ⟨rfl, rfl⟩
    · obtain ⟨_, _, _, ready⟩ := DirState.ready_eq_timed c.ab now
      simp only [DirState.cut, ready]
      exact ⟨trivial, rfl⟩

/-- `a` sends three bytes, of which one is written before the signal; `b` has none. -/
def reapedCopy : List (CopyAction Unit) :=
  [.poll false 10, .answer 10 (.data [1, 2, 3]), .answer 10 (.count 1), .answer 10 .pending,
    .answer 10 (.data []), .answer 11 .finished, .answer 11 .finished,
    .poll true 20, .answer 20 .finished, .answer 20 .finished]

theorem relay_conserved_reaped : ∃ c, (machine Unit true).run (.new true) reapedCopy = some c ∧
    c.result = some (.ok ⟨⟨1, 0, 10, 2⟩, ⟨0, 0, 0, 0⟩, true⟩) ∧ c.ab.Conserved ∧
    c.ab.ShutOnce ∧ c.ba.written = c.ba.source := by
  have replayed : ∃ c, (machine Unit true).run (.new true) reapedCopy = some c ∧
      c.result = some (.ok ⟨⟨1, 0, 10, 2⟩, ⟨0, 0, 0, 0⟩, true⟩) ∧ c.ab.done = true ∧
      c.ba.done = true := ⟨_, rfl, rfl, rfl, rfl⟩
  obtain ⟨c, replay, result, abDone, baDone⟩ := replayed
  have begins : (machine Unit true).Reachable (.new true) := .start rfl
  obtain ⟨conserved, -, ab, ba, -⟩ := relay_conserved (begins.run replay)
  exact ⟨c, replay, result, conserved, (ab abDone).1, (ba baDone).2⟩

end CopyTimed

end NyaLink.Poll
