import NyaLink.Proto.Frame

/-!
# The copy of a hop

`copy_bidirectional_timed_until` between a local socket `a` and the overlay
stream `b`.  The end of file of one side shuts down the writer of the other; the
removal of the overlay stream ends `a` to `b` as its end of file would, and the
outcome says so.  Flushes are immediate on both sides, and the wait times of the
directions are left out.
-/

namespace NyaLink

structure DirCopy where
  bytes : Nat
  droppedBytes : Nat
  deriving DecidableEq, Repr

structure CopyOutcome where
  aToB : DirCopy
  bToA : DirCopy
  /-- The removal of the stream ended `a` to `b`, not the end of file of `a`. -/
  reaped : Bool
  deriving DecidableEq, Repr

def CopyOutcome.closeLabel (outcome : CopyOutcome) : String :=
  if outcome.reaped then "reaped" else "eof"

def copyBuf : Nat := 8 * 1024

/-- One direction; `buf` was read and is still to be written. -/
structure DirState where
  buf : Bytes
  readDone : Bool
  shuttingDown : Bool
  done : Bool
  out : DirCopy
  deriving DecidableEq, Repr

namespace DirState

def new : DirState := ⟨[], false, false, false, ⟨0, 0⟩⟩

def read (d : DirState) (bytes : Bytes) : Option DirState :=
  if d.buf.isEmpty && !d.readDone && decide (bytes.length ≤ copyBuf) then
    some (if bytes.isEmpty then { d with readDone := true } else { d with buf := bytes })
  else none

def write (d : DirState) (count : Nat) : Option DirState :=
  if 1 ≤ count ∧ count ≤ d.buf.length then
    some { d with buf := d.buf.drop count, out := { d.out with bytes := d.out.bytes + count } }
  else none

def flush (d : DirState) : Option DirState :=
  if d.buf.isEmpty && d.readDone && !d.shuttingDown then some { d with shuttingDown := true }
  else none

def shutdown (d : DirState) : Option DirState :=
  if d.shuttingDown && !d.done then some { d with done := true } else none

def cut (d : DirState) : DirState :=
  { d with
    buf := []
    readDone := true
    out := { d.out with droppedBytes := d.out.droppedBytes + d.buf.length } }

theorem read_cases {d after : DirState} {bytes : Bytes} (taken : d.read bytes = some after) :
    d.readDone = false ∧ (bytes = [] ∧ after = { d with readDone := true } ∨
      bytes ≠ [] ∧ after = { d with buf := bytes }) := by
  unfold read at taken
  split at taken
  · rename_i ready
    simp only [Bool.and_eq_true, Bool.not_eq_true'] at ready
    refine ⟨ready.1.2, ?_⟩
    split at taken
    · rename_i empty
      cases taken
      exact .inl ⟨List.isEmpty_iff.mp empty, rfl⟩
    · rename_i some
      cases taken
      exact .inr ⟨fun empty => some (List.isEmpty_iff.mpr empty), rfl⟩
  · cases taken

theorem readDone_write {d after : DirState} {count : Nat} (taken : d.write count = some after) :
    after.readDone = d.readDone := by
  unfold write at taken
  split at taken
  · cases taken
    rfl
  · cases taken

theorem readDone_flush {d after : DirState} (taken : d.flush = some after) :
    after.readDone = d.readDone := by
  unfold flush at taken
  split at taken
  · cases taken
    rfl
  · cases taken

theorem readDone_shutdown {d after : DirState} (taken : d.shutdown = some after) :
    after.readDone = d.readDone := by
  unfold shutdown at taken
  split at taken
  · cases taken
    rfl
  · cases taken

def InOrder (d : DirState) : Prop :=
  (d.done = true → d.shuttingDown = true) ∧ (d.shuttingDown = true → d.readDone = true)

theorem InOrder.read {d after : DirState} (ordered : d.InOrder) {bytes : Bytes}
    (taken : d.read bytes = some after) : after.InOrder := by
  obtain ⟨_, ⟨_, rfl⟩ | ⟨_, rfl⟩⟩ := read_cases taken
  · exact ⟨ordered.1, fun _ => rfl⟩
  · exact ordered

theorem InOrder.write {d after : DirState} (ordered : d.InOrder) {count : Nat}
    (taken : d.write count = some after) : after.InOrder := by
  unfold DirState.write at taken
  split at taken
  · cases taken
    exact ordered
  · cases taken

theorem inOrder_flush {d after : DirState} (taken : d.flush = some after) : after.InOrder := by
  unfold flush at taken
  split at taken
  · rename_i ready
    cases taken
    simp only [Bool.and_eq_true] at ready
    exact ⟨fun _ => rfl, fun _ => ready.1.2⟩
  · cases taken

theorem InOrder.shutdown {d after : DirState} (ordered : d.InOrder)
    (taken : d.shutdown = some after) : after.InOrder := by
  unfold DirState.shutdown at taken
  split at taken
  · rename_i ready
    cases taken
    simp only [Bool.and_eq_true] at ready
    exact ⟨fun _ => ready.1, ordered.2⟩
  · cases taken

theorem InOrder.cut {d : DirState} (ordered : d.InOrder) : d.cut.InOrder :=
  ⟨ordered.1, fun _ => rfl⟩

end DirState

inductive CopyResult where
  | ok (outcome : CopyOutcome)
  | failed
  deriving DecidableEq, Repr

/-- `CopyTimed`.  `goneSeen` says that `gone` was ready and is not polled again. -/
structure CopyTimed where
  ab : DirState
  ba : DirState
  goneSeen : Bool
  reaped : Bool
  result : Option CopyResult
  deriving DecidableEq, Repr

namespace CopyTimed

def new : CopyTimed := ⟨.new, .new, false, false, none⟩

/-- `gone` is ready; an end of file that `a` reached before keeps its own label. -/
def noticeGone (c : CopyTimed) : CopyTimed :=
  if c.ab.readDone then { c with goneSeen := true }
  else { c with goneSeen := true, reaped := true, ab := c.ab.cut }

def finish (c : CopyTimed) : Option CopyTimed :=
  if c.ab.done && c.ba.done then
    some { c with result := some (.ok ⟨c.ab.out, c.ba.out, c.reaped⟩) }
  else none

end CopyTimed

end NyaLink
