import NyaLink.Session.Steps

/-!
# Small moves

What sending and re-sending do to a session is made of three small moves: the load
of a path changes, a piece of a stream changes, and the history of accepted frames
grows.  `Moved` collects them, so that a property of the paths and streams apart
from their load has to be checked against three moves only.
-/

namespace NyaLink

/-- The path without its queues, its inflight counter and its congestion mark. -/
def Path.unloaded (p : Path) : Path :=
  { p with
    inflight := 0
    congested := false
    writer := []
    urgent := [] }

/-- The stream without its pieces. -/
def StreamState.bare (st : StreamState) : StreamState := { st with unacked := .empty }

theorem Path.unloaded_enqueue (p : Path) (urgent : Bool) (frame : Frame) :
    (p.enqueue urgent frame).unloaded = p.unloaded := by
  unfold enqueue
  split <;> rfl

namespace Session

inductive Moved (s : Session) : Session → Prop where
  | refl : Moved s s
  | path {t : Session} (earlier : Moved s t) (id : Nat) {change : Path → Path}
      (kept : ∀ p, (change p).unloaded = p.unloaded) : Moved s (t.modifyPath id change)
  | piece {t : Session} (earlier : Moved s t) (id offset : Nat) (change : Unacked → Unacked) :
      Moved s (t.modifyUnacked id offset change)
  | accepted {t : Session} (earlier : Moved s t) (frames : List (Nat × Frame)) :
      Moved s { t with accepted := frames }

theorem Moved.trans {s t u : Session} (earlier : Moved s t) (later : Moved t u) : Moved s u := by
  induction later with
  | refl => exact earlier
  | path _ id kept inductionHypothesis => exact inductionHypothesis.path id kept
  | piece _ id offset change inductionHypothesis => exact inductionHypothesis.piece id offset change
  | accepted _ frames inductionHypothesis => exact inductionHypothesis.accepted frames

/-! ## What moves leave alone -/

section

variable {s t : Session}

theorem Moved.nextPathId (moved : Moved s t) : t.nextPathId = s.nextPathId := by
  induction moved with
  | refl => rfl
  | path _ _ _ inductionHypothesis => exact inductionHypothesis
  | piece _ _ _ _ inductionHypothesis => exact inductionHypothesis
  | accepted _ _ inductionHypothesis => exact inductionHypothesis

theorem Moved.getPath (moved : Moved s t) (id : Nat) :
    (t.getPath id).map Path.unloaded = (s.getPath id).map Path.unloaded := by
  induction moved with
  | refl => rfl
  | @path t _ target change kept inductionHypothesis =>
      rw [← inductionHypothesis, getPath_modifyPath]
      by_cases same : id = target
      · rw [if_pos same, Option.map_map]
        exact congrArg (fun f => (t.getPath id).map f) (funext kept)
      · rw [if_neg same]
  | piece _ _ _ _ inductionHypothesis => exact inductionHypothesis
  | accepted _ _ inductionHypothesis => exact inductionHypothesis

theorem Moved.streams (moved : Moved s t) (id : Nat) :
    (t.streams.get? id).map StreamState.bare = (s.streams.get? id).map StreamState.bare := by
  induction moved with
  | refl => rfl
  | path _ _ _ inductionHypothesis => exact inductionHypothesis
  | @piece t _ target offset change inductionHypothesis =>
      rw [← inductionHypothesis]
      change ((t.streams.modify target _).get? id).map _ = _
      rw [OrdMap.get?_modify]
      by_cases same : id = target
      · rw [if_pos same, Option.map_map]
        rfl
      · rw [if_neg same]
  | accepted _ _ inductionHypothesis => exact inductionHypothesis

end

/-! ## One lemma for each operation -/

section

variable {cfg : SessionConfig} (s : Session)

theorem moved_sendOnPath (id : Nat) (frame : Frame) : Moved s (s.sendOnPath cfg id frame).1 := by
  rcases sendOnPath_cases cfg s id frame with ⟨p, urgent, -, -, -, taken⟩ | same | congested
  · rw [taken]
    exact (Moved.refl.path id fun p => p.unloaded_enqueue urgent frame).accepted _
  · rw [same]
    exact .refl
  · rw [congested]
    exact Moved.refl.path id fun _ => rfl

theorem moved_sendDataFrame (id offset : Nat) (data : Bytes) (path : Nat) :
    Moved s (s.sendDataFrame cfg id offset data path).1 :=
  moved_sendOnPath s path _

theorem moved_sent {id offset : Nat} {data : Bytes} {path : Nat} {after : Session} {sent : Bool}
    (result : s.sendDataFrame cfg id offset data path = (after, sent)) : Moved s after := by
  have moved := @moved_sendDataFrame cfg s id offset data path
  rwa [result] at moved

theorem moved_subInflight (id n : Nat) : Moved s (s.subInflight id n) :=
  Moved.refl.path id fun _ => rfl

theorem moved_xferInflight (source dest n : Nat) : Moved s (s.xferInflight source dest n) := by
  unfold xferInflight
  split
  · exact .refl
  · exact (moved_subInflight s source n).path dest fun _ => rfl

theorem moved_rehomeUnacked (id offset dest : Nat) (sent : Bool) :
    Moved s (s.rehomeUnacked id offset dest sent) := by
  unfold rehomeUnacked
  split
  · exact .refl
  · exact (moved_xferInflight s _ dest _).piece id offset _

theorem moved_noteDataDropped (id offset : Nat) : Moved s (s.noteDataDropped id offset) := by
  unfold noteDataDropped
  split
  · exact .refl
  · exact Moved.refl.piece id offset _

theorem moved_releasePieces (pieces : List (Nat × Unacked)) : Moved s (s.releasePieces pieces) := by
  apply List.foldlRecOn
  · exact .refl
  · intro reached moved piece _
    exact moved.trans (moved_subInflight reached piece.2.pathId piece.2.data.length)

theorem moved_resendInteractive (id : Nat) (due : Due) :
    Moved s (s.resendInteractive cfg id due) := by
  unfold resendInteractive
  split
  · exact .refl
  · split
    · exact .refl
    · split
      · rename_i sent
        exact (moved_sent s sent).trans (moved_rehomeUnacked _ id due.offset _ true)
      · rename_i failed
        exact (moved_sent s failed).piece id due.offset _

theorem moved_resendBulkOn (id : Nat) (due : Due) (alt : Nat) :
    Moved s (s.resendBulkOn cfg id due alt) := by
  unfold resendBulkOn
  split
  · rename_i sent
    exact ((moved_sent s sent).trans (moved_rehomeUnacked _ id due.offset alt true)).piece
      id due.offset _
  · rename_i failed
    exact (moved_sent s failed).piece id due.offset _

theorem moved_resendBulkFresh (id : Nat) (due : Due) (picked : Option Nat) :
    Moved s (s.resendBulkFresh cfg id due picked) := by
  unfold resendBulkFresh
  split
  · exact .refl
  · split
    · exact moved_resendBulkOn s id due _
    · exact Moved.refl.piece id due.offset _

theorem moved_resendOnSource (id : Nat) (due : Due) :
    Moved s (s.resendOnSource cfg id due).1 := by
  unfold resendOnSource
  split
  · exact moved_sendDataFrame s id due.offset due.data due.source
  · exact .refl

theorem moved_resendBulk (id : Nat) (due : Due) : Moved s (s.resendBulk cfg id due) := by
  unfold resendBulk
  split
  · have moved := @moved_resendOnSource cfg s id due
    dsimp only
    split
    · rename_i after sent
      rw [sent] at moved
      exact (moved.trans (moved_rehomeUnacked after id due.offset due.source true)).piece
        id due.offset _
    · rename_i after failed
      rw [failed] at moved
      exact moved.trans (moved_resendBulkFresh after id due _)
  · exact moved_resendBulkFresh s id due _

theorem moved_resendDue (id : Nat) (stalledLong : Bool) (due : Due) :
    Moved s (resendDue cfg id stalledLong s due) := by
  unfold resendDue
  split
  · exact .refl
  · split
    · exact .refl
    · split
      · exact moved_resendBulk s id due
      · exact moved_resendInteractive s id due

theorem moved_retryExpiredUnacked (id : Nat) : Moved s (s.retryExpiredUnacked cfg id) := by
  unfold retryExpiredUnacked
  split
  · exact .refl
  · split
    · exact .refl
    · apply List.foldlRecOn
      · exact .refl
      · intro reached moved due _
        exact moved.trans (moved_resendDue reached id _ due)

theorem moved_retransmitPiece (id dest : Nat) (piece : Nat × Unacked) :
    Moved s (s.retransmitPiece cfg id dest piece) :=
  ((moved_rehomeUnacked s id piece.1 dest false).trans
    (moved_sendDataFrame _ id piece.1 piece.2.data dest)).piece id piece.1 _

theorem moved_retransmitFromOn (id source dest : Nat) :
    Moved s (s.retransmitFromOn cfg id source dest) := by
  unfold retransmitFromOn
  split
  · exact .refl
  · apply List.foldlRecOn
    · exact .refl
    · intro reached moved piece _
      exact moved.trans (moved_retransmitPiece reached id dest piece)

theorem moved_rehomeUnackedFrom (dead : Nat) (order : List Nat) :
    Moved s (s.rehomeUnackedFrom cfg dead order) := by
  unfold rehomeUnackedFrom
  split
  · exact .refl
  · apply List.foldlRecOn
    · exact .refl
    · intro reached moved id _
      exact moved.trans (moved_retransmitFromOn reached id dead _)

theorem moved_parkStreamData (path : Nat) (data : StreamData) :
    Moved s (s.parkStreamData cfg path data) := by
  unfold parkStreamData
  split
  · exact .refl
  · split
    · exact Moved.refl.path path fun p => p.unloaded_enqueue false _
    · exact (Moved.refl.piece data.streamId data.offset _).trans (moved_noteDataDropped _ _ _)

variable {s} {t : Session}

theorem moved_writeUrgent {path : Nat} (written : s.writeUrgent cfg path = some t) :
    Moved s t := by
  unfold writeUrgent at written
  split at written
  · cases written
  · split at written
    · cases written
    · rename_i p _ frame rest _
      have taken : Moved s (s.modifyPath path fun p => { p with urgent := rest }) :=
        Moved.refl.path path fun _ => rfl
      dsimp only at written
      split at written
      · split at written
        · obtain rfl := Option.some.inj written
          exact taken.trans (moved_parkStreamData _ path _)
        · obtain rfl := Option.some.inj written
          exact taken
      · obtain rfl := Option.some.inj written
        exact taken

theorem moved_writeBulk {path : Nat} (written : s.writeBulk path = some t) : Moved s t := by
  unfold writeBulk at written
  split at written
  · cases written
  · split at written
    · obtain rfl := Option.some.inj written
      exact Moved.refl.path path fun _ => rfl
    · cases written

end

end Session

end NyaLink
