import NyaLink.Hop.Poll
import Mathlib.Logic.Relation

/-!
# The polls run the copy of a hop

Without clocks, buffers and histories, what the copier does from one I/O call to the next is a
run of the copy that a hop is made of.
-/

namespace NyaLink.Poll

/-- One change of a direction of the hop, or none. -/
inductive DirStep (d : NyaLink.DirState) : NyaLink.DirState → Prop where
  | same : DirStep d d
  | read {after : NyaLink.DirState} (bytes : Bytes) : d.read bytes = some after → DirStep d after
  | write {after : NyaLink.DirState} (count : Nat) : d.write count = some after → DirStep d after
  | flush {after : NyaLink.DirState} : d.flush = some after → DirStep d after
  | shutdown {after : NyaLink.DirState} : d.shutdown = some after → DirStep d after

/-- One change of the copy of the hop. -/
inductive CopyStep (c : NyaLink.CopyTimed) : NyaLink.CopyTimed → Prop where
  | ab {ab : NyaLink.DirState} : c.result = none → DirStep c.ab ab → CopyStep c { c with ab }
  | ba {ba : NyaLink.DirState} : c.result = none → DirStep c.ba ba → CopyStep c { c with ba }
  | gone : c.result = none → c.goneSeen = false → CopyStep c c.noticeGone
  | finish {after : NyaLink.CopyTimed} :
      c.result = none → c.finish = some after → CopyStep c after
  | failed : c.result = none → CopyStep c { c with result := some .failed }

namespace DirState

/-- A direction without its buffer, its clock and its history. -/
def seen (d : DirState) : NyaLink.DirState :=
  ⟨d.held, d.readDone, d.shuttingDown, d.done, ⟨d.out.bytes, d.out.droppedBytes⟩⟩

theorem seen_pending (d : DirState) (now : Nat) (waits : WaitOn) :
    (d.pending now waits).seen = d.seen := by
  obtain ⟨wait, readUs, writeUs, same⟩ := pending_eq_timed d now waits
  rw [same]
  rfl

theorem seen_ready (d : DirState) (now : Nat) : (d.ready now).seen = d.seen := by
  obtain ⟨wait, readUs, writeUs, same⟩ := ready_eq_timed d now
  rw [same]
  rfl

section Answers

variable {E : Type} {d after : DirState} {polled : Polled E} {now : Nat} {a : Answer E}

theorem dirStep_answerShutdown (shutting : d.shuttingDown = true) (going : d.done = false)
    (taken : d.answerShutdown a = some (after, polled)) : DirStep d.seen after.seen := by
  cases a with
  | pending =>
      cases taken
      exact .same
  | failed e =>
      cases taken
      exact .same
  | finished =>
      cases taken
      apply DirStep.shutdown
      simp only [NyaLink.DirState.shutdown, seen, shutting, going]
      rfl
  | data bytes => cases taken
  | count n => cases taken

theorem dirStep_answerRead (empty : d.pos = d.cap) (reading : d.readDone = false)
    (taken : d.answerRead now a = some (after, polled)) : DirStep d.seen after.seen := by
  cases a with
  | pending =>
      simp only [answerRead, Option.some.injEq] at taken
      split_ifs at taken
      · cases taken
        exact .same
      · cases taken
        rw [seen_pending]
        exact .same
  | failed e =>
      cases taken
      exact .same
  | data bytes =>
      obtain ⟨pos, cap, readDone, -⟩ := ready_place d now
      rw [← pos, ← cap] at empty
      rw [← readDone] at reading
      simp only [answerRead, Option.ite_none_right_eq_some, Option.some.injEq,
        Prod.mk.injEq] at taken
      obtain ⟨fits, rfl, -⟩ := taken
      rw [← seen_ready d now]
      generalize d.ready now = d at empty reading
      have nothing : d.seen.buf = [] := held_eq_nil empty
      apply DirStep.read bytes
      have admits : (d.seen.buf.isEmpty && !d.seen.readDone &&
          decide (bytes.length ≤ copyBuf)) = true := by
        simp [nothing, show d.seen.readDone = false from reading, fits]
      rw [NyaLink.DirState.read, if_pos admits]
      cases bytes with
      | nil => rfl
      | cons byte rest => simp [seen, held]
  | finished => cases taken
  | count n => cases taken

theorem dirStep_answerIdleFlush (taken : d.answerIdleFlush now a = some (after, polled)) :
    DirStep d.seen after.seen := by
  cases a with
  | pending =>
      cases taken
      exact .same
  | failed e =>
      cases taken
      exact .same
  | finished =>
      simp only [answerIdleFlush, Option.some.injEq, Prod.mk.injEq] at taken
      rw [← taken.1, seen_pending]
      exact .same
  | data bytes => cases taken
  | count n => cases taken

theorem dirStep_answerWrite (taken : d.answerWrite now a = some (after, polled)) :
    DirStep d.seen after.seen := by
  cases a with
  | pending =>
      cases taken
      rw [seen_pending]
      exact .same
  | failed e =>
      cases taken
      exact .same
  | count n =>
      simp only [answerWrite] at taken
      split_ifs at taken with zero fits
      · cases taken
        exact .same
      · cases taken
        apply DirStep.write n
        have within : 1 ≤ n ∧ n ≤ d.seen.buf.length := ⟨Nat.pos_of_ne_zero zero, fits⟩
        rw [NyaLink.DirState.write, if_pos within, ← seen_ready d now]
        generalize d.ready now = d
        simp only [seen, held, List.drop_drop]
  | finished => cases taken
  | data bytes => cases taken

theorem dirStep_answerFlush (empty : d.pos = d.cap) (readDone : d.readDone = true)
    (going : d.shuttingDown = false) (taken : d.answerFlush a = some (after, polled)) :
    DirStep d.seen after.seen := by
  cases a with
  | pending =>
      cases taken
      exact .same
  | failed e =>
      cases taken
      exact .same
  | finished =>
      cases taken
      apply DirStep.flush
      have drained : (d.seen.buf.isEmpty && d.seen.readDone && !d.seen.shuttingDown) = true := by
        simp [seen, held_eq_nil empty, readDone, going]
      rw [NyaLink.DirState.flush, if_pos drained]
      rfl
  | data bytes => cases taken
  | count n => cases taken

/-- An answer changes a direction as the hop does, or not at all. -/
theorem dirStep_answer (sound : d.Sound) {idleFlush : Bool}
    (taken : d.answer idleFlush now a = some (after, polled)) : DirStep d.seen after.seen := by
  simp only [answer] at taken
  split_ifs at taken with done shutting reading idle waiting
  · exact dirStep_answerShutdown shutting (Bool.eq_false_iff.mpr done) taken
  · exact dirStep_answerIdleFlush taken
  · exact dirStep_answerRead reading.1 reading.2 taken
  · exact dirStep_answerWrite taken
  · have empty : d.pos = d.cap := Nat.le_antisymm sound.pos_le (Nat.le_of_not_lt waiting)
    have readDone : d.readDone = true := by
      simpa only [empty, true_and, Bool.not_eq_false] using reading
    exact dirStep_answerFlush empty readDone (Bool.eq_false_iff.mpr shutting) taken

theorem seen_cut (sound : d.Sound) (now : Nat) : (d.cut now).seen = d.seen.cut := by
  have sound := sound.ready now
  rw [← seen_ready d now]
  simp only [cut]
  generalize d.ready now = d at sound
  have nothing : held { d with pos := d.cap } = [] := held_eq_nil rfl
  have dropped : d.held.length = d.cap - d.pos := length_held sound
  simp only [held] at nothing dropped
  simp only [seen, NyaLink.DirState.cut, held, nothing, dropped]

end Answers

end DirState

namespace CopyTimed

variable {E : Type}

def seenDir (out : DirCopy) : NyaLink.DirCopy := ⟨out.bytes, out.droppedBytes⟩

def seenResult : Except (CopyError E) CopyOutcome → CopyResult
  | .ok outcome => .ok ⟨seenDir outcome.aToB, seenDir outcome.bToA, outcome.reaped⟩
  | .error _ => .failed

/-- A copy without the point it is at. -/
def seen (c : CopyTimed E) : NyaLink.CopyTimed :=
  ⟨c.ab.seen, c.ba.seen, !c.gone, c.reaped, c.result.map seenResult⟩

/-- The changes of the hop's copy, one after the other. -/
def Runs (c next : CopyTimed E) : Prop := Relation.ReflTransGen CopyStep c.seen next.seen

section Going

variable {c : CopyTimed E} (going : c.result = none)
include going

theorem seen_running : c.seen.result = none := by
  rw [seen, going]
  rfl

theorem runs_finish {abReady baReady : Bool} (abDone : abReady = true → c.ab.done = true)
    (baDone : baReady = true → c.ba.done = true) : c.Runs (c.finish abReady baReady) := by
  simp only [finish]
  split_ifs with both
  · simp only [Bool.and_eq_true] at both
    have through : (c.seen.ab.done && c.seen.ba.done) = true := by
      rw [Bool.and_eq_true]
      exact ⟨abDone both.1, baDone both.2⟩
    apply Relation.ReflTransGen.single
    apply CopyStep.finish (seen_running going)
    rw [NyaLink.CopyTimed.finish, if_pos through]
    rfl
  · exact .refl

theorem runs_pollBa {abReady : Bool} (abDone : abReady = true → c.ab.done = true) :
    c.Runs (c.pollBa abReady) := by
  simp only [pollBa]
  split_ifs with baDone
  · exact runs_finish going abDone fun _ => baDone
  · exact .refl

theorem runs_pollAb : c.Runs c.pollAb := by
  simp only [pollAb]
  split_ifs with abDone
  · exact runs_pollBa going fun _ => abDone
  · exact .refl

theorem runs_fail (e : CopyError E) : c.Runs (c.fail e) :=
  .single (.failed (seen_running going))

theorem runs_afterAb {polled : Polled E} (abDone : polled = .ready → c.ab.done = true) :
    c.Runs (c.afterAb polled) := by
  cases polled with
  | again idleFlush => exact .refl
  | pending => exact runs_pollBa going fun impossible => by cases impossible
  | ready => exact runs_pollBa going fun _ => abDone rfl
  | failed e => exact runs_fail going e

theorem runs_afterBa {abReady : Bool} {polled : Polled E}
    (abDone : abReady = true → c.ab.done = true) (baDone : polled = .ready → c.ba.done = true) :
    c.Runs (c.afterBa abReady polled) := by
  cases polled with
  | again idleFlush => exact .refl
  | pending => exact runs_finish going abDone fun impossible => by cases impossible
  | ready => exact runs_finish going abDone fun _ => baDone rfl
  | failed e => exact runs_fail going e

theorem runs_noticeGone (sound : c.ab.Sound) (gone : c.gone = true) (now : Nat) :
    c.Runs (c.noticeGone now) := by
  have unseen : c.seen.goneSeen = false := by
    rw [seen, gone]
    rfl
  have same : (c.noticeGone now).seen = c.seen.noticeGone := by
    simp only [noticeGone, NyaLink.CopyTimed.noticeGone]
    by_cases readDone : c.ab.readDone = true
    · rw [if_pos readDone, if_pos (show c.seen.ab.readDone = true from readDone)]
      rfl
    · rw [if_neg readDone, if_neg (show ¬c.seen.ab.readDone = true from readDone)]
      simp only [seen, DirState.seen_cut sound]
      rfl
  unfold Runs
  rw [same]
  exact .single (.gone (seen_running going) unseen)

end Going

theorem runs_step {c next : CopyTimed E} {action : CopyAction E} (sound : c.Sound)
    (taken : c.step action = some next) : c.Runs next := by
  cases action with
  | poll gone now =>
      simp only [step, Option.ite_none_right_eq_some, Option.isNone_iff_eq_none,
        Option.some.injEq] at taken
      obtain ⟨⟨-, going⟩, rfl⟩ := taken
      split_ifs with signal
      · have comes := (Bool.and_eq_true_iff.mp signal).1
        have still : (c.noticeGone now).result = none := by
          simp only [noticeGone]
          split_ifs <;> exact going
        exact (runs_noticeGone going sound.ab comes now).trans (runs_pollAb still)
      · exact runs_pollAb going
  | answer now a =>
      simp only [step] at taken
      split at taken
      · cases taken
      · rename_i idleFlush here
        have going : c.result = none := sound.going (by simp [here])
        obtain ⟨⟨ab, polled⟩, answered, rfl⟩ := Option.map_eq_some_iff.mp taken
        let moving : CopyTimed E := { c with ab := ab }
        have still : moving.result = none := going
        have moved : c.Runs moving :=
          .single (.ab (seen_running going) (DirState.dirStep_answer sound.ab answered))
        have further : moving.Runs (moving.afterAb polled) := by
          refine runs_afterAb still fun ready => ?_
          obtain rfl : polled = .ready := ready
          exact DirState.done_of_ready answered
        exact moved.trans further
      · rename_i idleFlush abReady here
        have going : c.result = none := sound.going (by simp [here])
        obtain ⟨⟨ba, polled⟩, answered, rfl⟩ := Option.map_eq_some_iff.mp taken
        let moving : CopyTimed E :=
          { c with ba := ba, baCalls := c.baCalls ++ [(idleFlush, now, a)] }
        have still : moving.result = none := going
        have moved : c.Runs moving :=
          .single (.ba (seen_running going) (DirState.dirStep_answer sound.ba answered))
        have further : moving.Runs (moving.afterBa abReady polled) := by
          refine runs_afterBa still (fun abDone => ?_) fun ready => ?_
          · exact sound.abReady idleFlush (by rw [here, abDone])
          · obtain rfl : polled = .ready := ready
            exact DirState.done_of_ready answered
        exact moved.trans further

/-- Whatever the answers of the I/O calls, the polls run the copy of a hop. -/
theorem runs_of_reachable {c : CopyTimed E} (reachable : (machine E true).Reachable c) :
    Relation.ReflTransGen CopyStep .new c.seen := by
  induction reachable with
  | start begins =>
      obtain rfl := begins
      have same : (new true : CopyTimed E).seen = .new := by
        simp [seen, DirState.seen, new, DirState.new, DirState.held, NyaLink.CopyTimed.new,
          NyaLink.DirState.new]
      rw [same]
  | step earlier _ taken inductionHypothesis =>
      exact inductionHypothesis.trans (runs_step (sound_of_reachable earlier) taken)

end CopyTimed

end NyaLink.Poll
