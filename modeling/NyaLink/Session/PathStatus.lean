import NyaLink.Library.Machine
import NyaLink.Session.Scheduler

/-!
# The status word of a path

`touch_rx` loads the status and, when it was DEGRADED, stores UP as a second
step; `mark_degraded` is one compare-exchange and `path_failed` one swap.  Calls
of any number of tasks interleave at these steps.
-/

namespace NyaLink

/-- Where a call of `touch_rx` is. -/
inductive TouchPhase where
  | loading
  | storing
  deriving DecidableEq, Repr

/-- `failed` is history: some call of `path_failed` has swapped DOWN in. -/
structure StatusWord where
  status : PathStatus
  touching : List TouchPhase
  failed : Bool
  deriving DecidableEq, Repr

inductive StatusAction where
  | touchRx
  | load (call : Nat)
  | store (call : Nat)
  | markDegraded
  | pathFailed
  deriving DecidableEq, Repr

/-- `is_alive` of a status. -/
def PathStatus.alive (status : PathStatus) : Bool :=
  decide (status = .up) || decide (status = .degraded)

theorem Path.isAlive_eq (p : Path) : p.isAlive = p.status.alive := rfl

namespace StatusWord

def load (w : StatusWord) (call : Nat) : Option StatusWord :=
  match w.touching[call]? with
  | some .loading =>
      if w.status = .degraded then some { w with touching := w.touching.set call .storing }
      else some { w with touching := w.touching.eraseIdx call }
  | _ => none

def store (w : StatusWord) (call : Nat) : Option StatusWord :=
  match w.touching[call]? with
  | some .storing => some { w with status := .up, touching := w.touching.eraseIdx call }
  | _ => none

def step (w : StatusWord) : StatusAction → Option StatusWord
  | .touchRx => some { w with touching := w.touching ++ [.loading] }
  | .load call => w.load call
  | .store call => w.store call
  | .markDegraded => some { w with status := if w.status = .up then .degraded else w.status }
  | .pathFailed => some { w with status := .down, failed := true }

def Initial (w : StatusWord) : Prop := w = ⟨.up, [], false⟩

def machine : Machine StatusWord StatusAction := ⟨Initial, step⟩

def storesInTime (w : StatusWord) : StatusAction → Bool
  | .store _ => decide (w.status ≠ .down)
  | _ => true

/-- The status of a path that failed is DOWN, and of no other. -/
def Absorbed (w : StatusWord) : Prop := w.status = .down ↔ w.failed = true

theorem absorbed_step {w next : StatusWord} {action : StatusAction} (absorbed : w.Absorbed)
    (inTime : w.storesInTime action = true) (taken : w.step action = some next) :
    next.Absorbed := by
  unfold Absorbed at absorbed ⊢
  cases action with
  | touchRx =>
      cases taken
      exact absorbed
  | load call =>
      simp only [step, load] at taken
      split at taken
      · split at taken
        · cases taken
          exact absorbed
        · cases taken
          exact absorbed
      · cases taken
  | store call =>
      simp only [step, store] at taken
      split at taken
      · cases taken
        have alive : w.status ≠ .down := of_decide_eq_true inTime
        have notFailed : ¬ w.failed = true := fun failed => alive (absorbed.mpr failed)
        constructor
        · intro impossible
          cases impossible
        · exact fun failed => absurd failed notFailed
      · cases taken
  | markDegraded =>
      cases taken
      simp only
      split
      · rename_i up
        rw [up] at absorbed
        exact ⟨fun impossible => (by cases impossible), fun failed =>
          absurd (absorbed.mpr failed) (by decide)⟩
      · exact absorbed
  | pathFailed =>
      cases taken
      exact ⟨fun _ => rfl, fun _ => rfl⟩

/-- The store that comes too late brings the failed path back. -/
theorem revived_step {w next : StatusWord} {action : StatusAction} (absorbed : w.Absorbed)
    (late : w.storesInTime action = false) (taken : w.step action = some next) :
    next.failed = true ∧ next.status.alive = true := by
  cases action with
  | store call =>
      have down : w.status = .down := by
        apply Decidable.of_not_not
        exact of_decide_eq_false late
      simp only [step, store] at taken
      split at taken
      · cases taken
        exact ⟨absorbed.mp down, rfl⟩
      · cases taken
  | _ => cases late

/-- While no `touch_rx` stores UP over DOWN, a path that failed stays DOWN; the first that does
makes it alive again. -/
theorem down_absorbing {w : StatusWord}
    (reachable : machine.ReachableWhen (fun w action => w.storesInTime action = true) w) :
    (w.failed = true → w.status = .down ∧ w.status.alive = false) ∧
      ∀ action next, w.step action = some next → w.storesInTime action = false →
        next.failed = true ∧ next.status.alive = true := by
  have absorbed : w.Absorbed := by
    induction reachable with
    | start begins =>
        cases begins
        exact ⟨fun impossible => (by cases impossible), fun impossible => (by cases impossible)⟩
    | step _ inTime taken inductionHypothesis =>
        exact absorbed_step inductionHypothesis inTime taken
  constructor
  · intro failed
    have down := absorbed.mpr failed
    rw [down]
    exact ⟨rfl, rfl⟩
  · exact fun action next taken late => revived_step absorbed late taken

theorem down_absorbing_recovered : ∃ w,
    machine.runWhen (fun w action => w.storesInTime action = true) ⟨.up, [], false⟩
      [.markDegraded, .touchRx, .load 0, .store 0, .markDegraded, .pathFailed, .touchRx,
        .load 0] = some w ∧ w.failed = true ∧ w.status = .down := by
  have replayed : ∃ w, machine.runWhen (fun w action => w.storesInTime action = true)
      ⟨.up, [], false⟩ [.markDegraded, .touchRx, .load 0, .store 0, .markDegraded, .pathFailed,
        .touchRx, .load 0] = some w ∧ w.failed = true := ⟨_, rfl, rfl⟩
  obtain ⟨w, replay, failed⟩ := replayed
  have begins : machine.ReachableWhen (fun w action => w.storesInTime action = true)
      ⟨.up, [], false⟩ := .start rfl
  exact ⟨w, replay, failed, ((down_absorbing (begins.runWhen replay)).1 failed).1⟩

/-- `path_failed` comes between the load and the store of a `touch_rx`. -/
theorem down_revived : ∃ w, machine.Reachable w ∧ w.failed = true ∧ w.status = .up ∧
    w.status.alive = true := by
  have replayed : ∃ w, machine.run ⟨.up, [], false⟩
      [.markDegraded, .touchRx, .load 0, .pathFailed, .store 0] = some w ∧
      w.failed = true ∧ w.status = .up ∧ w.status.alive = true := ⟨_, rfl, rfl, rfl, rfl⟩
  obtain ⟨w, replay, revived⟩ := replayed
  have begins : machine.Reachable ⟨.up, [], false⟩ := .start rfl
  exact ⟨w, begins.run replay, revived⟩

end StatusWord

end NyaLink
