import NyaLink.Library.Machine
import NyaLink.Stream.Ack

/-!
# The wait for the send window

The window loop of `send_data` against calls of `on_ack` and `finish_stream` on
other tasks, one step for every load, store and notification.  `notify_waiters`
wakes the `Notified` futures that exist and leaves no permit behind, so a
wakeup is lost exactly when the future is created with the window already open
(or the reset already set) and every call that did it past its notification.
-/

namespace NyaLink

open StreamState

/-- Where the window loop is. -/
inductive WaitPhase where
  /-- At the test of `window_ok(1)`. -/
  | testing
  /-- `inflight_send` is computed; `send_window` is not read yet. -/
  | comparing (inflight : Nat)
  | passed
  | checking
  /-- About to create the `Notified`. -/
  | arming
  /-- The `Notified` exists and has not been polled. -/
  | armed
  | suspended
  | failed
  deriving DecidableEq, Repr

/-- The `Notified` exists. -/
def WaitPhase.registered : WaitPhase → Bool
  | .armed => true
  | .suspended => true
  | _ => false

/-- Where a call of `on_ack` or `finish_stream` is. -/
inductive Call where
  | storeWindow (ack : StreamAck) (now : Nat)
  | loadAcked (ack : StreamAck) (now : Nat)
  | storeAcked (ack : StreamAck) (now prev : Nat)
  | releaseSacked (ack : StreamAck) (now : Nat)
  | setReset (reason : ResetReason) (openPending : Bool)
  | notifyWaiters
  deriving DecidableEq, Repr

structure WindowWait where
  st : StreamState
  phase : WaitPhase
  /-- A wakeup was delivered to the `Notified` created last. -/
  woken : Bool
  calls : List Call
  dead : Bool
  pathAlive : Bool
  deriving DecidableEq

inductive WaitAction where
  | test
  | compare
  | check
  | arm
  | poll
  | resume
  /-- `all_down_timeout` has passed. -/
  | timeout
  | cut (n : Nat)
  | beginAck (ack : StreamAck) (now : Nat)
  | beginFinish (reason : ResetReason) (openPending : Bool)
  | call (index : Nat)
  | die
  | setPathAlive (alive : Bool)
  deriving DecidableEq, Repr

namespace StreamState

/-- The cumulative part of `on_ack`, with a `send_acked` that was read before. -/
def ackCumulativeFrom (st : StreamState) (ack : StreamAck) (now prev : Nat) : StreamState :=
  if prev < ack.ackedOffset then
    { st with
      sendAcked := ack.ackedOffset
      lastAckMs := max (monoMs now) 1
      unacked := st.unacked.filter fun offset u => !ack.covers offset u }
  else st

end StreamState

namespace Call

def owesWakeup : Call → Bool
  | .storeWindow _ _ => false
  | .setReset _ _ => false
  | _ => true

/-- What the next step of a call stores, and how the call goes on. -/
def step (call : Call) (st : StreamState) : StreamState × Option Call :=
  match call with
  | .storeWindow ack now => ({ st with sendWindow := ack.window }, some (.loadAcked ack now))
  | .loadAcked ack now => (st, some (.storeAcked ack now st.sendAcked))
  | .storeAcked ack now prev => (st.ackCumulativeFrom ack now prev, some (.releaseSacked ack now))
  | .releaseSacked ack now => (st.ackSelective ack now, some .notifyWaiters)
  -- Only the first reset notifies.
  | .setReset reason openPending =>
      (st.setReset reason openPending, if st.reset then none else some .notifyWaiters)
  | .notifyWaiters => (st, none)

def runAlone : Nat → Call → StreamState → StreamState × Option Call
  | 0, call, st => (st, some call)
  | steps + 1, call, st =>
      match call.step st with
      | (after, none) => (after, none)
      | (after, some next) => runAlone steps next after

theorem runAlone_storeWindow (st : StreamState) (ack : StreamAck) (now : Nat) :
    runAlone 4 (.storeWindow ack now) st = (st.onAck ack now, some .notifyWaiters) := rfl

end Call

namespace WindowWait

def callStep (s : WindowWait) (index : Nat) : Option WindowWait :=
  match s.calls[index]? with
  | none => none
  | some call =>
      let result := call.step s.st
      some { s with
        st := result.1
        calls := s.calls.eraseIdx index ++ result.2.toList
        woken := s.woken || (decide (call = .notifyWaiters) && s.phase.registered) }

def step (s : WindowWait) : WaitAction → Option WindowWait
  | .test =>
      if s.phase = .testing then some { s with phase := .comparing s.st.inflightSend } else none
  | .compare =>
      match s.phase with
      | .comparing inflight =>
          some { s with phase := if inflight + 1 ≤ s.st.sendWindow then .passed else .checking }
      | _ => none
  | .check =>
      if s.phase = .checking then
        some { s with phase := if s.dead || s.st.reset then .failed else .arming }
      else none
  | .arm => if s.phase = .arming then some { s with phase := .armed, woken := false } else none
  | .poll =>
      if s.phase = .armed then
        some { s with phase := if s.woken then .testing else .suspended }
      else none
  | .resume =>
      if s.phase = .suspended ∧ s.woken = true then some { s with phase := .testing } else none
  | .timeout =>
      if s.phase = .suspended then
        some { s with
          phase := if !s.st.windowOk 1 && !s.pathAlive then .failed else .testing }
      else none
  | .cut n =>
      if s.phase = .passed then
        some { s with phase := .testing, st := { s.st with sendNext := s.st.sendNext + n } }
      else none
  | .beginAck ack now => some { s with calls := s.calls ++ [.storeWindow ack now] }
  | .beginFinish reason openPending =>
      some { s with calls := s.calls ++ [.setReset reason openPending] }
  | .call index => s.callStep index
  | .die => some { s with dead := true }
  | .setPathAlive alive => some { s with pathAlive := alive }

/-- `send_data` enters the loop. -/
def Initial (s : WindowWait) : Prop :=
  s.phase = .testing ∧ s.calls = []

def machine : Machine WindowWait WaitAction := ⟨Initial, step⟩

def wakeupDue (s : WindowWait) : Bool := s.calls.any Call.owesWakeup

def wanted (s : WindowWait) : Bool := s.st.windowOk 1 || s.st.reset

/-- The sender does not sleep on an open window or a reset: it has been woken, or the call
that stored it has yet to notify. -/
def Wakes (s : WindowWait) : Prop :=
  s.phase = .suspended → s.wanted = true → s.woken = true ∨ s.wakeupDue = true

/-- The `Notified` is created in time: while there is nothing to wake up for, or before the
notification of a call that stored something. -/
def armsInTime (s : WindowWait) : WaitAction → Bool
  | .arm => !s.wanted || s.wakeupDue
  | _ => true

/-- `Wakes`, from the creation of the `Notified` on. -/
def Attentive (s : WindowWait) : Prop :=
  s.phase.registered = true → s.wanted = true → s.woken = true ∨ s.wakeupDue = true

theorem Attentive.wakes {s : WindowWait} (attentive : s.Attentive) : s.Wakes := by
  intro suspended
  apply attentive
  rw [suspended]
  rfl

/-! ## Calls -/

theorem step_owes_or_same (call : Call) (st : StreamState) (more : call ≠ .notifyWaiters) :
    (∃ next, (call.step st).2 = some next ∧ next.owesWakeup = true) ∨
      (call.owesWakeup = false ∧ call.step st = (st, none)) := by
  cases call with
  | storeWindow | loadAcked | storeAcked | releaseSacked => exact .inl ⟨_, rfl, rfl⟩
  | setReset reason openPending =>
      cases already : st.reset with
      | false => exact .inl ⟨.notifyWaiters, by simp [Call.step, already], rfl⟩
      | true => exact .inr ⟨rfl, by simp [Call.step, StreamState.setReset, already]⟩
  | notifyWaiters => exact absurd rfl more

theorem mem_eraseIdx_of_ne {α : Type} {items : List α} {index : Nat} {item other : α}
    (found : items[index]? = some item) (membership : other ∈ items) (different : other ≠ item) :
    other ∈ items.eraseIdx index := by
  rw [List.mem_eraseIdx_iff_getElem?]
  obtain ⟨place, foundOther⟩ := List.getElem?_of_mem membership
  refine ⟨place, ?_, foundOther⟩
  rintro rfl
  rw [found] at foundOther
  exact different (Option.some.inj foundOther).symm

theorem attentive_callStep {s next : WindowWait} {index : Nat} (attentive : s.Attentive)
    (taken : s.callStep index = some next) : next.Attentive := by
  unfold callStep at taken
  split at taken
  · cases taken
  · rename_i call found
    cases taken
    intro registered wanted
    change s.phase.registered = true at registered
    by_cases notifies : call = .notifyWaiters
    · apply Or.inl
      simp [notifies, registered]
    · rcases step_owes_or_same call s.st notifies with ⟨more, continues, owes⟩ | ⟨silent, same⟩
      · apply Or.inr
        simp [wakeupDue, continues, owes]
      · have before : s.wanted = true := by simpa [WindowWait.wanted, same] using wanted
        rcases attentive registered before with woken | due
        · exact .inl (by simp [woken])
        · apply Or.inr
          obtain ⟨other, membership, owes⟩ := List.any_eq_true.mp due
          have different : other ≠ call := by
            rintro rfl
            rw [silent] at owes
            cases owes
          refine List.any_eq_true.mpr ⟨other, ?_, owes⟩
          exact List.mem_append_left _ (mem_eraseIdx_of_ne found membership different)

/-! ## Steps -/

theorem Attentive.of_unregistered {s : WindowWait} (unregistered : s.phase.registered = false) :
    s.Attentive := by
  intro registered
  rw [unregistered] at registered
  cases registered

theorem attentive_step {s next : WindowWait} (attentive : s.Attentive) {action : WaitAction}
    (inTime : s.armsInTime action = true) (taken : s.step action = some next) :
    next.Attentive := by
  cases action with
  | test | resume | cut =>
      simp only [step] at taken
      split at taken
      · cases taken
        exact Attentive.of_unregistered rfl
      · cases taken
  | check | compare | timeout =>
      simp only [step] at taken
      split at taken
      · cases taken
        apply Attentive.of_unregistered
        change WaitPhase.registered (if _ then _ else _) = false
        split <;> rfl
      · cases taken
  | arm =>
      simp only [step] at taken
      split at taken
      · cases taken
        intro _ wanted
        change s.wanted = true at wanted
        simp only [armsInTime, wanted, Bool.not_true, Bool.false_or] at inTime
        exact .inr inTime
      · cases taken
  | poll =>
      simp only [step] at taken
      split at taken
      · rename_i armed
        cases taken
        intro _ wanted
        exact attentive (by rw [armed]; rfl) wanted
      · cases taken
  | beginAck ack now =>
      cases taken
      intro registered wanted
      refine (attentive registered wanted).imp id fun due => ?_
      simpa [wakeupDue] using Or.inl due
  | beginFinish reason openPending =>
      cases taken
      intro registered wanted
      refine (attentive registered wanted).imp id fun due => ?_
      simpa [wakeupDue] using Or.inl due
  | call index => exact attentive_callStep attentive taken
  | die =>
      cases taken
      exact attentive
  | setPathAlive alive =>
      cases taken
      exact attentive

theorem sleeps_of_late {s next : WindowWait} (taken : s.step .arm = some next)
    (late : s.armsInTime .arm = false) :
    ∃ asleep, next.step .poll = some asleep ∧ ¬ asleep.Wakes := by
  simp only [step] at taken
  split at taken
  · cases taken
    refine ⟨_, rfl, ?_⟩
    intro wakes
    simp only [armsInTime, Bool.or_eq_false_iff, Bool.not_eq_false'] at late
    rcases wakes rfl late.1 with woken | due
    · cases woken
    · change s.wakeupDue = true at due
      rw [late.2] at due
      cases due
  · cases taken

/-- In every run that creates each `Notified` in time, no sender sleeps on an open window or a
reset without a wakeup; and one that is created too late makes it sleep so. -/
theorem wakes_of_armsInTime {s : WindowWait}
    (reachable : machine.ReachableWhen (fun s action => s.armsInTime action = true) s) :
    s.Wakes ∧ ∀ next, s.step .arm = some next → s.armsInTime .arm = false →
      ∃ asleep, next.step .poll = some asleep ∧ ¬ asleep.Wakes := by
  have attentive : s.Attentive := by
    refine reachable.invariant_of Attentive (fun _ _ => trivial) ?_ ?_
    · intro start initial
      apply Attentive.of_unregistered
      rw [initial.1]
      rfl
    · exact fun _ _ _ _ held inTime taken => attentive_step held inTime taken
  exact ⟨attentive.wakes, fun next taken late => sleeps_of_late taken late⟩

/-! ## Two schedules -/

def blockedWait : WindowWait where
  st := { StreamState.new 1 1 4 with sendNext := 1 }
  phase := .testing
  woken := false
  calls := []
  dead := false
  pathAlive := true

theorem blockedWait_started {good : WindowWait → WaitAction → Prop} :
    machine.ReachableWhen good blockedWait :=
  .start ⟨rfl, rfl⟩

/-- A whole call of `on_ack` that opens the window. -/
def ackSchedule : List WaitAction :=
  [.beginAck ⟨1, 1, 10, []⟩ 0, .call 0, .call 0, .call 0, .call 0, .call 0]

/-- The ACK comes while the sender sleeps, and wakes it. -/
theorem wakes_of_armsInTime_asleep :
    ∃ s, machine.ReachableWhen (fun s action => s.armsInTime action = true) s ∧
      s.phase = .suspended ∧ s.wanted = true ∧ (s.woken = true ∨ s.wakeupDue = true) := by
  have reached : ∃ s, machine.runWhen (fun s action => s.armsInTime action = true) blockedWait
      ([.test, .compare, .check, .arm, .poll] ++ ackSchedule) = some s ∧
      s.phase = .suspended ∧ s.wanted = true := ⟨_, rfl, rfl, rfl⟩
  obtain ⟨s, replayed, suspended, wanted⟩ := reached
  have reachable := Machine.ReachableWhen.runWhen blockedWait_started replayed
  exact ⟨s, reachable, suspended, wanted, (wakes_of_armsInTime reachable).1 suspended wanted⟩

/-- The ACK comes between the test and the creation of the `Notified`. -/
theorem sleeps_with_open_window :
    ¬ ∀ s, machine.Reachable s → s.phase = .suspended →
      (s.st.windowOk 1 = true ∨ s.st.reset = true) →
      s.woken = true ∨ ∃ call ∈ s.calls, call.owesWakeup = true := by
  intro always
  have reached : ∃ s, machine.run blockedWait
      ([.test, .compare, .check] ++ ackSchedule ++ [.arm, .poll]) = some s ∧
      s.phase = .suspended ∧ s.st.windowOk 1 = true ∧ s.woken = false ∧ s.calls = [] :=
    ⟨_, rfl, rfl, rfl, rfl, rfl⟩
  obtain ⟨s, replayed, suspended, windowOpen, unwoken, finished⟩ := reached
  have reachable : machine.Reachable s := Machine.Reachable.run blockedWait_started replayed
  rcases always s reachable suspended (.inl windowOpen) with woken | ⟨call, membership, -⟩
  · rw [unwoken] at woken
    cases woken
  · rw [finished] at membership
    cases membership

end WindowWait

end NyaLink
