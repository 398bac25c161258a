import NyaLink.Session.Probe

/-!
# The timer of the writer

At the top of its loop a writer without a due ping sleeps until the ping can have become due,
unless a frame, an ACK or the close wakes it before.  The instant it sleeps until must lie
ahead: the loop would otherwise spin.  `timerWakes` is the counter of the source; the start
and the number of pings written are history.
-/

namespace NyaLink

def timerFloor : Nat := 1000

namespace Probe

/-- `ping_wait`: the next ping's instant, the expiry of the pending one, or the end of the
idle gate. -/
def pingWait (s : Probe) (pingEvery lossFor maintainTick : Nat) : Nat :=
  let gate := max pingEvery timerFloor
  if s.now < s.nextPing then s.nextPing
  else
    match s.book.pendingPingAge s.now with
    | some age => s.now + clamp (lossFor - age) (min maintainTick gate) gate
    | none =>
        if s.now - s.lastRx < pingEvery then
          s.now + max (pingEvery - (s.now - s.lastRx)) timerFloor
        else s.now + gate

theorem pingWait_ahead (s : Probe) (pingEvery lossFor maintainTick : Nat)
    (passed : s.nextPing ≤ s.now) :
    s.now + min maintainTick timerFloor ≤ s.pingWait pingEvery lossFor maintainTick := by
  simp only [pingWait, Nat.not_lt.mpr passed, if_false]
  split
  · rename_i age _
    have ordered : min maintainTick (max pingEvery timerFloor) ≤ max pingEvery timerFloor :=
      Nat.min_le_right _ _
    have bounds := clamp_bounds ordered (lossFor - age)
    omega
  · split <;> omega

end Probe

/-- The writer between two turns of its loop, or asleep until an instant. -/
structure Sleeper where
  probe : Probe
  asleep : Option Nat
  timerWakes : Nat
  pingsWritten : Nat
  startedAt : Nat
  deriving DecidableEq

inductive SleeperAction where
  | probe (action : ProbeAction)
  | sleep (pingEvery lossFor : Nat)
  | wake
  | interrupt
  deriving DecidableEq

def ProbeAction.byWriter : ProbeAction → Bool
  | .ping _ | .pinged _ => true
  | _ => false

namespace Sleeper

variable (maintainTick : Nat)

def step (w : Sleeper) : SleeperAction → Option Sleeper
  | .probe action =>
      if action.byWriter && w.asleep.isSome then none
      else
        (w.probe.step action).map fun probe =>
          { w with
            probe := probe
            pingsWritten := w.pingsWritten + if w.probe.writing && !probe.writing then 1 else 0 }
  | .sleep pingEvery lossFor =>
      if w.asleep.isNone && !w.probe.writing && !w.probe.pingDue pingEvery then
        some { w with asleep := some (w.probe.pingWait pingEvery lossFor maintainTick) }
      else none
  | .wake =>
      match w.asleep with
      | some until_ =>
          if until_ ≤ w.probe.now then
            some { w with asleep := none, timerWakes := w.timerWakes + 1 }
          else none
      | none => none
  | .interrupt => some { w with asleep := none }

def Initial (w : Sleeper) : Prop :=
  Probe.Initial w.probe ∧ w.asleep = none ∧ w.timerWakes = 0 ∧ w.pingsWritten = 0 ∧
    w.startedAt = w.probe.now

def machine : Machine Sleeper SleeperAction := ⟨Initial, step maintainTick⟩

variable {maintainTick} {w next : Sleeper}

def owed (w : Sleeper) : Nat := if w.probe.now < w.probe.nextPing then 1 else 0

/-- Every wake is paid for by a written ping or by the time the timer was set ahead. -/
structure Paid (maintainTick : Nat) (w : Sleeper) : Prop where
  started : w.startedAt ≤ w.probe.now
  paid : (w.timerWakes + w.owed) * min maintainTick timerFloor ≤
    w.probe.now - w.startedAt + w.pingsWritten * min maintainTick timerFloor
  asleep : ∀ until_, w.asleep = some until_ → w.probe.nextPing ≤ until_ ∧
    (w.timerWakes + 1) * min maintainTick timerFloor ≤
      until_ - w.startedAt + w.pingsWritten * min maintainTick timerFloor

/-- What a step of the probe does to the clocks of the writer: only the end of a write sets the
next ping's instant. -/
theorem probe_step_clock {s after : Probe} {action : ProbeAction}
    (taken : s.step action = some after) :
    s.now ≤ after.now ∧
      (after.nextPing = s.nextPing ∧ (s.writing && !after.writing) = false ∨
        action.byWriter = true ∧ (s.writing && !after.writing) = true) := by
  have kept : ∀ {t : Probe}, t.now = s.now → t.nextPing = s.nextPing → t.writing = s.writing →
      s.now ≤ t.now ∧ (t.nextPing = s.nextPing ∧ (s.writing && !t.writing) = false ∨
        action.byWriter = true ∧ (s.writing && !t.writing) = true) := by
    intro t now nextPing writing
    exact ⟨now.ge, .inl ⟨nextPing, by rw [writing, Bool.and_not_self]⟩⟩
  cases action with
  | elapse time =>
      cases taken
      exact ⟨Nat.le_add_right _ _, .inl ⟨rfl, Bool.and_not_self _⟩⟩
  | touchRx =>
      cases taken
      exact kept rfl rfl rfl
  | ping pingEvery =>
      simp only [Probe.step] at taken
      split at taken
      · rename_i due
        cases taken
        exact ⟨le_rfl, .inl ⟨rfl, Bool.and_false _⟩⟩
      · cases taken
  | pinged pingEvery =>
      simp only [Probe.step] at taken
      split at taken
      · rename_i writing
        cases taken
        exact ⟨le_rfl, .inr ⟨rfl, by simp [writing]⟩⟩
      · cases taken
  | pong seq record cap =>
      simp only [Probe.step] at taken
      split at taken
      · cases taken
        unfold Probe.pong Probe.found
        split <;> exact kept rfl rfl rfl
      · cases taken
  | lookLate =>
      simp only [Probe.step] at taken
      split at taken
      · cases taken
        unfold Probe.lookLate Probe.found
        split
        · exact kept rfl rfl rfl
        · dsimp only
          split <;> exact kept rfl rfl rfl
      · cases taken
  | takeSample mono stableClock classClock =>
      simp only [Probe.step] at taken
      split at taken
      · cases taken
        unfold Probe.takeSample
        split <;> exact kept rfl rfl rfl
      · cases taken
  | ackSample sample mono stableClock classClock =>
      cases taken
      exact kept rfl rfl rfl
  | expire maxAge =>
      cases taken
      exact kept rfl rfl rfl
  | dropAncient maxAge =>
      cases taken
      exact kept rfl rfl rfl
  | pathFailed =>
      cases taken
      exact kept rfl rfl rfl

theorem Paid.probe (paid : Paid maintainTick w) {action : ProbeAction} {after : Probe}
    (taken : w.probe.step action = some after)
    (awake : (action.byWriter && w.asleep.isSome) = false) :
    Paid maintainTick { w with
      probe := after
      pingsWritten := w.pingsWritten + if w.probe.writing && !after.writing then 1 else 0 } := by
  obtain ⟨later, ⟨nextPing, notWritten⟩ | ⟨byWriter, written⟩⟩ := probe_step_clock taken
  · have fewer : (if after.now < after.nextPing then 1 else 0) ≤ w.owed := by
      unfold owed
      rw [nextPing]
      split <;> split <;> omega
    refine ⟨paid.started.trans later, ?_, fun until_ asleep => ?_⟩
    · have total := Nat.mul_le_mul_right (min maintainTick timerFloor)
        (Nat.add_le_add_left fewer w.timerWakes)
      have before := paid.paid
      simp only [owed, notWritten, Bool.false_eq_true, if_false, Nat.add_zero] at total ⊢
      simp only [owed] at before
      omega
    · obtain ⟨ahead, payable⟩ := paid.asleep until_ asleep
      simp only [nextPing, notWritten, Bool.false_eq_true, if_false, Nat.add_zero]
      exact ⟨ahead, payable⟩
  · have isAwake : w.asleep = none := by
      simpa [byWriter] using awake
    refine ⟨paid.started.trans later, ?_, fun until_ asleep => ?_⟩
    · have credit : (if after.now < after.nextPing then 1 else 0) ≤ 1 := by split <;> omega
      have total := Nat.mul_le_mul_right (min maintainTick timerFloor)
        (Nat.add_le_add_left credit w.timerWakes)
      have before := paid.paid
      have least := Nat.mul_le_mul_right (min maintainTick timerFloor)
        (Nat.le_add_right w.timerWakes w.owed)
      simp only [owed, written, if_true, Nat.add_mul, Nat.one_mul] at *
      omega
    · rw [isAwake] at asleep
      cases asleep

theorem Paid.sleep (paid : Paid maintainTick w) (pingEvery lossFor : Nat) :
    Paid maintainTick
      { w with asleep := some (w.probe.pingWait pingEvery lossFor maintainTick) } := by
  refine ⟨paid.started, paid.paid, fun until_ asleep => ?_⟩
  obtain rfl := Option.some.inj asleep
  have before := paid.paid
  have started := paid.started
  by_cases short : w.probe.now < w.probe.nextPing
  · have exact_ : w.probe.pingWait pingEvery lossFor maintainTick = w.probe.nextPing := if_pos short
    simp only [owed, if_pos short] at before
    simp only [exact_]
    omega
  · have ahead := w.probe.pingWait_ahead pingEvery lossFor maintainTick (Nat.le_of_not_lt short)
    simp only [owed, if_neg short, Nat.add_zero] at before
    simp only [Nat.add_mul, Nat.one_mul]
    omega

theorem Paid.wake (paid : Paid maintainTick w) {until_ : Nat} (asleep : w.asleep = some until_)
    (passed : until_ ≤ w.probe.now) :
    Paid maintainTick { w with asleep := none, timerWakes := w.timerWakes + 1 } := by
  obtain ⟨ahead, payable⟩ := paid.asleep until_ asleep
  refine ⟨paid.started, ?_, fun _ impossible => by cases impossible⟩
  have none : ¬w.probe.now < w.probe.nextPing := Nat.not_lt.mpr (ahead.trans passed)
  simp only [owed, if_neg none, Nat.add_zero]
  omega

theorem Paid.step (paid : Paid maintainTick w) {action : SleeperAction}
    (taken : w.step maintainTick action = some next) : Paid maintainTick next := by
  cases action with
  | probe action =>
      simp only [Sleeper.step] at taken
      split at taken
      · cases taken
      · rename_i awake
        obtain ⟨after, stepped, rfl⟩ := Option.map_eq_some_iff.mp taken
        exact paid.probe stepped (by simpa using awake)
  | sleep pingEvery lossFor =>
      simp only [Sleeper.step] at taken
      split at taken
      · cases taken
        exact paid.sleep pingEvery lossFor
      · cases taken
  | wake =>
      simp only [Sleeper.step] at taken
      split at taken
      · rename_i until_ asleep
        split at taken
        · rename_i passed
          cases taken
          exact paid.wake asleep passed
        · cases taken
      · cases taken
  | interrupt =>
      cases taken
      exact ⟨paid.started, paid.paid, fun _ impossible => by cases impossible⟩

/-- The writer never spins: in any run its timer fires at most once for each ping written and
once for each millisecond, or for each tick of maintenance when that is shorter. -/
theorem timer_wakes_bounded (reachable : (machine maintainTick).Reachable w) :
    w.timerWakes * min maintainTick timerFloor ≤
      w.probe.now - w.startedAt + w.pingsWritten * min maintainTick timerFloor := by
  have paid : Paid maintainTick w := by
    refine reachable.invariant (Paid maintainTick) ?_ fun w action next paid taken =>
      paid.step taken
    rintro w ⟨⟨now, stableUpHold, probe⟩, awake, wakes, pings, started⟩
    refine ⟨started.le, ?_, fun _ asleep => ?_⟩
    · simp [owed, wakes, probe]
    · rw [awake] at asleep
      cases asleep
  have total := Nat.mul_le_mul_right (min maintainTick timerFloor)
    (Nat.le_add_right w.timerWakes w.owed)
  exact total.trans paid.paid

/-- A silent path: the writer sleeps, wakes, sends its ping and sleeps again. -/
def silent : List SleeperAction :=
  [.sleep 10000 20000, .probe (.elapse 10000), .wake, .probe (.ping 10000), .probe (.elapse 100),
    .probe (.pinged 10000), .sleep 10000 20000, .probe (.elapse 10000), .wake,
    .sleep 10000 20000, .probe (.elapse 10000), .wake]

theorem timer_wakes_bounded_silent :
    ∃ w, (machine 5000).run ⟨.fresh, none, 0, 0, 0⟩ silent = some w ∧
      w.timerWakes = 3 ∧ w.pingsWritten = 1 ∧
      w.timerWakes * 1000 ≤ w.probe.now - w.startedAt + w.pingsWritten * 1000 := by
  have history : ((machine 5000).run ⟨.fresh, none, 0, 0, 0⟩ silent).map (fun w =>
      (w.timerWakes, w.pingsWritten)) = some (3, 1) := by decide +kernel
  obtain ⟨w, ran, counted⟩ := Option.map_eq_some_iff.mp history
  obtain ⟨wakes, pings⟩ := Prod.mk.inj counted
  have reachable : (machine 5000).Reachable w :=
    Machine.Reachable.run (.start ⟨⟨0, 10000000, rfl⟩, rfl, rfl, rfl, rfl⟩) ran
  exact ⟨w, ran, wakes, pings, timer_wakes_bounded reachable⟩

end Sleeper

/-! ## An idle path is probed -/

namespace Probe

/-- The instant the next ping is due when nothing is received. -/
def dueAt (s : Probe) (pingEvery : Nat) : Nat := max s.nextPing (s.lastRx + pingEvery)

def slept (s : Probe) (pingEvery lossFor maintainTick : Nat) : Probe :=
  { s with now := s.pingWait pingEvery lossFor maintainTick }

theorem pingDue_iff {s : Probe} {pingEvery : Nat} (alive : s.alive = true)
    (idle : s.book.pending.size = 0) (past : s.lastRx ≤ s.now) :
    s.pingDue pingEvery = true ↔ s.dueAt pingEvery ≤ s.now := by
  simp only [pingDue, shouldSendPing, alive, idle, beq_self_eq_true, Bool.true_and,
    Bool.and_eq_true, decide_eq_true_eq, dueAt]
  omega

/-- The state after so many turns in which nothing but the timer wakes the writer. -/
def afterSleeps (pingEvery lossFor maintainTick : Nat) : Nat → Probe → Probe
  | 0, s => s
  | count + 1, s => afterSleeps pingEvery lossFor maintainTick count
      (s.slept pingEvery lossFor maintainTick)

variable {s : Probe} {pingEvery lossFor maintainTick : Nat}

theorem pingWait_of_idle (idle : s.book.pending.size = 0) :
    s.pingWait pingEvery lossFor maintainTick =
      if s.now < s.nextPing then s.nextPing
      else if s.now - s.lastRx < pingEvery then
        s.now + max (pingEvery - (s.now - s.lastRx)) timerFloor
      else s.now + max pingEvery timerFloor := by
  have none : s.book.pendingPingAge s.now = none := by
    have empty : s.book.pending.entries = [] := List.length_eq_zero_iff.mp idle
    rw [PingBook.pendingPingAge, empty]
    rfl
  simp only [pingWait, none]

theorem slept_past_next (idle : s.book.pending.size = 0) (past : s.lastRx ≤ s.now)
    (passed : s.nextPing ≤ s.now) (early : s.now < s.dueAt pingEvery) :
    s.dueAt pingEvery ≤ (s.slept pingEvery lossFor maintainTick).now ∧
      (s.slept pingEvery lossFor maintainTick).now ≤ s.dueAt pingEvery + timerFloor := by
  simp only [slept, pingWait_of_idle idle, Nat.not_lt.mpr passed, if_false]
  simp only [dueAt] at *
  rw [if_pos (by omega)]
  omega

/-- When nothing else happens on an alive path without a ping in flight, the timer fires at most
twice before the ping is due, and then at most a millisecond late. -/
theorem probe_on_time (alive : s.alive = true) (idle : s.book.pending.size = 0)
    (past : s.lastRx ≤ s.now) :
    ∃ count ≤ 2, let woken := afterSleeps pingEvery lossFor maintainTick count s
      woken.pingDue pingEvery = true ∧ woken.now ≤ max s.now (s.dueAt pingEvery) + timerFloor := by
  rcases Nat.lt_or_ge s.now (s.dueAt pingEvery) with early | due
  · rcases Nat.lt_or_ge s.now s.nextPing with short | passed
    · let once := s.slept pingEvery lossFor maintainTick
      have woken : once.now = s.nextPing := by
        change s.pingWait pingEvery lossFor maintainTick = s.nextPing
        rw [pingWait_of_idle idle, if_pos short]
      have oncePast : once.lastRx ≤ once.now := by
        rw [woken]
        exact past.trans short.le
      rcases Nat.lt_or_ge once.now (once.dueAt pingEvery) with stillEarly | due
      · have twice := @slept_past_next once pingEvery lossFor maintainTick idle oncePast woken.ge
          stillEarly
        refine ⟨2, le_rfl, ?_, ?_⟩
        · exact (@pingDue_iff (once.slept pingEvery lossFor maintainTick) pingEvery alive idle
            (oncePast.trans (stillEarly.le.trans twice.1))).mpr twice.1
        · exact twice.2.trans (Nat.add_le_add_right (Nat.le_max_right _ _) _)
      · refine ⟨1, Nat.le_succ 1, (@pingDue_iff once pingEvery alive idle oncePast).mpr due, ?_⟩
        change once.now ≤ _
        rw [woken]
        simp only [dueAt]
        omega
    · have once := @slept_past_next s pingEvery lossFor maintainTick idle past passed early
      refine ⟨1, Nat.le_succ 1, ?_, ?_⟩
      · exact (@pingDue_iff (s.slept pingEvery lossFor maintainTick) pingEvery alive idle
          (past.trans (early.le.trans once.1))).mpr once.1
      · exact once.2.trans (Nat.add_le_add_right (Nat.le_max_right _ _) _)
  · exact ⟨0, Nat.zero_le 2, (pingDue_iff alive idle past).mpr due,
      (Nat.le_max_left _ _).trans (Nat.le_add_right _ _)⟩

def halfway : Probe := { Probe.fresh with now := 8000, lastRx := 5000, nextPing := 10000 }

/-- The timer fires at the next ping's instant, and again when the idle gate opens. -/
theorem probe_on_time_halfway :
    ∃ count ≤ 2, (afterSleeps 10000 20000 5000 count halfway).pingDue 10000 = true ∧
      (afterSleeps 10000 20000 5000 count halfway).now ≤ 16000 :=
  @probe_on_time halfway 10000 20000 5000 rfl rfl (by decide)

end Probe

end NyaLink
