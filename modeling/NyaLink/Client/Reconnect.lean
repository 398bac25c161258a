import NyaLink.Library.Amortized
import NyaLink.Stream.Receive
import Mathlib.Tactic.Ring

/-!
# The supervisor of a link

`run_link` dials, serves the path until it is gone, sleeps, and dials again.  The pause doubles
up to a limit; it falls back to the first pause when the last path of this name had lived for the
hold.  Times are in microseconds.  The session dies, a handshake ends and a path goes down at any
time; `start_path_fd` refuses a path on a dead session or a full table.  The counts of dials and
of fallbacks are history.
-/

namespace NyaLink

/-- The part of `Tuning` that `run_link` reads. -/
structure ReconnectConfig where
  backoffMin : Nat
  backoffMax : Nat
  stableUpHold : Nat
  handshakeTimeout : Nat
  backoffMin_pos : 0 < backoffMin
  backoffMax_pos : 0 < backoffMax

def ReconnectConfig.standard : ReconnectConfig :=
  ⟨200000, 2000000, 1000000, 3000000, by decide, by decide⟩

inductive SupervisorPhase where
  | idle
  | dialing (timeout since : Nat)
  | electing (timeout : Nat)
  | shaking (timeout since : Nat)
  | shaken
  | up (since : Nat)
  /-- `path_failed` ran; the path's task winds up. -/
  | down (since : Nat)
  /-- `connect_one` has returned `Ok`; the path may have been refused. -/
  | served (refused : Bool)
  | judged
  | sleeping (since : Nat)
  | returned
  deriving DecidableEq

structure Supervisor where
  now : Nat
  dead : Bool
  /-- The entries of `last_lived` and of `last_rtt_us` for this path name. -/
  lastLived : Option Nat
  lastRtt : Option Nat
  backoff : Nat
  phase : SupervisorPhase
  reconnectFail : Nat
  dials : Nat
  resets : Nat
  staleResets : Nat
  deriving DecidableEq

inductive SupervisorAction where
  | elapse (time : Nat)
  | die
  /-- The branch of `wait_dead` is first. -/
  | leave
  | dial
  | tlsDone
  | tlsFailed
  | tlsTimeout
  | elected
  | createLost
  | shakeDone
  | shakeFailed
  | shakeTimeout
  | start
  | refuse
  | pathFailed (rtt : Option Nat)
  | pathGone
  | judge
  | test
  | wake
  deriving DecidableEq

namespace Supervisor

variable (cfg : ReconnectConfig)

def handshakeTimeoutFor (lastRtt : Option Nat) : Nat :=
  match lastRtt with
  | none => cfg.handshakeTimeout
  | some rtt => clamp (rtt * 20) 400000 3000000

def pathLivedStable (s : Supervisor) : Bool := s.lastLived.any fun lived => cfg.stableUpHold ≤ lived

def linkFailed (s : Supervisor) : Supervisor :=
  { s with phase := .judged, reconnectFail := s.reconnectFail + 1 }

/-- `path_failed` stores the RTT when it is known; the age of the path is what it has lived. -/
def recordDown (s : Supervisor) (since : Nat) (rtt : Option Nat) : Supervisor :=
  { s with
    lastRtt := rtt <|> s.lastRtt
    lastLived := some (s.now - since)
    phase := .down since }

def resetBackoff (s : Supervisor) (refused : Bool) : Supervisor :=
  { s with
    backoff := cfg.backoffMin
    resets := s.resets + 1
    staleResets := s.staleResets + refused.toNat }

def judgeServed (s : Supervisor) (refused : Bool) : Supervisor :=
  { (if s.pathLivedStable cfg then s.resetBackoff cfg refused else s) with phase := .judged }

/-- One step of the supervisor, from the phase it is in. -/
def advance (s : Supervisor) : SupervisorPhase → SupervisorAction → Option Supervisor
  | .idle, .dial =>
      if s.dead then some { s with phase := .returned }
      else
        some { s with
          phase := .dialing (handshakeTimeoutFor cfg s.lastRtt) s.now
          dials := s.dials + 1 }
  | .dialing timeout _, .tlsDone => some { s with phase := .electing timeout }
  | .dialing _ _, .tlsFailed => some s.linkFailed
  | .dialing timeout since, .tlsTimeout =>
      if since + timeout ≤ s.now then some s.linkFailed else none
  | .electing timeout, .elected => some { s with phase := .shaking timeout s.now }
  | .electing _, .createLost => some s.linkFailed
  | .shaking _ _, .shakeDone => some { s with phase := .shaken }
  | .shaking _ _, .shakeFailed => some s.linkFailed
  | .shaking timeout since, .shakeTimeout =>
      if since + timeout ≤ s.now then some s.linkFailed else none
  | .shaken, .start => if s.dead then none else some { s with phase := .up s.now }
  | .shaken, .refuse => some { s with phase := .served true }
  | .up since, .pathFailed rtt => some (s.recordDown since rtt)
  -- A reader may have put the path up again in between.
  | .down since, .pathFailed rtt => some (s.recordDown since rtt)
  | .down _, .pathGone => some { s with phase := .served false }
  | .served refused, .judge => some (s.judgeServed cfg refused)
  | .judged, .test =>
      some { s with phase := if s.dead then .returned else .sleeping s.now }
  | .sleeping since, .wake =>
      if since + s.backoff ≤ s.now then
        some { s with phase := .idle, backoff := min (s.backoff * 2) cfg.backoffMax }
      else none
  | _, _ => none

/-- Where the supervisor waits in a `select!` with `wait_dead`. -/
def attends : SupervisorPhase → Bool
  | .idle | .shaken | .served _ | .judged | .returned => false
  | _ => true

def step (s : Supervisor) : SupervisorAction → Option Supervisor
  | .elapse time => some { s with now := s.now + time }
  | .die => some { s with dead := true }
  | .leave => if s.dead && attends s.phase then some { s with phase := .returned } else none
  | action => s.advance cfg s.phase action

/-- Any instant; nothing is known of the path. -/
def Initial (s : Supervisor) : Prop :=
  ∃ now, s = ⟨now, false, none, none, cfg.backoffMin, .idle, 0, 0, 0, 0⟩

def machine : Machine Supervisor SupervisorAction := ⟨Initial cfg, step cfg⟩

/-! ## What a step does -/

/-- Phases in which nothing is owed to the next dial or the next fallback. -/
def isPlain : SupervisorPhase → Bool
  | .dialing .. | .electing _ | .shaking .. | .shaken | .judged | .returned => true
  | _ => false

inductive Moves (s : Supervisor) : Supervisor → Prop where
  | elapsed (time : Nat) : Moves s { s with now := s.now + time }
  | died : Moves s { s with dead := true }
  | plain (phase : SupervisorPhase) (reconnectFail : Nat) (goesTo : isPlain phase = true) :
      Moves s { s with phase, reconnectFail }
  | dialed (timeout : Nat) (at_ : s.phase = .idle) :
      Moves s { s with phase := .dialing timeout s.now, dials := s.dials + 1 }
  | started : Moves s { s with phase := .up s.now }
  | refused : Moves s { s with phase := .served true }
  | recorded (since : Nat) (rtt : Option Nat) (at_ : s.phase = .up since ∨ s.phase = .down since) :
      Moves s (s.recordDown since rtt)
  | gone (since : Nat) (at_ : s.phase = .down since) : Moves s { s with phase := .served false }
  | judged (refused : Bool) (at_ : s.phase = .served refused) : Moves s (s.judgeServed cfg refused)
  | rested (alive : s.dead = false) : Moves s { s with phase := .sleeping s.now }
  | woken (since : Nat) (at_ : s.phase = .sleeping since) (due : since + s.backoff ≤ s.now) :
      Moves s { s with phase := .idle, backoff := min (s.backoff * 2) cfg.backoffMax }

variable {cfg} {s next t : Supervisor}

theorem moves_of_advance {action : SupervisorAction}
    (taken : s.advance cfg s.phase action = some next) : Moves cfg s next := by
  have timedOut : ∀ {due : Prop} [Decidable due],
      (if due then some s.linkFailed else none) = some next → Moves cfg s next := by
    intro due _ ended
    split at ended
    · cases ended
      exact .plain .judged _ rfl
    · cases ended
  unfold advance at taken
  split at taken
  · split at taken
    · cases taken
      exact .plain .returned s.reconnectFail rfl
    · cases taken
      exact .dialed _ ‹_›
  · cases taken
    exact .plain (.electing _) s.reconnectFail rfl
  · cases taken
    exact .plain .judged _ rfl
  · exact timedOut taken
  · cases taken
    exact .plain (.shaking _ _) s.reconnectFail rfl
  · cases taken
    exact .plain .judged _ rfl
  · cases taken
    exact .plain .shaken s.reconnectFail rfl
  · cases taken
    exact .plain .judged _ rfl
  · exact timedOut taken
  · split at taken
    · cases taken
    · cases taken
      exact .started
  · cases taken
    exact .refused
  · cases taken
    exact .recorded _ _ (.inl ‹_›)
  · cases taken
    exact .recorded _ _ (.inr ‹_›)
  · cases taken
    exact .gone _ ‹_›
  · cases taken
    exact .judged _ ‹_›
  · cases taken
    split
    · exact .plain .returned s.reconnectFail rfl
    · exact .rested (Bool.eq_false_iff.mpr ‹_›)
  · split at taken
    · cases taken
      exact .woken _ ‹_› ‹_›
    · cases taken
  · cases taken

theorem moves_of_step {action : SupervisorAction} (taken : s.step cfg action = some next) :
    Moves cfg s next := by
  unfold step at taken
  split at taken
  · cases taken
    exact .elapsed _
  · cases taken
    exact .died
  · split at taken
    · cases taken
      exact .plain .returned s.reconnectFail rfl
    · cases taken
  · exact moves_of_advance taken

/-- What every supervisor keeps: its pause is not below the first one or the limit, and what a
path that winds up has lived is on record. -/
structure Sound (cfg : ReconnectConfig) (s : Supervisor) : Prop where
  backoff : min cfg.backoffMin cfg.backoffMax ≤ s.backoff
  lived : ∀ since, s.phase = .down since →
    ∃ lived, s.lastLived = some lived ∧ lived ≤ s.now - since

theorem Sound.backoff_pos (sound : s.Sound cfg) : 0 < s.backoff :=
  (Nat.lt_min.mpr ⟨cfg.backoffMin_pos, cfg.backoffMax_pos⟩).trans_le sound.backoff

theorem Sound.moves (sound : s.Sound cfg) (moves : Moves cfg s next) : next.Sound cfg := by
  cases moves with
  | elapsed time =>
      refine ⟨sound.backoff, fun since down => ?_⟩
      obtain ⟨lived, recorded, within⟩ := sound.lived since down
      exact ⟨lived, recorded, within.trans (Nat.sub_le_sub_right (Nat.le_add_right _ _) _)⟩
  | died => exact ⟨sound.backoff, sound.lived⟩
  | plain phase reconnectFail goesTo =>
      refine ⟨sound.backoff, fun since down => ?_⟩
      obtain rfl : phase = .down since := down
      cases goesTo
  | dialed timeout at_ => exact ⟨sound.backoff, fun since down => by cases down⟩
  | started => exact ⟨sound.backoff, fun since down => by cases down⟩
  | refused => exact ⟨sound.backoff, fun since down => by cases down⟩
  | recorded since rtt at_ =>
      refine ⟨sound.backoff, fun other down => ?_⟩
      obtain rfl : since = other := SupervisorPhase.down.inj down
      exact ⟨_, rfl, Nat.le_refl _⟩
  | gone since at_ => exact ⟨sound.backoff, fun since down => by cases down⟩
  | judged refused at_ =>
      refine ⟨?_, fun since down => ?_⟩
      · unfold judgeServed
        split
        · exact Nat.min_le_left _ _
        · exact sound.backoff
      · cases down
  | rested alive => exact ⟨sound.backoff, fun since down => by cases down⟩
  | woken since at_ due =>
      refine ⟨?_, fun since down => by cases down⟩
      have least := sound.backoff
      show min cfg.backoffMin cfg.backoffMax ≤ min (s.backoff * 2) cfg.backoffMax
      omega

theorem sound_of_reachable (reachable : (machine cfg).Reachable s) : s.Sound cfg := by
  refine reachable.invariant (Sound cfg) ?_ fun s action next sound taken =>
    sound.moves (moves_of_step taken)
  rintro s ⟨now, rfl⟩
  exact ⟨Nat.min_le_left _ _, fun since down => by cases down⟩

/-! ## Pauses pay for dials -/

variable {unit : Nat}

/-- What time has already paid towards the next dial, at a price of `unit`: nothing while the pause
is shorter than that. -/
def saved (unit : Nat) (s : Supervisor) : Nat :=
  match s.phase with
  | .idle => unit
  | .sleeping since => if unit ≤ s.backoff then min (s.now - since) unit else 0
  | _ => 0

theorem saved_le (unit : Nat) (s : Supervisor) : s.saved unit ≤ unit := by
  unfold saved
  split
  · exact le_rfl
  · split
    · exact Nat.min_le_right _ _
    · exact Nat.zero_le _
  · exact Nat.zero_le _

theorem saved_elapsed (unit : Nat) (s : Supervisor) (time : Nat) :
    saved unit { s with now := s.now + time } ≤ s.saved unit + time := by
  unfold saved
  cases s.phase with
  | sleeping since =>
      dsimp only
      split
      · omega
      · exact Nat.zero_le _
  | _ => exact Nat.le_add_right _ _

theorem saved_plain {phase : SupervisorPhase} (plain : isPlain phase = true)
    (reconnectFail : Nat) : saved unit { s with phase, reconnectFail } = 0 := by
  unfold saved
  cases phase with
  | idle => cases plain
  | sleeping since => cases plain
  | _ => rfl

def dialPotential (unit : Nat) (s : Supervisor) : Nat :=
  unit * (s.dials + doublings unit s.backoff) + s.saved unit

/-- The clock, and the doublings that the fallbacks have given back. -/
def dialPaid (cfg : ReconnectConfig) (unit : Nat) (s : Supervisor) : Nat :=
  s.now + unit * (doublings unit cfg.backoffMin * s.resets)

theorem dial_step_same (now : next.now = s.now) (dials : next.dials = s.dials)
    (backoff : next.backoff = s.backoff) (resets : next.resets = s.resets)
    (spent : next.saved unit = 0) :
    next.dialPotential unit + s.dialPaid cfg unit ≤
      s.dialPotential unit + next.dialPaid cfg unit := by
  unfold dialPotential dialPaid
  rw [now, dials, backoff, resets, spent]
  omega

theorem dial_step (sound : s.Sound cfg) (within : unit ≤ cfg.backoffMax)
    (moves : Moves cfg s next) :
    next.dialPotential unit + s.dialPaid cfg unit ≤
      s.dialPotential unit + next.dialPaid cfg unit := by
  cases moves with
  | elapsed time =>
      have later := s.saved_elapsed unit time
      unfold dialPotential dialPaid
      dsimp only
      omega
  | died => exact le_rfl
  | plain phase reconnectFail goesTo => exact dial_step_same rfl rfl rfl rfl (saved_plain goesTo _)
  | dialed timeout at_ =>
      have ready : s.saved unit = unit := by rw [saved, at_]
      have bought : unit * (s.dials + 1 + doublings unit s.backoff) =
          unit * (s.dials + doublings unit s.backoff) + unit := by ring
      show unit * (s.dials + 1 + doublings unit s.backoff) + 0 + s.dialPaid cfg unit ≤
        unit * (s.dials + doublings unit s.backoff) + s.saved unit + s.dialPaid cfg unit
      omega
  | started => exact dial_step_same rfl rfl rfl rfl rfl
  | refused => exact dial_step_same rfl rfl rfl rfl rfl
  | recorded since rtt at_ => exact dial_step_same rfl rfl rfl rfl rfl
  | gone since at_ => exact dial_step_same rfl rfl rfl rfl rfl
  | judged refused at_ =>
      unfold judgeServed
      split
      · have given : unit * (s.dials + doublings unit cfg.backoffMin) +
            unit * (doublings unit cfg.backoffMin * s.resets) =
            unit * s.dials + unit * (doublings unit cfg.backoffMin * (s.resets + 1)) := by ring
        have kept : unit * s.dials ≤ unit * (s.dials + doublings unit s.backoff) :=
          Nat.mul_le_mul_left _ (Nat.le_add_right _ _)
        show unit * (s.dials + doublings unit cfg.backoffMin) + 0 +
            (s.now + unit * (doublings unit cfg.backoffMin * s.resets)) ≤
          unit * (s.dials + doublings unit s.backoff) + s.saved unit +
            (s.now + unit * (doublings unit cfg.backoffMin * (s.resets + 1)))
        omega
      · exact dial_step_same rfl rfl rfl rfl rfl
  | rested alive =>
      refine dial_step_same rfl rfl rfl rfl ?_
      simp [saved]
  | woken since at_ due =>
      have asleep : s.saved unit = if unit ≤ s.backoff then min (s.now - since) unit else 0 := by
        rw [saved, at_]
      show unit * (s.dials + doublings unit (min (s.backoff * 2) cfg.backoffMax)) + unit +
          s.dialPaid cfg unit ≤
        unit * (s.dials + doublings unit s.backoff) + s.saved unit + s.dialPaid cfg unit
      by_cases long : unit ≤ s.backoff
      · -- The pause itself was worth a dial.
        have whole : s.saved unit = unit := by
          rw [asleep, if_pos long]
          omega
        have positive := sound.backoff_pos
        have limit := cfg.backoffMax_pos
        rw [doublings_eq_zero (by omega) (by omega), doublings_eq_zero positive long, whole]
      · -- A doubling pays for the dial.
        have fewer := doublings_double sound.backoff_pos (Nat.lt_of_not_le long) within
        have scaled := Nat.mul_le_mul_left unit (Nat.add_le_add_left fewer s.dials)
        rw [← Nat.add_assoc, Nat.mul_succ] at scaled
        omega

theorem doublings_backoff_le (sound : s.Sound cfg) (within : unit ≤ cfg.backoffMax) :
    doublings unit s.backoff ≤ doublings unit cfg.backoffMin := by
  rcases min_le_iff.mp sound.backoff with notFirst | limit
  · exact doublings_antitone cfg.backoffMin_pos notFirst
  · rw [doublings_eq_zero sound.backoff_pos (within.trans limit)]
    exact Nat.zero_le _

/-! ## A life pays for a fallback -/

/-- What the path of the supervisor has paid towards a fallback by its life. -/
def livedFor (hold : Nat) (s : Supervisor) : Nat :=
  match s.phase with
  | .up since => min (s.now - since) hold
  | .down since => min (s.now - since) hold
  | .served false => min (s.lastLived.getD 0) hold
  | _ => 0

theorem livedFor_le (hold : Nat) (s : Supervisor) : s.livedFor hold ≤ hold := by
  unfold livedFor
  split
  · exact Nat.min_le_right _ _
  · exact Nat.min_le_right _ _
  · exact Nat.min_le_right _ _
  · exact Nat.zero_le _

theorem livedFor_elapsed (hold : Nat) (s : Supervisor) (time : Nat) :
    livedFor hold { s with now := s.now + time } ≤ s.livedFor hold + time := by
  unfold livedFor
  cases s.phase with
  | up since =>
      dsimp only
      omega
  | down since =>
      dsimp only
      omega
  | served refused => cases refused <;> exact Nat.le_add_right _ _
  | _ => exact Nat.le_add_right _ _

theorem livedFor_plain (hold : Nat) {phase : SupervisorPhase} (plain : isPlain phase = true)
    (reconnectFail : Nat) : livedFor hold { s with phase, reconnectFail } = 0 := by
  unfold livedFor
  cases phase with
  | up since => cases plain
  | down since => cases plain
  | served refused => cases plain
  | _ => rfl

def lifePotential (hold : Nat) (s : Supervisor) : Nat := hold * s.resets + s.livedFor hold

def lifePaid (hold : Nat) (s : Supervisor) : Nat := s.now + hold * s.staleResets

theorem life_step_same {hold : Nat} (now : next.now = s.now) (resets : next.resets = s.resets)
    (staleResets : next.staleResets = s.staleResets)
    (lived : next.livedFor hold ≤ s.livedFor hold) :
    next.lifePotential hold + s.lifePaid hold ≤ s.lifePotential hold + next.lifePaid hold := by
  unfold lifePotential lifePaid
  rw [now, resets, staleResets]
  omega

theorem life_step_judged {refused : Bool} (at_ : s.phase = .served refused) :
    (s.judgeServed cfg refused).lifePotential cfg.stableUpHold + s.lifePaid cfg.stableUpHold ≤
      s.lifePotential cfg.stableUpHold +
        (s.judgeServed cfg refused).lifePaid cfg.stableUpHold := by
  unfold judgeServed
  split
  · rename_i stable
    obtain ⟨lived, recorded, long⟩ := (Option.any_eq_true _ _).mp stable
    show cfg.stableUpHold * (s.resets + 1) + 0 + (s.now + cfg.stableUpHold * s.staleResets) ≤
      cfg.stableUpHold * s.resets + s.livedFor cfg.stableUpHold +
        (s.now + cfg.stableUpHold * (s.staleResets + refused.toNat))
    cases refused with
    | false =>
        have whole : s.livedFor cfg.stableUpHold = cfg.stableUpHold := by
          simp only [livedFor, at_, recorded, Option.getD_some]
          exact Nat.min_eq_right (of_decide_eq_true long)
        rw [whole, Nat.mul_succ, Bool.toNat_false, Nat.add_zero s.staleResets]
        omega
    | true =>
        rw [Bool.toNat_true, Nat.mul_succ, Nat.mul_succ]
        omega
  · exact life_step_same rfl rfl rfl (Nat.zero_le _)

theorem life_step (sound : s.Sound cfg) (moves : Moves cfg s next) :
    next.lifePotential cfg.stableUpHold + s.lifePaid cfg.stableUpHold ≤
      s.lifePotential cfg.stableUpHold + next.lifePaid cfg.stableUpHold := by
  cases moves with
  | elapsed time =>
      have later := s.livedFor_elapsed cfg.stableUpHold time
      unfold lifePotential lifePaid
      dsimp only
      omega
  | died => exact le_rfl
  | plain phase reconnectFail goesTo =>
      refine life_step_same rfl rfl rfl ?_
      rw [livedFor_plain _ goesTo]
      exact Nat.zero_le _
  | dialed timeout at_ => exact life_step_same rfl rfl rfl (Nat.zero_le _)
  | started =>
      refine life_step_same rfl rfl rfl ?_
      simp [livedFor]
  | refused => exact life_step_same rfl rfl rfl (Nat.zero_le _)
  | recorded since rtt at_ =>
      refine life_step_same rfl rfl rfl ?_
      rcases at_ with up | down
      · simp [livedFor, recordDown, up]
      · simp [livedFor, recordDown, down]
  | gone since at_ =>
      refine life_step_same rfl rfl rfl ?_
      obtain ⟨lived, recorded, within⟩ := sound.lived since at_
      simp only [livedFor, at_, recorded, Option.getD_some]
      omega
  | judged refused at_ => exact life_step_judged at_
  | rested alive => exact life_step_same rfl rfl rfl (Nat.zero_le _)
  | woken since at_ due => exact life_step_same rfl rfl rfl (Nat.zero_le _)

/-! ## The bounds -/

theorem mono_of_moves (moves : Moves cfg s next) :
    s.now ≤ next.now ∧ s.resets ≤ next.resets ∧ s.staleResets ≤ next.staleResets := by
  cases moves with
  | elapsed time => exact ⟨Nat.le_add_right _ _, le_rfl, le_rfl⟩
  | judged refused at_ =>
      unfold judgeServed
      split
      · exact ⟨le_rfl, Nat.le_add_right _ _, Nat.le_add_right _ _⟩
      · exact ⟨le_rfl, le_rfl, le_rfl⟩
  | _ => exact ⟨le_rfl, le_rfl, le_rfl⟩

theorem mono_of_run {schedule : List SupervisorAction}
    (ran : (machine cfg).run s schedule = some t) :
    s.now ≤ t.now ∧ s.resets ≤ t.resets ∧ s.staleResets ≤ t.staleResets := by
  induction schedule generalizing s with
  | nil =>
      cases ran
      exact ⟨le_rfl, le_rfl, le_rfl⟩
  | cons action rest inductionHypothesis =>
      obtain ⟨next, taken, remaining⟩ := Option.bind_eq_some_iff.mp ran
      have first := mono_of_moves (moves_of_step taken)
      have later := inductionHypothesis remaining
      exact ⟨first.1.trans later.1, first.2.1.trans later.2.1, first.2.2.trans later.2.2⟩

/-- Over any part of any run, at every price up to the longest pause: time pays for every dial but
one, and but for the doublings up to that price, which each fallback gives back.  With the least
pause as the price there are none.  A fallback in turn costs the life of a path, except after a
refused one. -/
theorem dials_bounded (reachable : (machine cfg).Reachable s) {schedule : List SupervisorAction}
    (ran : (machine cfg).run s schedule = some t) :
    (∀ unit ≤ cfg.backoffMax, unit * (t.dials - s.dials) ≤
      unit * (1 + doublings unit cfg.backoffMin * (1 + (t.resets - s.resets))) +
        (t.now - s.now)) ∧
    cfg.stableUpHold * (t.resets - s.resets) ≤
      cfg.stableUpHold * (1 + (t.staleResets - s.staleResets)) + (t.now - s.now) := by
  obtain ⟨now, resets, staleResets⟩ := mono_of_run ran
  refine ⟨fun unit within => ?_, ?_⟩
  · have sound := sound_of_reachable reachable
    have spent := reachable.amortized (dialPotential unit) (dialPaid cfg unit)
      (fun s action next earlier taken =>
        dial_step (sound_of_reachable earlier) within (moves_of_step taken)) ran
    have left := Nat.mul_le_mul_left unit (doublings_backoff_le sound within)
    have saved := s.saved_le unit
    obtain ⟨more, resets⟩ := Nat.exists_eq_add_of_le resets
    unfold dialPotential dialPaid at spent
    rw [resets] at spent ⊢
    rw [Nat.add_sub_cancel_left, Nat.mul_sub]
    simp only [Nat.mul_add, Nat.mul_one] at spent ⊢
    omega
  · have spent := reachable.amortized (lifePotential cfg.stableUpHold)
      (lifePaid cfg.stableUpHold) (fun s action next earlier taken =>
        life_step (sound_of_reachable earlier) (moves_of_step taken)) ran
    have most := s.livedFor_le cfg.stableUpHold
    obtain ⟨more, resets⟩ := Nat.exists_eq_add_of_le resets
    obtain ⟨moreStale, staleResets⟩ := Nat.exists_eq_add_of_le staleResets
    unfold lifePotential lifePaid at spent
    rw [resets, staleResets] at spent ⊢
    rw [Nat.add_sub_cancel_left, Nat.add_sub_cancel_left]
    simp only [Nat.mul_add, Nat.mul_one] at spent ⊢
    omega

def life : List SupervisorAction :=
  [.dial, .tlsDone, .elected, .shakeDone, .start, .elapse 1000000, .pathFailed (some 20000),
    .pathGone, .judge, .test, .elapse 200000, .wake]

def refusedRound (pause : Nat) : List SupervisorAction :=
  [.dial, .tlsDone, .elected, .shakeDone, .refuse, .judge, .test, .elapse pause, .wake]

def fresh : Supervisor := ⟨0, false, none, none, 200000, .idle, 0, 0, 0, 0⟩

theorem dials_bounded_thenRefused :
    ∃ t, (machine .standard).run fresh (life ++ refusedRound 200000) = some t ∧ t.dials = 2 ∧
      t.resets = 2 ∧ 2000000 * (t.dials - fresh.dials) ≤ 2000000 * (1 + 4 * (1 + t.resets)) +
        t.now := by
  have history : ((machine .standard).run fresh (life ++ refusedRound 200000)).map
      (fun t => (t.dials, t.resets)) = some (2, 2) := by decide +kernel
  obtain ⟨t, ran, made⟩ := Option.map_eq_some_iff.mp history
  obtain ⟨dials, resets⟩ := Prod.mk.inj made
  have reachable : (machine .standard).Reachable fresh := .start ⟨0, rfl⟩
  have bound := (dials_bounded reachable ran).1 2000000 (by decide)
  have four : doublings 2000000 ReconnectConfig.standard.backoffMin = 4 := by decide +kernel
  rw [four] at bound
  exact ⟨t, ran, dials, resets, bound⟩

def afterRefusal (cfg : ReconnectConfig) (s : Supervisor) : Supervisor :=
  { s with
    now := s.now + cfg.backoffMin
    backoff := min (cfg.backoffMin * 2) cfg.backoffMax
    phase := .idle
    dials := s.dials + 1
    resets := s.resets + 1
    staleResets := s.staleResets + 1 }

theorem run_refusedRound (idle : s.phase = .idle) (alive : s.dead = false)
    (stable : s.pathLivedStable cfg = true) :
    (machine cfg).run s (refusedRound cfg.backoffMin) = some (s.afterRefusal cfg) := by
  obtain ⟨now, dead, lastLived, lastRtt, backoff, phase, reconnectFail, dials, resets, stale⟩ := s
  obtain rfl : phase = .idle := idle
  obtain rfl : dead = false := alive
  have long : lastLived.any (fun lived => decide (cfg.stableUpHold ≤ lived)) = true := stable
  simp [Machine.run, machine, refusedRound, step, advance, judgeServed, pathLivedStable, long,
    resetBackoff, afterRefusal]

/-- Once the last path of this name has lived for the hold, each refusal falls back: while the
table is full the supervisor dials after every first pause. -/
theorem refused_dials (idle : s.phase = .idle) (alive : s.dead = false)
    (stable : s.pathLivedStable cfg = true) (rounds : Nat) :
    ∃ t, (machine cfg).run s (List.replicate rounds (refusedRound cfg.backoffMin)).flatten =
        some t ∧
      t.dials = s.dials + rounds ∧ t.now = s.now + rounds * cfg.backoffMin := by
  induction rounds generalizing s with
  | zero => exact ⟨s, rfl, rfl, by simp⟩
  | succ rounds inductionHypothesis =>
      obtain ⟨t, ran, dials, now⟩ := inductionHypothesis (s := s.afterRefusal cfg) rfl alive stable
      refine ⟨t, ?_, ?_, ?_⟩
      · rw [List.replicate_succ, List.flatten_cons, Machine.run_append,
          run_refusedRound idle alive stable, Option.bind_some, ran]
      · rw [dials]
        exact Nat.add_right_comm _ _ _
      · rw [now, Nat.succ_mul, Nat.add_comm (rounds * _), ← Nat.add_assoc]
        rfl

end Supervisor

end NyaLink
