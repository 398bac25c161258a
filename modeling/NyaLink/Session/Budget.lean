import NyaLink.Library.Machine
import NyaLink.Session.Scheduler
import Mathlib.Algebra.Group.Nat.Defs

/-!
# The send budget of a path

The budget controller: rounds of one loop, the growth test, the probe and its
verdict.  A call reads the clock twice, `now` for its samples and `mono` for the
freshness of what it looks up.  The factors are exact: a step is 15 percent over
the full bandwidth, growth is by 3/2 and a probe by 5/4.
-/

namespace NyaLink

def minRttWinUs : Nat := 10000000
def budgetFullRounds : Nat := 3
def budgetProbeEvery : Nat := 4
def budgetIdleShrink : Nat := 8
def budgetCapGain : Nat := 3

/-! ## Windowed extremes -/

structure Slot where
  v : Nat
  t : Nat
  deriving DecidableEq, Repr

/-- The best sample of a window, the best since, and the best since that one. -/
structure MinMax3 where
  best : Slot
  second : Slot
  third : Slot
  deriving DecidableEq, Repr

namespace MinMax3

def new : MinMax3 := ⟨⟨0, 0⟩, ⟨0, 0⟩, ⟨0, 0⟩⟩

def stale (m : MinMax3) (now win : Nat) : Bool :=
  decide (m.best.t = 0) || decide (win < now - m.third.t)

def get (m : MinMax3) (now win : Nat) : Nat := if m.stale now win then 0 else m.best.v

def reset (v t : Nat) : MinMax3 := ⟨⟨v, t⟩, ⟨v, t⟩, ⟨v, t⟩⟩

def expire (m : MinMax3) (fresh : Slot) (win : Nat) : MinMax3 :=
  let age := fresh.t - m.best.t
  if win < age then
    if win < fresh.t - m.second.t then ⟨m.third, fresh, fresh⟩ else ⟨m.second, m.third, fresh⟩
  else if m.second.t = m.best.t ∧ win / 4 < age then ⟨m.best, fresh, fresh⟩
  else if m.third.t = m.second.t ∧ win / 2 < age then { m with third := fresh }
  else m

def update (m : MinMax3) (v t win : Nat) : MinMax3 :=
  let t := max t 1
  let fresh : Slot := ⟨v, t⟩
  if m.best.v ≤ v || m.stale t win then reset v t
  else if m.second.v ≤ v then expire ⟨m.best, fresh, fresh⟩ fresh win
  else if m.third.v ≤ v then expire { m with third := fresh } fresh win
  else m.expire fresh win

/-- `WindowedMin::get`: the filter holds `u64Max - v`. -/
def getMin (m : MinMax3) (now win : Nat) : Option Nat :=
  if m.stale now win then none else some (u64Max - m.best.v)

def updateMin (m : MinMax3) (v t win : Nat) : MinMax3 := m.update (u64Max - v) t win

end MinMax3

/-! ## The controller's state -/

/-- The bulk side of a path.  `heldBudget` is history: `budget_bytes` when the last probe
began. -/
structure PathBudget where
  budgetFloor : Nat
  budgetCeil : Nat
  budget : Nat
  delivered : Nat
  ackRttAtUs : Nat
  bwFilter : MinMax3
  minRttFilter : MinMax3
  roundStartUs : Nat
  roundBwRef : Nat
  roundLimited : Bool
  flatRounds : Nat
  sagRounds : Nat
  idleRounds : Nat
  probeFrom : Nat
  roundDelivered : Nat
  prevRoundBw : Nat
  roundBwMax : MinMax3
  lastRoundBw : Nat
  heldBudget : Nat
  deriving DecidableEq, Repr

def Path.bwWindowUs (p : Path) : Nat :=
  max ((if p.rttKnown then p.rttUs else unknownRttUs) * 10) 100000

/-- `mul` with a factor of `num / den`.  The code goes through `f64`, whose rounding shows only from
2^50 bytes on. -/
def mulRatio (v num den : Nat) : Nat := min (v * num / den) u64Max

/-- What `end_budget_round` measured of the round it closes. -/
structure Round where
  bw : Nat
  floor : Nat
  ceil : Nat
  cur : Nat
  full : Nat
  pending : Nat
  carried : Nat
  limited : Bool
  probeFrom : Nat
  deriving DecidableEq, Repr

namespace Round

def stepNow (r : Round) : Bool := decide (r.full * 115 ≤ r.bw * 100)

def stepped (r : Round) : Bool := r.stepNow && decide (r.pending ≠ 0)

def sagged (r : Round) : Bool := decide (0 < r.full) && decide (r.bw * 100 < r.full * 85)

def followed (r : Round) : Bool := decide (r.full * 1075 ≤ r.bw * 1000)

def bounded (r : Round) (next : Nat) : Nat := clamp next r.floor r.ceil

def shrunk (r : Round) : Nat := max (min r.cur (satMul r.carried 2)) r.floor

end Round

namespace PathBudget

def new (floor ceil : Nat) : PathBudget where
  budgetFloor := floor
  budgetCeil := ceil
  budget := 65536
  delivered := 0
  ackRttAtUs := 0
  bwFilter := .new
  minRttFilter := .new
  roundStartUs := 0
  roundBwRef := 0
  roundLimited := false
  flatRounds := 0
  sagRounds := 0
  idleRounds := 0
  probeFrom := 0
  roundDelivered := 0
  prevRoundBw := 0
  roundBwMax := .new
  lastRoundBw := 0
  heldBudget := 0

def ceiling (b : PathBudget) : Nat := max b.budgetCeil b.budgetFloor

def budgetBytes (b : PathBudget) : Nat := clamp b.budget b.budgetFloor b.ceiling

def roomBytes (b : PathBudget) (p : Path) : Nat := b.budgetBytes - p.inflight

/-- `ack_rtt_fresh`: not after an idle longer than the bandwidth window. -/
def ackRttFresh (b : PathBudget) (p : Path) (mono : Nat) : Option Nat :=
  p.ackRtt.filter fun _ =>
    p.inflight != 0 || (b.ackRttAtUs != 0 && decide (mono - b.ackRttAtUs ≤ p.bwWindowUs))

/-- `min_rtt`: the least loop of the window, none while the RTT is unknown. -/
def minRtt (b : PathBudget) (p : Path) (mono : Nat) : Option Nat :=
  if p.rttKnown then some ((b.minRttFilter.getMin mono minRttWinUs).getD p.rttUs) else none

/-! ## A round -/

def roundBw (b : PathBudget) (now : Nat) : Nat :=
  min ((b.delivered - b.roundDelivered) * 1000000 / max (now - b.roundStartUs) 1) u64Max

def roundCeil (b : PathBudget) (p : Path) (mono bwMax : Nat) : Nat :=
  let cap :=
    match b.minRtt p mono with
    | some least =>
        if 0 < bwMax then
          max (satMul (bwMax * least / 1000000 % 2 ^ 64) budgetCapGain) b.budgetFloor
        else b.ceiling
    | none => b.ceiling
  max (min b.ceiling cap) b.budgetFloor

def beginClose (b : PathBudget) (p : Path) (now mono : Nat) : PathBudget × Round :=
  let bw := b.roundBw now
  let confirmed := if b.lastRoundBw = 0 then bw else min bw b.lastRoundBw
  let bwMax := b.roundBwMax.update confirmed now minRttWinUs
  let ceil := b.roundCeil p mono bwMax.best.v
  ({ b with
      roundStartUs := now
      roundDelivered := b.delivered
      lastRoundBw := bw
      roundBwMax := bwMax
      roundLimited := false
      probeFrom := 0 },
    { bw := bw
      floor := b.budgetFloor
      ceil := ceil
      cur := clamp b.budget b.budgetFloor ceil
      full := b.roundBwRef
      pending := b.prevRoundBw
      carried := bw * (b.ackRttFresh p mono).getD 0 / 1000000 % 2 ^ 64
      limited := b.roundLimited
      probeFrom := b.probeFrom })

def allow (b : PathBudget) (r : Round) : PathBudget :=
  if r.limited then
    let b := { b with idleRounds := 0 }
    if r.probeFrom ≠ 0 then
      if r.followed then
        { b with roundBwRef := r.bw, flatRounds := 0, budget := r.bounded r.cur }
      else { b with budget := r.bounded r.probeFrom }
    else if r.stepped then { b with budget := r.bounded (mulRatio r.cur 3 2) }
    else if r.stepNow then { b with budget := r.bounded r.cur }
    else
      let flat := b.flatRounds + 1
      if budgetFullRounds ≤ flat ∧ (flat - budgetFullRounds) % budgetProbeEvery = 0 then
        { b with
          flatRounds := flat
          probeFrom := r.cur
          heldBudget := b.budgetBytes
          budget := r.bounded (mulRatio r.cur 5 4) }
      else { b with flatRounds := flat, budget := r.bounded r.cur }
  else
    let idle := b.idleRounds + 1
    { b with
      idleRounds := idle
      budget := r.bounded (if budgetIdleShrink ≤ idle then r.shrunk else r.cur) }

def rearms (b : PathBudget) (r : Round) : Bool :=
  !r.stepNow && r.sagged && decide (budgetFullRounds ≤ b.sagRounds + 1)

/-- The step and sag tests, then the next allowance. -/
def closeRound (b : PathBudget) (r : Round) : PathBudget :=
  let b := { b with prevRoundBw := if r.stepNow && !r.stepped then r.bw else 0 }
  if r.stepped then
    allow { b with roundBwRef := min r.bw r.pending, flatRounds := 0, sagRounds := 0 } r
  else if r.stepNow then allow { b with sagRounds := 0 } r
  else if r.sagged then
    if b.rearms r then
      { b with
        roundBwRef := r.bw
        prevRoundBw := 0
        flatRounds := 0
        sagRounds := 0
        idleRounds := 0
        budget := r.bounded r.shrunk }
    else allow { b with sagRounds := b.sagRounds + 1 } r
  else allow { b with sagRounds := 0 } r

def endBudgetRound (b : PathBudget) (p : Path) (now mono : Nat) : PathBudget :=
  (b.beginClose p now mono).1.closeRound (b.beginClose p now mono).2

/-! ## Samples -/

def restart (b : PathBudget) (now : Nat) : PathBudget :=
  { b with
    budget := b.budgetFloor
    roundStartUs := now
    roundDelivered := b.delivered
    prevRoundBw := 0
    lastRoundBw := 0
    roundBwRef := 0
    roundLimited := false
    flatRounds := 0
    sagRounds := 0
    idleRounds := 0
    probeFrom := 0 }

def roundUs (b : PathBudget) (p : Path) (mono : Nat) : Nat :=
  max (((b.ackRttFresh p mono).or (b.minRtt p mono)).getD unknownRttUs) 1

def noteBwSample (b : PathBudget) (p : Path) (bytesS now mono : Nat) : PathBudget :=
  let was := b.bwFilter.get now p.bwWindowUs
  let b := { b with bwFilter := b.bwFilter.update bytesS now p.bwWindowUs }
  if was = 0 then b.restart now
  else if now - b.roundStartUs < b.roundUs p mono then b
  else b.endBudgetRound p now mono

/-! ## What the end of a round does -/

@[simp]
theorem budgetFloor_allow (b : PathBudget) (r : Round) :
    (b.allow r).budgetFloor = b.budgetFloor := by
  simp only [allow]
  split_ifs <;> rfl

@[simp]
theorem budgetCeil_allow (b : PathBudget) (r : Round) : (b.allow r).budgetCeil = b.budgetCeil := by
  simp only [allow]
  split_ifs <;> rfl

theorem probeFrom_allow {b : PathBudget} {r : Round} (noProbe : b.probeFrom = 0) :
    (b.allow r).probeFrom = 0 ∨
      (b.allow r).probeFrom = r.cur ∧ (b.allow r).heldBudget = b.budgetBytes ∧
        r.probeFrom = 0 := by
  simp only [allow]
  split_ifs with limited probing
  · exact .inl noProbe
  · exact .inl noProbe
  · exact .inl noProbe
  · exact .inl noProbe
  · exact .inr ⟨rfl, rfl, Decidable.of_not_not probing⟩
  · exact .inl noProbe
  · exact .inl noProbe
  · exact .inl noProbe

theorem budget_allow_of_not_followed {b : PathBudget} {r : Round} (limited : r.limited = true)
    (probing : r.probeFrom ≠ 0) (flat : r.followed = false) :
    (b.allow r).budget = r.bounded r.probeFrom := by
  simp only [allow, limited, if_true, ne_eq, probing, not_false_eq_true, flat,
    Bool.false_eq_true, if_false]

/-- Either growth is armed again, or the tests only touch the reference and the counters. -/
theorem closeRound_cases (b : PathBudget) (r : Round) :
    (b.rearms r = true ∧ b.closeRound r =
      { b with
        roundBwRef := r.bw
        prevRoundBw := 0
        flatRounds := 0
        sagRounds := 0
        idleRounds := 0
        budget := r.bounded r.shrunk }) ∨
    (b.rearms r = false ∧ ∃ prev ref flat sag, b.closeRound r =
      allow { b with prevRoundBw := prev, roundBwRef := ref, flatRounds := flat, sagRounds := sag }
        r) := by
  cases rearmed : b.rearms r with
  | true =>
      have rearming := rearmed
      simp only [rearms, Bool.and_eq_true, Bool.not_eq_true'] at rearming
      obtain ⟨⟨belowBar, sagged⟩, -⟩ := rearming
      have notStepped : r.stepped = false := by rw [Round.stepped, belowBar, Bool.false_and]
      refine .inl ⟨rfl, ?_⟩
      have rearmsAgain : rearms { b with prevRoundBw := 0 } r = true := rearmed
      simp only [closeRound, notStepped, belowBar, sagged, Bool.false_and, Bool.false_eq_true,
        if_false, if_true, rearmsAgain]
  | false =>
      refine .inr ⟨rfl, ?_⟩
      have notRearmed : ∀ prev, rearms { b with prevRoundBw := prev } r = false := fun _ => rearmed
      simp only [closeRound, notRearmed, Bool.false_eq_true, if_false]
      by_cases stepped : r.stepped = true
      · rw [if_pos stepped]
        exact ⟨_, _, _, _, rfl⟩
      · rw [if_neg stepped]
        by_cases aboveBar : r.stepNow = true
        · rw [if_pos aboveBar]
          exact ⟨_, _, _, _, rfl⟩
        · rw [if_neg aboveBar]
          by_cases sagged : r.sagged = true
          · rw [if_pos sagged]
            exact ⟨_, _, _, _, rfl⟩
          · rw [if_neg sagged]
            exact ⟨_, _, _, _, rfl⟩

theorem endBudgetRound_probe (b : PathBudget) (p : Path) (now mono : Nat) :
    (b.endBudgetRound p now mono).budgetFloor = b.budgetFloor ∧
    (b.endBudgetRound p now mono).budgetCeil = b.budgetCeil ∧
    ((b.endBudgetRound p now mono).probeFrom = 0 ∨
      (b.endBudgetRound p now mono).probeFrom = (b.beginClose p now mono).2.cur ∧
      (b.endBudgetRound p now mono).heldBudget = b.budgetBytes ∧ b.probeFrom = 0) := by
  unfold endBudgetRound
  rcases closeRound_cases (b.beginClose p now mono).1 (b.beginClose p now mono).2 with
    ⟨-, closed⟩ | ⟨-, prev, ref, flat, sag, closed⟩
  · rw [closed]
    exact ⟨rfl, rfl, .inl rfl⟩
  · rw [closed]
    exact ⟨budgetFloor_allow _ _, budgetCeil_allow _ _, probeFrom_allow rfl⟩

theorem endBudgetRound_verdict {b : PathBudget} {p : Path} {now mono : Nat}
    (probing : b.probeFrom ≠ 0) (limited : b.roundLimited = true)
    (armed : b.rearms (b.beginClose p now mono).2 = false)
    (flat : (b.beginClose p now mono).2.followed = false) :
    (b.endBudgetRound p now mono).budget = (b.beginClose p now mono).2.bounded b.probeFrom := by
  unfold endBudgetRound
  rcases closeRound_cases (b.beginClose p now mono).1 (b.beginClose p now mono).2 with
    ⟨rearmed, -⟩ | ⟨-, prev, ref, flatRounds, sag, closed⟩
  · have armedAgain : b.rearms (b.beginClose p now mono).2 = true := rearmed
    rw [armed] at armedAgain
    cases armedAgain
  · rw [closed]
    exact budget_allow_of_not_followed limited probing flat

theorem noteBwSample_cases (b : PathBudget) (p : Path) (bytesS now mono : Nat) :
    ∃ filter, b.noteBwSample p bytesS now mono = restart { b with bwFilter := filter } now ∨
      b.noteBwSample p bytesS now mono = { b with bwFilter := filter } ∨
      (b.noteBwSample p bytesS now mono = endBudgetRound { b with bwFilter := filter } p now mono ∧
        b.bwFilter.get now p.bwWindowUs ≠ 0 ∧ ¬ now - b.roundStartUs < b.roundUs p mono) := by
  refine ⟨b.bwFilter.update bytesS now p.bwWindowUs, ?_⟩
  unfold noteBwSample
  by_cases idle : b.bwFilter.get now p.bwWindowUs = 0
  · exact .inl (if_pos idle)
  · by_cases young : now - b.roundStartUs < b.roundUs p mono
    · exact .inr (.inl ((if_neg idle).trans (if_pos young)))
    · exact .inr (.inr ⟨(if_neg idle).trans (if_neg young), idle, young⟩)

/-! ## The bounds -/

theorem budgetBytes_bounds (b : PathBudget) :
    b.budgetFloor ≤ b.budgetBytes ∧ b.budgetBytes ≤ max b.budgetFloor b.budgetCeil := by
  have bounds := clamp_bounds (le_max_right b.budgetCeil b.budgetFloor) b.budget
  rwa [max_comm b.budgetFloor]

theorem roundCeil_le (b : PathBudget) (p : Path) (mono bwMax : Nat) :
    b.budgetFloor ≤ b.roundCeil p mono bwMax ∧ b.roundCeil p mono bwMax ≤ b.ceiling := by
  unfold roundCeil
  exact ⟨le_max_right _ _, max_le (min_le_left _ _) (le_max_right _ _)⟩

theorem clamp_roundCeil_le (b : PathBudget) (p : Path) (mono bwMax : Nat) :
    clamp b.budget b.budgetFloor (b.roundCeil p mono bwMax) ≤ b.budgetBytes := by
  obtain ⟨above, below⟩ := b.roundCeil_le p mono bwMax
  simp only [budgetBytes, clamp]
  split_ifs <;> omega

end PathBudget

/-! ## Runs of the controller -/

structure BudgetedPath where
  path : Path
  budget : PathBudget
  deriving DecidableEq

inductive BudgetAction where
  /-- `note_bw_sample`. -/
  | bwSample (bytesS now mono : Nat)
  | limited
  | delivered (count : Nat)
  /-- `note_loop_rtt`. -/
  | loopRtt (sample now : Nat)
  /-- `record_ack_rtt`. -/
  | ackRtt (sample now : Nat)
  | path (p : Path)
  deriving DecidableEq

namespace BudgetedPath

def recordAckRtt (s : BudgetedPath) (sample now : Nat) : BudgetedPath :=
  let sample := max sample 1
  { path := { s.path with
      ackRttUs := if s.path.ackRttUs = 0 then sample else (s.path.ackRttUs * 7 + sample) / 8 }
    budget := { s.budget with ackRttAtUs := max now 1 } }

def step (s : BudgetedPath) : BudgetAction → Option BudgetedPath
  | .bwSample bytesS now mono =>
      some { s with budget := s.budget.noteBwSample s.path bytesS now mono }
  | .limited => some { s with budget := { s.budget with roundLimited := true } }
  | .delivered count =>
      some { s with budget := { s.budget with
        delivered := (s.budget.delivered + count) % 2 ^ 64 } }
  | .loopRtt sample now =>
      some { s with budget := { s.budget with
        minRttFilter := s.budget.minRttFilter.updateMin (max sample 1) (max now 1) minRttWinUs } }
  | .ackRtt sample now => some (s.recordAckRtt sample now)
  | .path p => some { s with path := p }

def Initial (s : BudgetedPath) : Prop := ∃ floor ceil, s.budget = PathBudget.new floor ceil

def machine : Machine BudgetedPath BudgetAction := ⟨Initial, step⟩

def closes (s : BudgetedPath) : BudgetAction → Option Round
  | .bwSample _ now mono =>
      if s.budget.bwFilter.get now s.path.bwWindowUs = 0 then none
      else if now - s.budget.roundStartUs < s.budget.roundUs s.path mono then none
      else some (s.budget.beginClose s.path now mono).2
  | _ => none

/-- The round that ends a probe was limited by the budget, and is not the third in a row that
sagged. -/
def verdictReached (s : BudgetedPath) (action : BudgetAction) : Bool :=
  (s.closes action).all fun r => r.probeFrom == 0 || (r.limited && !s.budget.rearms r)

/-- An action that ends the probe leaves no more than the budget held before it, unless the
bandwidth of the round followed. -/
def FallsBack (s : BudgetedPath) (action : BudgetAction) (next : BudgetedPath) : Prop :=
  s.budget.probeFrom ≠ 0 → next.budget.probeFrom = 0 →
    (∃ r, s.closes action = some r ∧ r.followed = true) ∨
      next.budget.budgetBytes ≤ s.budget.heldBudget

/-- A running probe knows what the budget was before. -/
structure Sound (s : BudgetedPath) : Prop where
  above : s.budget.probeFrom ≠ 0 → s.budget.budgetFloor ≤ s.budget.probeFrom
  held : s.budget.probeFrom ≠ 0 → s.budget.probeFrom ≤ s.budget.heldBudget

theorem sound_initial {s : BudgetedPath} (begins : Initial s) : s.Sound := by
  obtain ⟨floor, ceil, fresh⟩ := begins
  have noProbe : s.budget.probeFrom = 0 := by
    rw [fresh]
    rfl
  exact ⟨fun probing => absurd noProbe probing, fun probing => absurd noProbe probing⟩

theorem sound_step {s next : BudgetedPath} {action : BudgetAction} (sound : s.Sound)
    (taken : s.step action = some next) : next.Sound := by
  cases action with
  | bwSample bytesS now mono =>
      cases taken
      obtain ⟨filter, restarted | within | ⟨ended, -, -⟩⟩ :=
        s.budget.noteBwSample_cases s.path bytesS now mono
      · constructor
        · rw [restarted]
          exact fun probing => absurd rfl probing
        · rw [restarted]
          exact fun probing => absurd rfl probing
      · constructor
        · rw [within]
          exact sound.above
        · rw [within]
          exact sound.held
      · obtain ⟨floorSame, -, noProbe | ⟨started, held, -⟩⟩ :=
          PathBudget.endBudgetRound_probe { s.budget with bwFilter := filter } s.path now mono
        · constructor
          · rw [ended]
            exact fun probing => absurd noProbe probing
          · rw [ended]
            exact fun probing => absurd noProbe probing
        · constructor
          · rw [ended, started, floorSame]
            intro _
            exact (clamp_bounds (PathBudget.roundCeil_le _ _ _ _).1 _).1
          · rw [ended, started, held]
            intro _
            exact PathBudget.clamp_roundCeil_le _ _ _ _
  | limited =>
      cases taken
      exact ⟨sound.above, sound.held⟩
  | delivered count =>
      cases taken
      exact ⟨sound.above, sound.held⟩
  | loopRtt sample now =>
      cases taken
      exact ⟨sound.above, sound.held⟩
  | ackRtt sample now =>
      cases taken
      exact ⟨sound.above, sound.held⟩
  | path p =>
      cases taken
      exact ⟨sound.above, sound.held⟩

theorem budgetBytes_le_held {s : BudgetedPath} {next : PathBudget} (sound : s.Sound)
    (probing : s.budget.probeFrom ≠ 0) (floorSame : next.budgetFloor = s.budget.budgetFloor)
    (below : next.budget ≤ s.budget.probeFrom) : next.budgetBytes ≤ s.budget.heldBudget := by
  have above := sound.above probing
  have held := sound.held probing
  have ceiling : next.budgetFloor ≤ next.ceiling := le_max_right _ _
  simp only [PathBudget.budgetBytes, clamp]
  split_ifs <;> omega

theorem fallsBack_step {s next : BudgetedPath} {action : BudgetAction} (sound : s.Sound)
    (judged : s.verdictReached action = true) (taken : s.step action = some next) :
    s.FallsBack action next := by
  intro probing ended
  cases action with
  | bwSample bytesS now mono =>
      cases taken
      have above := sound.above probing
      obtain ⟨filter, restarted | within | ⟨closed, fed, elapsed⟩⟩ :=
        s.budget.noteBwSample_cases s.path bytesS now mono
      · refine .inr (budgetBytes_le_held sound probing ?_ ?_)
        · rw [restarted]
          rfl
        · rw [restarted]
          exact above
      · rw [within] at ended
        exact absurd ended probing
      · have measured : s.closes (.bwSample bytesS now mono) =
            some (s.budget.beginClose s.path now mono).2 :=
          (if_neg fed).trans (if_neg elapsed)
        by_cases followed : (s.budget.beginClose s.path now mono).2.followed = true
        · exact .inl ⟨_, measured, followed⟩
        · have flat : (s.budget.beginClose s.path now mono).2.followed = false :=
            Bool.eq_false_of_not_eq_true followed
          rw [verdictReached, measured] at judged
          simp only [Option.all_some, Bool.or_eq_true, beq_iff_eq, Bool.and_eq_true,
            Bool.not_eq_true'] at judged
          obtain ⟨limited, armed⟩ := judged.resolve_left probing
          have verdict : (s.budget.noteBwSample s.path bytesS now mono).budget =
              (s.budget.beginClose s.path now mono).2.bounded s.budget.probeFrom := by
            rw [closed]
            exact PathBudget.endBudgetRound_verdict (b := { s.budget with bwFilter := filter })
              probing limited armed flat
          refine .inr (budgetBytes_le_held sound probing ?_ ?_)
          · rw [closed]
            exact (PathBudget.endBudgetRound_probe _ s.path now mono).1
          · rw [verdict, Round.bounded, clamp]
            have floorLow : (s.budget.beginClose s.path now mono).2.floor =
                s.budget.budgetFloor := rfl
            split_ifs <;> omega
  | limited =>
      cases taken
      exact absurd ended probing
  | delivered count =>
      cases taken
      exact absurd ended probing
  | loopRtt sample now =>
      cases taken
      exact absurd ended probing
  | ackRtt sample now =>
      cases taken
      exact absurd ended probing
  | path p =>
      cases taken
      exact absurd ended probing

/-- `budget_bytes` is within the bounds. -/
def InBounds (s : BudgetedPath) : Prop :=
  s.budget.budgetFloor ≤ s.budget.budgetBytes ∧
    s.budget.budgetBytes ≤ max s.budget.budgetFloor s.budget.budgetCeil

theorem throughout_fallsBack {s : BudgetedPath} (sound : s.Sound) (schedule : List BudgetAction)
    (judged : machine.Throughout (fun s action _ => s.verdictReached action = true) s schedule) :
    machine.Throughout (fun s action next => s.FallsBack action next ∧ next.InBounds) s
      schedule := by
  induction schedule generalizing s with
  | nil => trivial
  | cons action rest inductionHypothesis =>
      intro next taken
      obtain ⟨reached, later⟩ := judged next taken
      exact ⟨⟨fallsBack_step sound reached taken, next.budget.budgetBytes_bounds⟩,
        inductionHypothesis (sound_step sound taken) later⟩

/-- In a run whose probe rounds all reach their verdict no probe ratchets, and the budget is
within its bounds in every state. -/
theorem probe_falls_back {start : BudgetedPath} (begins : machine.initial start)
    (schedule : List BudgetAction)
    (judged : machine.Throughout (fun s action _ => s.verdictReached action = true) start
      schedule) :
    start.InBounds ∧
      machine.Throughout (fun s action next => s.FallsBack action next ∧ next.InBounds) start
        schedule :=
  ⟨start.budget.budgetBytes_bounds, throughout_fallsBack (sound_initial begins) schedule judged⟩

def steadyPath : Path where
  link := "a"
  status := .up
  inflight := 65536
  stickyStreams := 0
  congested := false
  writeStalled := false
  rttEwmaUs := 20000
  rttStableUs := 20000
  rttClassUs := 20000
  ackRttUs := 0
  lastRx := 0
  writer := []
  urgent := []

def steadyRound (now : Nat) : List BudgetAction :=
  [.limited, .delivered 100000, .bwSample 5000000 now now]

def untilProbe : List BudgetAction :=
  .bwSample 5000000 1000000 1000000 ::
    (steadyRound 1020000 ++ steadyRound 1040000 ++ steadyRound 1060000 ++ steadyRound 1080000 ++
      steadyRound 1100000)

theorem probe_falls_back_limited :
    machine.Throughout (fun s action next => s.FallsBack action next ∧ next.InBounds)
      ⟨steadyPath, .new 65536 1048576⟩ (untilProbe ++ steadyRound 1120000) := by
  have replayed : ∃ final,
      machine.runWhen (fun s action => s.verdictReached action = true)
        ⟨steadyPath, .new 65536 1048576⟩ (untilProbe ++ steadyRound 1120000) = some final :=
    ⟨_, rfl⟩
  obtain ⟨final, replay⟩ := replayed
  exact (probe_falls_back ⟨65536, 1048576, rfl⟩ _ (Machine.throughout_of_runWhen replay)).2

/-- A probe round in which no bulk send found the budget full keeps the raise at the old
bandwidth. -/
theorem probe_kept_unlimited : ∃ s next r, machine.Reachable s ∧
    s.step (.bwSample 5000000 1120000 1120000) = some next ∧
    s.budget.probeFrom ≠ 0 ∧ next.budget.probeFrom = 0 ∧
    s.closes (.bwSample 5000000 1120000 1120000) = some r ∧ r.followed = false ∧
    s.budget.heldBudget < next.budget.budgetBytes := by
  have replayed : ∃ s next r,
      machine.run ⟨steadyPath, .new 65536 1048576⟩ (untilProbe ++ [.delivered 100000]) = some s ∧
      s.step (.bwSample 5000000 1120000 1120000) = some next ∧
      s.budget.probeFrom ≠ 0 ∧ next.budget.probeFrom = 0 ∧
      s.closes (.bwSample 5000000 1120000 1120000) = some r ∧ r.followed = false ∧
      s.budget.heldBudget < next.budget.budgetBytes := by
    refine ⟨_, _, _, rfl, rfl, ?_, rfl, rfl, ?_, ?_⟩ <;> decide
  obtain ⟨s, next, r, replay, kept⟩ := replayed
  have begins : machine.Reachable ⟨steadyPath, .new 65536 1048576⟩ :=
    .start ⟨65536, 1048576, rfl⟩
  exact ⟨s, next, r, begins.run replay, kept⟩

end BudgetedPath

end NyaLink
