import NyaLink.Stream.Receive

/-!
# Paths and the choice among them

What the session keeps for one path, the clocks derived from it, and the choice
of the path that takes a re-sent piece.  Clocks are microseconds.  The formulas
that scale a round-trip time by a fraction are members of the configuration.
-/

namespace NyaLink

/-- The `u64` bound of saturating arithmetic. -/
def u64Max : Nat := 18446744073709551615

/-- Operator settings and tuning, as far as the session model reads them. -/
structure SessionConfig where
  pingIntervalMin : Nat
  pingIntervalMax : Nat
  chan : Nat
  interactiveMax : Nat
  inflightBias : Nat
  initialWindow : Nat
  unknownRttScoreMult : Nat
  unknownDegradeMin : Nat
  lossTimeoutFloor : Nat
  downTimeoutCeil : Nat
  closeLingerMs : Nat
  lossTimeout : Nat → Nat
  downTimeout : Nat → Nat → Nat

def SessionConfig.standard : SessionConfig where
  pingIntervalMin := 10000
  pingIntervalMax := 50000
  chan := 64
  interactiveMax := 1500
  inflightBias := 65536
  initialWindow := 131072
  unknownRttScoreMult := 2
  unknownDegradeMin := 300000
  lossTimeoutFloor := 20000
  downTimeoutCeil := 5000000
  closeLingerMs := 1000
  lossTimeout rtt := clamp (rtt * 2) 20000 2000000
  downTimeout rtt probe :=
    clamp (max (rtt * 5 + probe) (320000 + probe)) (320000 + probe) 5000000

/-- `Tuning::STANDARD.unknown_rtt_us`. -/
def unknownRttUs : Nat := 20000

inductive PathStatus where
  | up
  | degraded
  | down
  deriving DecidableEq, Repr

/-- One path of the session's table.  Round-trip times of zero are unknown. -/
structure Path where
  link : String
  status : PathStatus
  inflight : Nat
  stickyStreams : Nat
  congested : Bool
  writeStalled : Bool
  rttEwmaUs : Nat
  rttStableUs : Nat
  rttClassUs : Nat
  ackRttUs : Nat
  lastRx : Nat
  writer : List Frame
  urgent : List Frame
  deriving DecidableEq

/-- `push_tried`: at most eight ids, the newest last, none twice. -/
def pushTried (tried : List Nat) (id : Nat) : List Nat :=
  if tried.getLast? = some id then tried
  else
    let kept := tried.filter fun other => other ≠ id
    (if kept.length = 8 then kept.tail else kept) ++ [id]

theorem getLast?_pushTried (tried : List Nat) (id : Nat) :
    (pushTried tried id).getLast? = some id := by
  unfold pushTried
  split
  · assumption
  · exact List.getLast?_concat

namespace Path

def isUp (p : Path) : Bool := decide (p.status = .up)

def isAlive (p : Path) : Bool := decide (p.status = .up) || decide (p.status = .degraded)

def isSchedulable (p : Path) : Bool := p.isUp && !p.congested && !p.writeStalled

def rttKnown (p : Path) : Bool := p.rttEwmaUs != 0

def rttUs (p : Path) : Nat := if p.rttEwmaUs = 0 then unknownRttUs else p.rttEwmaUs

def stableRtt (p : Path) : Nat := if p.rttStableUs = 0 then p.rttUs else p.rttStableUs

def classRtt (p : Path) : Nat := if p.rttClassUs = 0 then p.rttUs else p.rttClassUs

def ackRtt (p : Path) : Option Nat := if p.ackRttUs = 0 then none else some p.ackRttUs

def lastRxAgo (p : Path) (now : Nat) : Nat := now - p.lastRx

def queuedBulk (p : Path) : Nat := p.writer.length

theorem isAlive_of_isSchedulable {p : Path} (schedulable : p.isSchedulable = true) :
    p.isAlive = true := by
  simp only [isSchedulable, isUp, Bool.and_eq_true] at schedulable
  simp [isAlive, schedulable.1.1]

end Path

section

variable (cfg : SessionConfig) (now : Nat)

/-! ## Clocks -/

def probeInterval (probeRtt : Nat) : Nat :=
  clamp probeRtt cfg.pingIntervalMin cfg.pingIntervalMax

/-- `health::degrade_timeout`: one probe send cycle without a receive. -/
def degradeTimeout (rttKnown : Bool) (stable : Nat) : Nat :=
  let rtt := if rttKnown then stable else max stable (cfg.pingIntervalMax * 2)
  let cycle := probeInterval cfg rtt + rtt
  let timeout := max (max (cfg.lossTimeout rtt) cycle) cfg.pingIntervalMax
  if rttKnown then timeout else max timeout cfg.unknownDegradeMin

def degradeFor (p : Path) : Nat := degradeTimeout cfg p.rttKnown p.stableRtt

def probeIntervalFor (p : Path) : Nat :=
  if p.rttKnown then probeInterval cfg (min p.rttUs p.stableRtt) else cfg.pingIntervalMin

def pathLossRtt (p : Path) : Nat := min p.rttUs p.classRtt

def isLossFresh (p : Path) : Bool := decide (p.lastRxAgo now < cfg.lossTimeout (pathLossRtt p))

def isQuietFresh (p : Path) : Bool := decide (p.lastRxAgo now < degradeFor cfg p)

def minAliveFastRtt (paths : List (Nat × Path)) : Option Nat :=
  ((paths.filter fun entry => entry.2.isAlive && entry.2.rttKnown).map fun entry =>
    entry.2.rttUs).min?

/-! ## Scores -/

def satMul (a b : Nat) : Nat := min (a * b) u64Max

def satAdd (a b : Nat) : Nat := min (a + b) u64Max

def rttScoreUs (p : Path) : Nat :=
  if p.rttKnown then p.rttUs else satMul p.rttUs cfg.unknownRttScoreMult

/-- `load_term` of `PickPref::Any`. -/
def loadTerm (p : Path) : Nat := 1 + p.inflight / max cfg.inflightBias 1 + p.stickyStreams

/-- `path_score` of `PickPref::Any`, without its second component `rtt_known`. -/
def pathScore (p : Path) : Nat :=
  satAdd (satMul (satMul p.classRtt (loadTerm cfg p)) 1024)
    (satMul (rttScoreUs cfg p) (loadTerm cfg p))

def betterRx (best p : Nat × Path) : Bool :=
  (p.2.rttKnown && !best.2.rttKnown) ||
  (p.2.rttKnown == best.2.rttKnown && decide (p.2.lastRxAgo now < best.2.lastRxAgo now)) ||
  (p.2.rttKnown == best.2.rttKnown && p.2.lastRxAgo now == best.2.lastRxAgo now &&
    decide (pathScore cfg p.2 < pathScore cfg best.2)) ||
  (p.2.rttKnown == best.2.rttKnown && p.2.lastRxAgo now == best.2.lastRxAgo now &&
    pathScore cfg p.2 == pathScore cfg best.2 && decide (p.1 < best.1))

def pickMinRx : List (Nat × Path) → Option Nat
  | [] => none
  | first :: rest =>
      some (rest.foldl (fun best p => if betterRx cfg now best p then p else best) first).1

/-- One rung of `pick_retry_path`. -/
def pickRung (paths : List (Nat × Path)) (avoidLink : Option String)
    (eligible : Nat × Path → Bool) : Option Nat :=
  pickMinRx cfg now (paths.filter fun entry =>
    eligible entry && avoidLink.all fun link => entry.2.link ≠ link)

/-- `pick_retry_path`: never the path tried last, preferably one that was not tried, is fresh
and belongs to another link. -/
def pickRetryPath (paths : List (Nat × Path)) (tried : List Nat) : Option Nat :=
  let current := tried.getLast?
  let avoidLink := current.bind fun id =>
    (paths.find? fun entry => entry.1 = id).map fun entry => entry.2.link
  let untried := fun entry : Nat × Path => !tried.contains entry.1
  let freshUntried := fun entry =>
    untried entry && isLossFresh cfg now entry.2 && entry.2.isSchedulable
  pickRung cfg now paths avoidLink freshUntried
    |>.or (pickRung cfg now paths none freshUntried)
    |>.or (pickRung cfg now paths none fun entry => untried entry && entry.2.isSchedulable)
    |>.or (pickRung cfg now paths none fun entry => untried entry && entry.2.isAlive)
    |>.or (pickRung cfg now paths none fun entry =>
      entry.2.isAlive && current.all fun id => entry.1 ≠ id)

/-! ## What the choice returns -/

variable {cfg now}

theorem foldl_better_mem (better : Nat × Path → Nat × Path → Bool) (rest : List (Nat × Path))
    (first : Nat × Path) :
    rest.foldl (fun best p => if better best p then p else best) first ∈ first :: rest := by
  induction rest generalizing first with
  | nil => exact List.mem_singleton_self first
  | cons p rest inductionHypothesis =>
      rw [List.foldl_cons]
      have membership := inductionHypothesis (if better first p then p else first)
      rcases List.mem_cons.mp membership with chosen | later
      · rw [chosen]
        split <;> simp
      · exact List.mem_cons_of_mem _ (List.mem_cons_of_mem _ later)

theorem pickMinRx_mem {cands : List (Nat × Path)} {id : Nat}
    (picked : pickMinRx cfg now cands = some id) : ∃ p, (id, p) ∈ cands := by
  cases cands with
  | nil => cases picked
  | cons first rest =>
      obtain rfl := Option.some.inj picked
      exact ⟨_, foldl_better_mem (betterRx cfg now) rest first⟩

theorem pickMinRx_isSome {cands : List (Nat × Path)} {entry : Nat × Path}
    (membership : entry ∈ cands) : (pickMinRx cfg now cands).isSome = true := by
  cases cands with
  | nil => cases membership
  | cons first rest => rfl

theorem pickRung_mem {paths : List (Nat × Path)} {avoidLink : Option String}
    {eligible : Nat × Path → Bool} {id : Nat}
    (picked : pickRung cfg now paths avoidLink eligible = some id) :
    ∃ p, (id, p) ∈ paths ∧ eligible (id, p) = true := by
  obtain ⟨p, membership⟩ := pickMinRx_mem picked
  rw [List.mem_filter, Bool.and_eq_true] at membership
  exact ⟨p, membership.1, membership.2.1⟩

theorem pickRetryPath_alive {paths : List (Nat × Path)} {tried : List Nat} {id : Nat}
    (picked : pickRetryPath cfg now paths tried = some id) :
    ∃ p, (id, p) ∈ paths ∧ p.isAlive = true := by
  unfold pickRetryPath at picked
  simp only [Option.or_eq_some_iff] at picked
  rcases picked with (((fresh | ⟨-, fresh⟩) | ⟨-, schedulable⟩) | ⟨-, alive⟩) | ⟨-, other⟩
  · obtain ⟨p, membership, eligible⟩ := pickRung_mem fresh
    simp only [Bool.and_eq_true] at eligible
    exact ⟨p, membership, Path.isAlive_of_isSchedulable eligible.2⟩
  · obtain ⟨p, membership, eligible⟩ := pickRung_mem fresh
    simp only [Bool.and_eq_true] at eligible
    exact ⟨p, membership, Path.isAlive_of_isSchedulable eligible.2⟩
  · obtain ⟨p, membership, eligible⟩ := pickRung_mem schedulable
    simp only [Bool.and_eq_true] at eligible
    exact ⟨p, membership, Path.isAlive_of_isSchedulable eligible.2⟩
  · obtain ⟨p, membership, eligible⟩ := pickRung_mem alive
    simp only [Bool.and_eq_true] at eligible
    exact ⟨p, membership, eligible.2⟩
  · obtain ⟨p, membership, eligible⟩ := pickRung_mem other
    simp only [Bool.and_eq_true] at eligible
    exact ⟨p, membership, eligible.1⟩

theorem pickRetryPath_ne {paths : List (Nat × Path)} {avoid id : Nat}
    (picked : pickRetryPath cfg now paths [avoid] = some id) : id ≠ avoid := by
  have untried : ∀ {p : Path} {rest : Bool},
      ((!List.contains [avoid] (id, p).1) && rest) = true → id ≠ avoid := by
    intro p rest eligible
    rw [Bool.and_eq_true] at eligible
    simpa using eligible.1
  unfold pickRetryPath at picked
  simp only [Option.or_eq_some_iff] at picked
  rcases picked with (((fresh | ⟨-, fresh⟩) | ⟨-, schedulable⟩) | ⟨-, alive⟩) | ⟨-, other⟩
  · obtain ⟨p, -, eligible⟩ := pickRung_mem fresh
    rw [Bool.and_assoc] at eligible
    exact untried eligible
  · obtain ⟨p, -, eligible⟩ := pickRung_mem fresh
    rw [Bool.and_assoc] at eligible
    exact untried eligible
  · obtain ⟨p, -, eligible⟩ := pickRung_mem schedulable
    exact untried eligible
  · obtain ⟨p, -, eligible⟩ := pickRung_mem alive
    exact untried eligible
  · obtain ⟨p, -, eligible⟩ := pickRung_mem other
    rw [Bool.and_eq_true] at eligible
    simpa using eligible.2

theorem pickRetryPath_isSome {paths : List (Nat × Path)} {tried : List Nat} {id : Nat} {p : Path}
    (membership : (id, p) ∈ paths) (alive : p.isAlive = true)
    (other : tried.getLast? ≠ some id) :
    (pickRetryPath cfg now paths tried).isSome = true := by
  unfold pickRetryPath
  simp only [Option.isSome_or, Bool.or_eq_true]
  apply Or.inr
  apply pickMinRx_isSome
  rw [List.mem_filter]
  refine ⟨membership, ?_⟩
  cases last : tried.getLast? with
  | none => simp [alive]
  | some current =>
      rw [last] at other
      have different : id ≠ current := fun same => other (by rw [same])
      simp [alive, different]

end

end NyaLink
