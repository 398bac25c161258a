import NyaLink.Session.Moves
import Mathlib.Data.List.Dedup
import Mathlib.Data.List.Perm.Subperm

/-!
# Silent paths

The two clocks of a silent path, and what `maintain` does when they run out: a
path past its degrade clock is quiet, one past its down clock is torn, and while
most of the pool is quiet those past the down clock are held back instead.
-/

namespace NyaLink

/-- The settings of a session with those of its pool. -/
structure PoolConfig extends SessionConfig where
  allDownTimeout : Nat
  maxPaths : Nat

def PoolConfig.standard : PoolConfig :=
  { SessionConfig.standard with
    allDownTimeout := 8000000
    maxPaths := 32 }

/-- What the operator may set. -/
structure SessionOpts where
  pingIntervalMinMs : Option Nat
  pingIntervalMaxMs : Option Nat
  allDownTimeoutMs : Option Nat
  maxPaths : Option Nat
  deriving DecidableEq, Repr

def SessionOpts.apply (o : SessionOpts) (c : PoolConfig) : PoolConfig :=
  { c with
    pingIntervalMin := (o.pingIntervalMinMs.map (· * 1000)).getD c.pingIntervalMin
    pingIntervalMax := (o.pingIntervalMaxMs.map (· * 1000)).getD c.pingIntervalMax
    allDownTimeout := (o.allDownTimeoutMs.map (· * 1000)).getD c.allDownTimeout
    maxPaths := (o.maxPaths.map (max · 1)).getD c.maxPaths }

/-! ## The down clock -/

section

variable (cfg : SessionConfig)

def assumedRtt (p : Path) : Nat :=
  if p.rttKnown then max p.rttUs p.stableRtt
  else max (max p.rttUs p.stableRtt) (cfg.pingIntervalMax * 2)

def downFor (p : Path) : Nat :=
  cfg.downTimeout (assumedRtt cfg p) (probeInterval cfg (assumedRtt cfg p))

def degradeRtt (p : Path) : Nat :=
  if p.rttKnown then p.stableRtt else max p.stableRtt (cfg.pingIntervalMax * 2)

theorem degradeFor_eq (p : Path) :
    degradeFor cfg p =
      max (max (max (cfg.lossTimeout (degradeRtt cfg p))
        (probeInterval cfg (degradeRtt cfg p) + degradeRtt cfg p)) cfg.pingIntervalMax)
        (if p.rttKnown then 0 else cfg.unknownDegradeMin) := by
  simp only [degradeFor, degradeTimeout, degradeRtt]
  cases p.rttKnown with
  | true => simp
  | false => simp

theorem degradeRtt_le_assumedRtt (p : Path) : degradeRtt cfg p ≤ assumedRtt cfg p := by
  simp only [degradeRtt, assumedRtt]
  split_ifs <;> omega

end

theorem downTimeout_standard (rtt probe : Nat) :
    SessionConfig.standard.downTimeout rtt probe =
      min (max (5 * rtt) 320000 + probe) 5000000 := by
  simp only [SessionConfig.standard, clamp]
  split_ifs <;> omega

theorem lossTimeout_standard (rtt : Nat) :
    SessionConfig.standard.lossTimeout rtt ≤ max (2 * rtt) 20000 ∧
      SessionConfig.standard.lossTimeout rtt ≤ 2000000 := by
  simp only [SessionConfig.standard, clamp]
  split_ifs <;> omega

theorem probeInterval_le {cfg : SessionConfig} {smaller larger : Nat} (ordered : smaller ≤ larger) :
    probeInterval cfg smaller ≤ max (probeInterval cfg larger) larger := by
  simp only [probeInterval, clamp]
  split_ifs <;> omega

/-- The degrade clock runs out first when no term of it outgrows the down clock: the longest
probe interval, and one probe cycle. -/
theorem degradeFor_le_downFor_iff (opts : SessionOpts) (p : Path) :
    let cfg := (opts.apply .standard).toSessionConfig
    degradeFor cfg p ≤ downFor cfg p ↔
      cfg.pingIntervalMax ≤ 5000000 ∧
      cfg.pingIntervalMax ≤
        max (5 * assumedRtt cfg p) 320000 + max (assumedRtt cfg p) cfg.pingIntervalMin ∧
      probeInterval cfg (degradeRtt cfg p) + degradeRtt cfg p ≤ 5000000 := by
  intro cfg
  have smaller := degradeRtt_le_assumedRtt cfg p
  have loss : cfg.lossTimeout = SessionConfig.standard.lossTimeout := rfl
  have down : cfg.downTimeout = SessionConfig.standard.downTimeout := rfl
  have floor : cfg.unknownDegradeMin = 300000 := rfl
  rw [degradeFor_eq, downFor, loss, down, floor, downTimeout_standard]
  generalize assumedRtt cfg p = assumed at smaller ⊢
  generalize degradeRtt cfg p = rtt at smaller ⊢
  have lossBounds := lossTimeout_standard rtt
  have probes := @probeInterval_le cfg rtt assumed smaller
  have longest : cfg.pingIntervalMax ≤ max (5 * assumed) 320000 + probeInterval cfg assumed ↔
      cfg.pingIntervalMax ≤ max (5 * assumed) 320000 + max assumed cfg.pingIntervalMin := by
    simp only [probeInterval, clamp]
    split_ifs <;> omega
  have lossFits : SessionConfig.standard.lossTimeout rtt ≤
      min (max (5 * assumed) 320000 + probeInterval cfg assumed) 5000000 := by
    omega
  have floorFits : (if p.rttKnown then 0 else 300000) ≤
      min (max (5 * assumed) 320000 + probeInterval cfg assumed) 5000000 := by
    split <;> omega
  have cycleFits : probeInterval cfg rtt + rtt ≤
      max (5 * assumed) 320000 + probeInterval cfg assumed := by
    omega
  rw [max_le_iff, max_le_iff, max_le_iff]
  constructor
  · rintro ⟨⟨⟨-, cycle⟩, interval⟩, -⟩
    obtain ⟨kept, ceiling⟩ := le_min_iff.mp interval
    exact ⟨ceiling, longest.mp kept, (le_min_iff.mp cycle).2⟩
  · rintro ⟨ceiling, kept, cycle⟩
    exact ⟨⟨⟨lossFits, le_min cycleFits cycle⟩, le_min (longest.mpr kept) ceiling⟩, floorFits⟩

def probedSlowly : Path :=
  { Session.newPath "a" 0 with
    rttEwmaUs := 20000
    rttStableUs := 20000 }

/-- It is torn after 340 ms, and would be called quiet after one second. -/
theorem torn_before_quiet :
    let cfg := (SessionOpts.apply ⟨none, some 1000, none, none⟩ .standard).toSessionConfig
    downFor cfg probedSlowly = 340000 ∧ degradeFor cfg probedSlowly = 1000000 ∧
      ¬ degradeFor cfg probedSlowly ≤ downFor cfg probedSlowly := by
  decide

/-! ## The hold -/

def correlatedHold (alive quiet silent knownQuiet quietLinks : Nat) : Bool :=
  if alive < 3 || knownQuiet < 1 || silent = 0 || alive ≤ quiet then false
  else decide (quiet + 1 = alive) || (decide (3 ≤ quiet) && decide (2 ≤ quietLinks))

def shouldMarkDegraded (ago degradeFor probeMiss pending : Nat) : Bool :=
  decide (degradeFor ≤ ago) && (decide (0 < probeMiss) || decide (pending = 0))

/-- What one tick finds of the probes of a path, by its id, and the order in which it visits the
paths and, when a path fails, the streams. -/
structure SilenceInputs where
  probeMiss : Nat → Nat
  pendingPings : Nat → Nat
  visits : List Nat
  orders : Nat → List Nat

/-- A session under the silence clocks of `maintain`. -/
structure Watch where
  session : Session
  correlatedSince : Option Nat
  dead : Bool

namespace Session

section

variable (cfg : PoolConfig)

def alivePaths (s : Session) : List (Nat × Path) :=
  s.paths.entries.filter fun entry => entry.2.isAlive

def quietPaths (s : Session) : List (Nat × Path) :=
  s.alivePaths.filter fun entry => degradeFor cfg.toSessionConfig entry.2 ≤ entry.2.lastRxAgo s.now

def silentPaths (s : Session) : List (Nat × Path) :=
  s.alivePaths.filter fun entry => downFor cfg.toSessionConfig entry.2 ≤ entry.2.lastRxAgo s.now

/-- `unique_link_count` of the quiet paths. -/
def quietLinks (s : Session) : Nat :=
  ((s.quietPaths cfg).map fun entry => entry.2.link).dedup.length

def correlated (s : Session) : Bool :=
  correlatedHold s.alivePaths.length (s.quietPaths cfg).length (s.silentPaths cfg).length
    ((s.quietPaths cfg).filter fun entry => entry.2.rttKnown).length (s.quietLinks cfg)

def markDegraded (s : Session) (id : Nat) : Session :=
  s.modifyPath id fun p => { p with status := if p.status = .up then .degraded else p.status }

def tears (now : Nat) (held elapsed : Bool) (p : Path) : Bool :=
  decide (downFor cfg.toSessionConfig p ≤ p.lastRxAgo now) && (!p.rttKnown || !held || elapsed)

def judgePath (inputs : SilenceInputs) (now : Nat) (held elapsed : Bool) (s : Session)
    (id : Nat) : Session :=
  match s.getPath id with
  | none => s
  | some p =>
      if !p.isAlive then s
      else if tears cfg now held elapsed p then
        s.pathFailed cfg.toSessionConfig id (inputs.orders id)
      else if p.isUp && shouldMarkDegraded (p.lastRxAgo now) (degradeFor cfg.toSessionConfig p)
          (inputs.probeMiss id) (inputs.pendingPings id) then s.markDegraded id
      else s

end

end Session

namespace Watch

variable (cfg : PoolConfig)

def since (w : Watch) : Option Nat :=
  if w.session.correlated cfg then some (w.correlatedSince.getD w.session.now) else none

/-- The hold has lasted for `all_down_timeout`. -/
def budgetElapsed (w : Watch) : Bool :=
  (w.since cfg).any fun t => decide (cfg.allDownTimeout ≤ w.session.now - t)

/-- The silence clocks of one `maintain`. -/
def maintainSilence (w : Watch) (inputs : SilenceInputs) : Option Watch :=
  if w.dead then some w
  else if inputs.visits.Perm (w.session.paths.entries.map Prod.fst) then
    some { w with
      session := inputs.visits.foldl
        (Session.judgePath cfg inputs w.session.now (w.session.correlated cfg)
          (w.budgetElapsed cfg)) w.session
      correlatedSince := w.since cfg }
  else none

end Watch

/-! ## What a failing path leaves of the clocks -/

/-- What the silence clocks read of a path. -/
structure PathClock where
  link : String
  status : PathStatus
  rttEwmaUs : Nat
  rttStableUs : Nat
  lastRx : Nat
  deriving DecidableEq

def Path.clock (p : Path) : PathClock := ⟨p.link, p.status, p.rttEwmaUs, p.rttStableUs, p.lastRx⟩

theorem tears_of_clock (cfg : PoolConfig) {p q : Path} (same : q.clock = p.clock) (now : Nat)
    (held elapsed : Bool) :
    Session.tears cfg now held elapsed q = Session.tears cfg now held elapsed p := by
  simp only [Path.clock, PathClock.mk.injEq] at same
  obtain ⟨-, -, ewma, stable, lastRx⟩ := same
  have known : q.rttKnown = p.rttKnown := by rw [Path.rttKnown, Path.rttKnown, ewma]
  have rtt : q.rttUs = p.rttUs := by rw [Path.rttUs, Path.rttUs, ewma]
  have settled : q.stableRtt = p.stableRtt := by rw [Path.stableRtt, Path.stableRtt, stable, rtt]
  have ago : q.lastRxAgo now = p.lastRxAgo now := by rw [Path.lastRxAgo, Path.lastRxAgo, lastRx]
  have down : downFor cfg.toSessionConfig q = downFor cfg.toSessionConfig p := by
    simp only [downFor, assumedRtt, known, rtt, settled]
  rw [Session.tears, Session.tears, down, ago, known]

namespace Session

section

variable {cfg : SessionConfig}

def clockAt (s : Session) (id : Nat) : Option PathClock := (s.getPath id).map Path.clock

theorem clockAt_of_moved {s t : Session} (moved : Moved s t) (id : Nat) :
    t.clockAt id = s.clockAt id := by
  have same := congrArg (Option.map Path.clock) (moved.getPath id)
  rwa [Option.map_map, Option.map_map] at same

theorem clockAt_erasePath (s : Session) (path other : Nat) :
    clockAt { s with paths := s.paths.erase path } other =
      if other = path then none else s.clockAt other := by
  rw [clockAt, getPath, OrdMap.get?_erase]
  split_ifs <;> rfl

theorem clockAt_pathFailed {s : Session} {path : Nat} {p : Path}
    (found : s.getPath path = some p) (alive : p.isAlive = true) (order : List Nat) (other : Nat) :
    (s.pathFailed cfg path order).clockAt other =
      if other = path then none else s.clockAt other := by
  have notDown : p.status ≠ .down := by
    intro down
    simp [Path.isAlive, down] at alive
  simp only [pathFailed, found, notDown, if_false]
  rw [clockAt_erasePath, clockAt_of_moved (moved_rehomeUnackedFrom _ path order)]
  by_cases same : other = path
  · rw [if_pos same, if_pos same]
  · rw [if_neg same, if_neg same, clockAt, markDown, getPath_modifyPath, if_neg same, clockAt]

end

section

variable {cfg : PoolConfig} {inputs : SilenceInputs} {now : Nat} {held elapsed : Bool}

theorem clockAt_judgePath_of_ne (s : Session) {id other : Nat} (different : other ≠ id) :
    (s.judgePath cfg inputs now held elapsed id).clockAt other = s.clockAt other := by
  simp only [judgePath]
  split
  · rfl
  · rename_i p found
    split_ifs with dead torn quiet
    · rfl
    · have alive : p.isAlive = true := by simpa using dead
      rw [clockAt_pathFailed found alive, if_neg different]
    · rw [clockAt, clockAt, markDegraded, getPath_modifyPath, if_neg different]
    · rfl

theorem clockAt_judgePath_self {s : Session} {id : Nat} {p : Path}
    (found : s.getPath id = some p) (alive : p.isAlive = true) :
    (s.judgePath cfg inputs now held elapsed id).clockAt id = none ↔
      tears cfg now held elapsed p = true := by
  simp only [judgePath, found, alive, Bool.not_true, Bool.false_eq_true, if_false]
  split_ifs with torn quiet
  · rw [clockAt_pathFailed found alive, if_pos rfl]
    exact iff_of_true rfl torn
  · rw [clockAt, markDegraded, getPath_modifyPath, if_pos rfl, found]
    exact iff_of_false (by simp) torn
  · rw [clockAt, found]
    exact iff_of_false (by simp) torn

theorem clockAt_visits_of_not_mem (ids : List Nat) (s : Session) {other : Nat}
    (unvisited : other ∉ ids) :
    (ids.foldl (judgePath cfg inputs now held elapsed) s).clockAt other = s.clockAt other := by
  induction ids generalizing s with
  | nil => rfl
  | cons id ids inductionHypothesis =>
      rw [List.mem_cons, not_or] at unvisited
      rw [List.foldl_cons, inductionHypothesis _ unvisited.2,
        clockAt_judgePath_of_ne s unvisited.1]

/-- Each path is judged once, by what it was when the loop began. -/
theorem removed_iff_tears {s : Session} {ids : List Nat} (distinct : ids.Nodup) {id : Nat}
    (visited : id ∈ ids) {p : Path} (found : s.getPath id = some p) (alive : p.isAlive = true) :
    (ids.foldl (judgePath cfg inputs now held elapsed) s).getPath id = none ↔
      tears cfg now held elapsed p = true := by
  obtain ⟨before, after, rfl⟩ := List.append_of_mem visited
  have apart := List.nodup_append.mp distinct
  have notBefore : id ∉ before := fun mem =>
    apart.2.2 id mem id (List.mem_cons_self ..) rfl
  have notAfter : id ∉ after := (List.nodup_cons.mp apart.2.1).1
  rw [List.foldl_append, List.foldl_cons]
  have kept := @clockAt_visits_of_not_mem cfg inputs now held elapsed before s id notBefore
  generalize before.foldl (judgePath cfg inputs now held elapsed) s = reached at kept
  rw [clockAt, clockAt, found, Option.map_some] at kept
  obtain ⟨q, here, same⟩ := Option.map_eq_some_iff.mp kept
  have aliveHere : q.isAlive = true := by
    have status : q.status = p.status := congrArg PathClock.status same
    rw [← alive, Path.isAlive, Path.isAlive, status]
  rw [← tears_of_clock cfg same, ← clockAt_judgePath_self here aliveHere,
    ← @clockAt_visits_of_not_mem cfg inputs now held elapsed after _ id notAfter, clockAt,
    Option.map_eq_none_iff]

theorem mem_quietPaths {s : Session} {entry : Nat × Path} :
    entry ∈ s.quietPaths cfg ↔ entry ∈ s.alivePaths ∧
      degradeFor cfg.toSessionConfig entry.2 ≤ entry.2.lastRxAgo s.now := by
  simp only [quietPaths, List.mem_filter, decide_eq_true_eq]

theorem correlated_iff {s : Session} {link : String}
    (oneLink : ∀ entry ∈ s.quietPaths cfg, entry.2.link = link)
    (survivor : ∃ entry ∈ s.alivePaths, entry ∉ s.quietPaths cfg)
    {silent : Nat × Path} (quiet : silent ∈ s.quietPaths cfg)
    (past : downFor cfg.toSessionConfig silent.2 ≤ silent.2.lastRxAgo s.now)
    (known : silent.2.rttKnown = true) :
    s.correlated cfg = true ↔
      3 ≤ s.alivePaths.length ∧ (s.quietPaths cfg).length + 1 = s.alivePaths.length := by
  have links : s.quietLinks cfg ≤ 1 := by
    have among : ((s.quietPaths cfg).map fun entry => entry.2.link).dedup ⊆ [link] := by
      intro name mem
      obtain ⟨entry, quiet, rfl⟩ := List.mem_map.mp (List.mem_dedup.mp mem)
      exact List.mem_singleton.mpr (oneLink entry quiet)
    exact ((List.nodup_dedup _).subperm among).length_le
  have someKnown : 0 < ((s.quietPaths cfg).filter fun entry => entry.2.rttKnown).length :=
    List.length_pos_of_mem (List.mem_filter.mpr ⟨quiet, known⟩)
  have someSilent : 0 < (s.silentPaths cfg).length :=
    List.length_pos_of_mem (List.mem_filter.mpr ⟨(mem_quietPaths.mp quiet).1, by simpa using past⟩)
  have fewer : (s.quietPaths cfg).length < s.alivePaths.length := by
    obtain ⟨entry, alive, fresh⟩ := survivor
    refine List.length_filter_lt_length_iff_exists.mpr ⟨entry, alive, ?_⟩
    intro old
    exact fresh (List.mem_filter.mpr ⟨alive, old⟩)
  simp only [correlated, correlatedHold, Bool.or_eq_true, decide_eq_true_eq, Bool.and_eq_true,
    Bool.if_false_left, Bool.not_eq_true', decide_eq_false_iff_not]
  omega

end

end Session

theorem Watch.budgetElapsed_of_correlated {cfg : PoolConfig} {w : Watch}
    (correlated : w.session.correlated cfg = true) :
    w.budgetElapsed cfg = true ↔
      cfg.allDownTimeout ≤ w.session.now - w.correlatedSince.getD w.session.now := by
  rw [budgetElapsed, since, if_pos correlated, Option.any_some, decide_eq_true_eq]

/-- The tick judges every alive path by what it was before. -/
theorem Watch.removed_iff {cfg : PoolConfig} {w next : Watch} {inputs : SilenceInputs}
    (running : w.dead = false) (taken : w.maintainSilence cfg inputs = some next)
    {entry : Nat × Path} (alive : entry ∈ w.session.alivePaths) :
    next.session.getPath entry.1 = none ↔
      Session.tears cfg w.session.now (w.session.correlated cfg) (w.budgetElapsed cfg) entry.2 =
        true := by
  simp only [maintainSilence, running, Bool.false_eq_true, if_false, Option.ite_none_right_eq_some,
    Option.some.injEq] at taken
  obtain ⟨visits, rfl⟩ := taken
  obtain ⟨listed, living⟩ := List.mem_filter.mp alive
  have distinct : inputs.visits.Nodup := visits.nodup_iff.mpr w.session.paths.nodup_keys
  have visited : entry.1 ∈ inputs.visits := visits.mem_iff.mpr (List.mem_map_of_mem listed)
  exact Session.removed_iff_tears distinct visited (Session.mem_entries_iff_getPath.mp listed)
    living

/-- With the quiet paths on one link and another path alive, those past their down clock are torn
in the same tick, unless all but one of the paths are quiet: three or more are alive, a path of
known RTT is past its down clock, and the hold is not over. -/
theorem silent_link_torn_iff {cfg : PoolConfig} {w next : Watch} {inputs : SilenceInputs}
    {link : String} (running : w.dead = false)
    (oneLink : ∀ entry ∈ w.session.quietPaths cfg, entry.2.link = link)
    (survivor : ∃ entry ∈ w.session.alivePaths, entry ∉ w.session.quietPaths cfg)
    (taken : w.maintainSilence cfg inputs = some next) :
    (∀ entry ∈ w.session.quietPaths cfg,
        downFor cfg.toSessionConfig entry.2 ≤ entry.2.lastRxAgo w.session.now →
        next.session.getPath entry.1 = none) ↔
      ¬ (3 ≤ w.session.alivePaths.length ∧
        (w.session.quietPaths cfg).length + 1 = w.session.alivePaths.length ∧
        w.session.now - w.correlatedSince.getD w.session.now < cfg.allDownTimeout ∧
        ∃ entry ∈ w.session.quietPaths cfg,
          downFor cfg.toSessionConfig entry.2 ≤ entry.2.lastRxAgo w.session.now ∧
          entry.2.rttKnown = true) := by
  have removed : ∀ entry ∈ w.session.quietPaths cfg, (next.session.getPath entry.1 = none ↔
      Session.tears cfg w.session.now (w.session.correlated cfg) (w.budgetElapsed cfg) entry.2 =
        true) :=
    fun entry quiet => w.removed_iff running taken (Session.mem_quietPaths.mp quiet).1
  constructor
  · rintro torn ⟨three, allButOne, early, entry, quiet, past, known⟩
    have held := (Session.correlated_iff oneLink survivor quiet past known).mpr ⟨three, allButOne⟩
    have tears := (removed entry quiet).mp (torn entry quiet past)
    simp only [Session.tears, known, held, Bool.not_true, Bool.false_or, Bool.and_eq_true,
      Watch.budgetElapsed_of_correlated held] at tears
    exact absurd tears.2 (Nat.not_le.mpr early)
  · intro notHeld entry quiet past
    refine (removed entry quiet).mpr ?_
    simp only [Session.tears, past, decide_true, Bool.true_and, Bool.or_eq_true,
      Bool.not_eq_true']
    by_cases known : entry.2.rttKnown = true
    · by_cases held : w.session.correlated cfg = true
      · obtain ⟨three, allButOne⟩ :=
          (Session.correlated_iff oneLink survivor quiet past known).mp held
        refine .inr ((Watch.budgetElapsed_of_correlated held).mpr ?_)
        refine Nat.le_of_not_lt fun early => ?_
        exact notHeld ⟨three, allButOne, early, entry, quiet, past, known⟩
      · exact .inl (.inr (Bool.eq_false_iff.mpr held))
    · exact .inl (.inl (Bool.eq_false_iff.mpr known))

def heardAt (link : String) (lastRx : Nat) : Path :=
  { Session.newPath link lastRx with
    rttEwmaUs := 7000
    rttStableUs := 7000 }

/-- Two paths of link `a`, silent for 400 ms, and these of link `b`. -/
def silentLink (others : List Nat) : Watch where
  session :=
    { Session.new with
      now := 400000
      paths := others.foldl (fun paths id => paths.insert id (heardAt "b" 400000))
        ((OrdMap.empty.insert 1 (heardAt "a" 0)).insert 2 (heardAt "a" 0)) }
  correlatedSince := none
  dead := false

def silenceInputs (visits : List Nat) : SilenceInputs :=
  ⟨fun _ => 0, fun _ => 0, visits, fun _ => []⟩

theorem silent_link_torn_iff_four : ∃ next,
    (silentLink [3, 4]).maintainSilence .standard (silenceInputs [1, 2, 3, 4]) = some next ∧
      next.session.getPath 1 = none ∧ next.session.getPath 2 = none := by
  have replayed : ∃ next,
      (silentLink [3, 4]).maintainSilence .standard (silenceInputs [1, 2, 3, 4]) = some next :=
    ⟨_, rfl⟩
  have oneLink : ∀ entry ∈ (silentLink [3, 4]).session.quietPaths .standard,
      entry.2.link = "a" := by
    decide
  obtain ⟨next, taken⟩ := replayed
  have torn := (silent_link_torn_iff rfl oneLink (by decide) taken).mpr (by decide)
  exact ⟨next, taken, torn (1, heardAt "a" 0) (by decide) (by decide),
    torn (2, heardAt "a" 0) (by decide) (by decide)⟩

/-- With one path on the other link, the silent link is all but one of the pool, and is held. -/
theorem silent_link_held : ∃ next,
    (silentLink [3]).maintainSilence .standard (silenceInputs [1, 2, 3]) = some next ∧
      (∀ entry ∈ (silentLink [3]).session.quietPaths .standard, entry.2.link = "a") ∧
      (∃ entry ∈ (silentLink [3]).session.alivePaths,
        entry ∉ (silentLink [3]).session.quietPaths .standard) ∧
      ¬ (∀ entry ∈ (silentLink [3]).session.quietPaths .standard,
        downFor PoolConfig.standard.toSessionConfig entry.2 ≤
          entry.2.lastRxAgo (silentLink [3]).session.now →
        next.session.getPath entry.1 = none) := by
  refine ⟨_, rfl, by decide, by decide, ?_⟩
  intro torn
  have removed := torn (1, heardAt "a" 0) (by decide) (by decide)
  revert removed
  decide

end NyaLink
