import NyaLink.Library.Choice
import NyaLink.Session.Budget
import NyaLink.Proto.Frame

/-!
# The choice of a path

The class of a path's round-trip time, the fastest class and its interactive
subset, and the pickers on top of them: for a new stream or piece, for a bulk
home, for the overflow of a full one, and for a re-send.  Entries are in the
arbitrary order of the session's table.
-/

namespace NyaLink

/-- The settings the choice of a path reads besides: the formulas that scale a round-trip
time. -/
structure PickConfig extends SessionConfig where
  backupBound : Nat → Nat
  classJumpBound : Nat → Nat
  failbackDelta : Nat → Nat
  classDropNeed : Nat → Nat
  /-- `1 - class_drop_frac` of the class. -/
  classFloor : Nat → Nat
  loopDecay : Nat → Nat → Nat

def PickConfig.standard : PickConfig where
  toSessionConfig := .standard
  backupBound least := least * 2 + 20000
  classJumpBound better := better * 3 / 2 + 8000
  failbackDelta better := max 8000 (better * 45 / 100)
  classDropNeed cls := max 8000 (cls / 4)
  classFloor cls := cls * 3 / 4
  -- `mul_f64` rounds to the nearest nanosecond; the error of its `f64` is left out.
  loopDecay extra age :=
    (extra * 1000 * (minRttWinUs - age) + minRttWinUs / 2) / minRttWinUs

inductive PickPref where
  | any
  | interactive
  deriving DecidableEq, Repr

namespace Path

def classKnown (p : Path) : Bool := p.rttClassUs != 0

end Path

/-! ## Classes -/

section

variable (cfg : PickConfig)

def classJump (current better : Nat) : Bool := decide (cfg.classJumpBound better ≤ current)

def shouldFailback (current better : Nat) : Bool :=
  if current ≤ better then false
  else classJump cfg current better || decide (cfg.failbackDelta better ≤ current - better)

def classShouldDrop (cls fast : Nat) : Bool := decide (cfg.classDropNeed cls ≤ cls - fast)

def isBackup (rtt least : Nat) : Bool := decide (cfg.backupBound least < rtt)

/-- `effective_class_rtt`: a stale-high class yields to the fast RTT. -/
def effectiveClassRtt (p : Path) : Nat :=
  if p.classKnown && shouldFailback cfg p.classRtt p.rttUs then p.rttUs else p.classRtt

/-- The least class among the paths that `known` admits. -/
def leastClassRtt (known : Path → Bool) (paths : List (Nat × Path)) : Option Nat :=
  ((paths.filter fun entry => known entry.2).map fun entry => effectiveClassRtt cfg entry.2).min?

def minClassRtt (paths : List (Nat × Path)) : Nat :=
  ((leastClassRtt cfg Path.classKnown paths).or
    ((leastClassRtt cfg Path.rttKnown paths).or
      (leastClassRtt cfg (fun _ => true) paths))).getD cfg.pingIntervalMax

def isUsable (least : Nat) (p : Path) : Bool :=
  p.isSchedulable && p.rttKnown && !isBackup cfg (effectiveClassRtt cfg p) least

def classCandidates (paths : List (Nat × Path)) : List (Nat × Path) :=
  let alive := paths.filter fun entry => entry.2.isAlive
  let least := minClassRtt cfg alive
  Choice.orIfEmpty (alive.filter fun entry => isUsable cfg least entry.2)
    (Choice.orIfEmpty (alive.filter fun entry => entry.2.isSchedulable)
      (Choice.orIfEmpty (alive.filter fun entry => entry.2.isUp) alive))

def memberRtt (p : Path) : Nat := if p.classKnown then effectiveClassRtt cfg p else p.rttUs

def bestClassRtt (cands : List (Nat × Path)) : Option Nat :=
  (leastClassRtt cfg Path.classKnown cands).or (leastClassRtt cfg Path.rttKnown cands)

def fastestClassSet (paths : List (Nat × Path)) : List (Nat × Path) :=
  let cands := classCandidates cfg paths
  match bestClassRtt cfg cands with
  | none => cands
  | some best =>
      Choice.filterOrAll (fun entry => !shouldFailback cfg (memberRtt cfg entry.2) best) cands

/-! ## The interactive class -/

def interactiveBestRtt (p : Path) : Nat :=
  if p.classKnown && classJump cfg p.rttUs p.classRtt then p.classRtt
  else
    let low := min (min p.rttUs p.stableRtt) p.classRtt
    if p.classKnown && classShouldDrop cfg p.classRtt low then p.classRtt else low

def interactiveCandRtt (p : Path) : Nat := max p.rttUs p.classRtt

def interactiveLeave (cand best : Nat) : Bool :=
  if cand ≤ best then false else shouldFailback cfg cand best || classShouldDrop cfg cand best

/-- The reference of the interactive subset: the best live clock, but not below what the
classes allow. -/
def interactiveBest (base : List (Nat × Path)) : Option Nat :=
  let source := Choice.filterOrAll
    (fun entry => !entry.2.classKnown || !classJump cfg entry.2.rttUs entry.2.classRtt) base
  (source.map fun entry => interactiveBestRtt cfg entry.2).min?.map fun rawBest =>
    max rawBest ((((source.filter fun entry => entry.2.classKnown).map fun entry =>
      entry.2.classRtt).min?.map cfg.classFloor).getD rawBest)

def interactiveClassSet (paths : List (Nat × Path)) : List (Nat × Path) :=
  let base := fastestClassSet cfg paths
  match interactiveBest cfg base with
  | none => base
  | some best =>
      Choice.filterOrAll
        (fun entry => !interactiveLeave cfg (interactiveCandRtt entry.2) best) base

def classSet (pref : PickPref) (paths : List (Nat × Path)) : List (Nat × Path) :=
  match pref with
  | .any => fastestClassSet cfg paths
  | .interactive => interactiveClassSet cfg paths

/-! ## Scores -/

/-- `load_term`. -/
def loadTermPref (pref : PickPref) (p : Path) : Nat :=
  let bias := max cfg.inflightBias 1
  match pref with
  | .any => 1 + p.inflight / bias + p.stickyStreams
  | .interactive => 1 + p.inflight / max (bias / 4) 1 + p.stickyStreams

/-- The first component of `path_score`. -/
def pathScorePref (pref : PickPref) (p : Path) : Nat :=
  satAdd (satMul (satMul p.classRtt (loadTermPref cfg pref p)) 1024)
    (satMul (rttScoreUs cfg.toSessionConfig p) (loadTermPref cfg pref p))

def scored (pref : PickPref) (entry : Nat × Path) : Nat × Bool × Nat :=
  (pathScorePref cfg pref entry.2, entry.2.rttKnown, entry.1)

def betterScored (best p : Nat × Bool × Nat) : Bool :=
  decide (p.1 < best.1) ||
  (p.1 == best.1 && p.2.1 && !best.2.1) ||
  (p.1 == best.1 && p.2.1 == best.2.1 && decide (p.2.2 < best.2.2))

def pickFromScored (pref : PickPref) : List (Nat × Path) → Option Nat
  | [] => none
  | first :: rest =>
      some ((first :: rest).foldl (fun best entry =>
        if betterScored best (scored cfg pref entry) then scored cfg pref entry else best)
        (u64Max, first.2.rttKnown, first.1)).2.2

variable (now : Nat)

def lossFreshOrAll (cands : List (Nat × Path)) : List (Nat × Path) :=
  Choice.filterOrAll (fun entry => isLossFresh cfg.toSessionConfig now entry.2) cands

def pickFrom (pref : PickPref) (cands : List (Nat × Path)) : Option Nat :=
  pickFromScored cfg pref (lossFreshOrAll cfg now cands)

def pickPathPref (pref : PickPref) (paths : List (Nat × Path)) : Option Nat :=
  pickFrom cfg now pref (classSet cfg pref paths)

/-! ## Bulk -/

/-- `loaded_sojourn`, in nanoseconds. -/
def loadedSojourn (b : PathBudget) (p : Path) : Option Nat :=
  let outstanding := decide (0 < p.inflight)
  match b.ackRttFresh p now with
  | some loop => some ((if outstanding then max loop (p.lastRxAgo now) else loop) * 1000)
  | none =>
      if outstanding then some (max ((b.minRtt p now).getD p.rttUs) (p.lastRxAgo now) * 1000)
      else none

/-- `decayed_sojourn`, in nanoseconds. -/
def decayedSojourn (b : PathBudget) (p : Path) : Option Nat :=
  match p.ackRtt, b.minRtt p now with
  | some last, some least =>
      if b.ackRttAtUs = 0 then none
      else some (least * 1000 + cfg.loopDecay (last - least) (now - b.ackRttAtUs))
  | _, _ => none

/-- `loop_fit`: the loop is no backup to the pool's reference. -/
def loopFit (poolRef : Option Nat) (b : PathBudget) (p : Path) : Bool :=
  match (loadedSojourn now b p).or (decayedSojourn cfg now b p), poolRef with
  | some loop, some reference =>
      !decide (cfg.backupBound (reference / 1000) * 1000 < loop)
  | _, _ => true

def hasBulkRoom (b : PathBudget) (p : Path) : Bool := decide (maxStreamPayload ≤ b.roomBytes p)

/-- `is_quiet_fresh` and schedulable: what bulk goes to. -/
def quietFreshOf (entry : Nat × Path) : Bool := isQuietFresh cfg.toSessionConfig now entry.2

variable (budgets : Nat → PathBudget) (poolRef : Option Nat) (hasInteractive : Nat → Bool)

def hasRoomOf (entry : Nat × Path) : Bool := hasBulkRoom (budgets entry.1) entry.2

def loopFitOf (entry : Nat × Path) : Bool := loopFit cfg now poolRef (budgets entry.1) entry.2

def quietOrAll (cands : List (Nat × Path)) : List (Nat × Path) :=
  Choice.filterOrAll (fun entry => !hasInteractive entry.1) cands

/-- The paths `pick_bulk` looks for room on. -/
def bulkFresh (exclude : Option Nat) (paths : List (Nat × Path)) : List (Nat × Path) :=
  Choice.filterOrAll (quietFreshOf cfg now)
    ((fastestClassSet cfg paths).filter fun entry =>
      entry.2.isSchedulable && decide (some entry.1 ≠ exclude))

def bulkCandidates (exclude : Option Nat) (paths : List (Nat × Path)) : List (Nat × Path) :=
  quietOrAll hasInteractive
    (Choice.filterOrAll (loopFitOf cfg now budgets poolRef)
      ((bulkFresh cfg now exclude paths).filter (hasRoomOf budgets)))

/-- `pick_bulk`, and the paths whose round it marks as limited. -/
def pickBulk (exclude : Option Nat) (paths : List (Nat × Path)) : Option Nat × List Nat :=
  (pickFromScored cfg .any (bulkCandidates cfg now budgets poolRef hasInteractive exclude paths),
    ((bulkFresh cfg now exclude paths).filter fun entry => !hasRoomOf budgets entry).map Prod.fst)

def overflowFit (sticky : Nat) (paths : List (Nat × Path)) : List (Nat × Path) :=
  (fastestClassSet cfg paths).filter fun entry =>
    decide (entry.1 ≠ sticky) && entry.2.isSchedulable && quietFreshOf cfg now entry &&
      loopFitOf cfg now budgets poolRef entry

def overflowCandidates (sticky : Nat) (paths : List (Nat × Path)) : List (Nat × Path) :=
  quietOrAll hasInteractive
    ((overflowFit cfg now budgets poolRef sticky paths).filter (hasRoomOf budgets))

/-- `bulk_overflow_pick`, and the paths whose round it marks as limited. -/
def bulkOverflowPick (sticky : Nat) (paths : List (Nat × Path)) : Option Nat × List Nat :=
  (pickFromScored cfg .any
      (overflowCandidates cfg now budgets poolRef hasInteractive sticky paths),
    ((overflowFit cfg now budgets poolRef sticky paths).filter fun entry =>
      !hasRoomOf budgets entry).map Prod.fst)

end

end NyaLink
