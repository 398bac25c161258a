import NyaLink.Session.HolPass
import NyaLink.Session.Sticky
import NyaLink.Library.Machine
import Mathlib.Order.OrderIsoNat

/-!
# Steering comes to rest

While no bytes come to be in flight or are acknowledged and no stream comes, goes or changes
its kind, the streams stop moving, whatever else is observed of the paths and however time
passes.  An interactive stream only goes to paths with less in flight.  A bulk stream leaves a
connection with interactive streams for one without, and only an interactive stream that moves
can crowd it again.  A path takes in a bulk stream for its loop once without a new ACK sample.
The potential weighs the first above the other two.
-/

namespace NyaLink

namespace Session

theorem inflight_modifyPath (s : Session) (target other : Nat) {change : Path → Path}
    (kept : ∀ p, (change p).inflight = p.inflight) :
    ((s.modifyPath target change).getPath other).map Path.inflight =
      (s.getPath other).map Path.inflight := by
  rw [getPath_modifyPath]
  split
  · rw [Option.map_map]
    exact congrArg (fun f => (s.getPath other).map f) (funext kept)
  · rfl

theorem inflight_addSticky (s : Session) (target other : Nat) :
    ((s.addSticky target).getPath other).map Path.inflight =
      (s.getPath other).map Path.inflight :=
  s.inflight_modifyPath target other fun _ => rfl

theorem inflight_dropSticky (s : Session) (target other : Nat) :
    ((s.dropSticky target).getPath other).map Path.inflight =
      (s.getPath other).map Path.inflight :=
  s.inflight_modifyPath target other fun _ => rfl

theorem inflight_setSticky (s : Session) (id path other : Nat) :
    ((s.setSticky id path).getPath other).map Path.inflight =
      (s.getPath other).map Path.inflight := by
  unfold setSticky
  split
  · rfl
  · split
    · rfl
    · refine (inflight_addSticky _ path other).trans ?_
      split
      · rfl
      · exact inflight_dropSticky _ _ other

theorem setSticky_now (s : Session) (id path : Nat) : (s.setSticky id path).now = s.now := by
  unfold setSticky
  split
  · rfl
  · split
    · rfl
    · split <;> rfl

theorem setSticky_streams_of_moves {s : Session} {id path : Nat} {st : StreamState}
    (stream : s.getStream id = some st) (steerable : st.isSteerable = true)
    (other : path ≠ st.sticky) :
    (s.setSticky id path).streams =
      s.streams.modify id fun st => { st with sticky := path } := by
  have moves : (!st.isSteerable || st.sticky == path) = false := by
    simp [steerable, other.symm]
  simp only [setSticky, stream, moves, Bool.false_eq_true, if_false]
  split <;> rfl

theorem connHasInteractive_iff {cfg : SessionConfig} {s : Session} {path : Nat} :
    s.connHasInteractive cfg path = true ↔ ∃ id st, s.getStream id = some st ∧
      st.pinsConn cfg s.now = true ∧ st.sticky = path := by
  simp only [connHasInteractive, List.any_eq_true, Bool.and_eq_true, Bool.not_eq_true',
    beq_iff_eq]
  constructor
  · rintro ⟨⟨id, st⟩, present, ⟨kept, pins⟩, stuck⟩
    exact ⟨id, st, getStream_eq_some_iff.mpr ⟨OrdMap.get?_eq_some_iff.mpr present, kept⟩, pins,
      stuck⟩
  · rintro ⟨id, st, found, pins, stuck⟩
    obtain ⟨present, kept⟩ := getStream_eq_some_iff.mp found
    exact ⟨(id, st), OrdMap.get?_eq_some_iff.mp present, ⟨kept, pins⟩, stuck⟩

theorem connHasInteractive_later {cfg : SessionConfig} {s t : Session}
    (streams : t.streams = s.streams) (later : s.now ≤ t.now) {path : Nat}
    (crowded : t.connHasInteractive cfg path = true) : s.connHasInteractive cfg path = true := by
  rw [connHasInteractive_iff] at crowded ⊢
  obtain ⟨id, st, found, pins, stuck⟩ := crowded
  refine ⟨id, st, ?_, ?_, stuck⟩
  · rw [getStream, ← streams]
    exact found
  · have elapsed : monoMs s.now ≤ monoMs t.now := Nat.div_le_div_right later
    simp only [StreamState.pinsConn, Bool.and_eq_true, Bool.not_eq_true', Bool.and_eq_false_iff,
      decide_eq_false_iff_not] at pins ⊢
    refine pins.imp_right fun still => still.imp_right fun loose => ?_
    omega

end Session

namespace Steering

variable {cfg : SteerConfig} {s t : Steering} {id dest : Nat} {st : StreamState}

def moves (s : Steering) : Nat := s.holRebalances + s.migratesLoopUnfit

/-- Every ACK sample is of the past. -/
def Sampled (s : Steering) : Prop := ∀ path, (s.budgets path).ackRttAtUs ≤ s.session.now

/-- One stream is stuck to another path, and little else a choice reads has changed. -/
structure Relocated (s : Steering) (id dest : Nat) (t : Steering) : Prop where
  now : t.session.now = s.session.now
  budgets : t.budgets = s.budgets
  paths : ∀ other, (t.session.getPath other).map Path.inflight =
    (s.session.getPath other).map Path.inflight
  streams : t.session.streams =
    s.session.streams.modify id fun st => { st with sticky := dest }

theorem relocated_setSticky (stream : s.session.getStream id = some st)
    (steerable : st.isSteerable = true) (other : dest ≠ st.sticky) :
    Relocated s id dest (s.setSticky id dest) := by
  have moves : (!st.isSteerable || st.sticky == dest) = false := by
    simp [steerable, other.symm]
  have session : (s.setSticky id dest).session = s.session.setSticky id dest := by
    simp only [setSticky, stream, moves, Bool.false_eq_true, if_false]
  refine ⟨?_, ?_, fun path => ?_, ?_⟩
  · rw [session, Session.setSticky_now]
  · simp only [setSticky, stream, moves, Bool.false_eq_true, if_false]
  · rw [session, Session.inflight_setSticky]
  · rw [session, Session.setSticky_streams_of_moves stream steerable other]

/-! ## The potential -/

def isLive (st : StreamState) : Bool := !st.gone && st.isSteerable

/-- How many paths have less in flight than this one. -/
def lighterPaths (s : Steering) (path : Nat) : Nat :=
  match s.session.getPath path with
  | none => 0
  | some cur => s.session.paths.total fun _ p => if p.inflight < cur.inflight then 1 else 0

/-- What keeps a bulk stream from staying on a path. -/
def bulkRank (cfg : SteerConfig) (s : Steering) (path : Nat) : Nat :=
  if s.hasInteractive cfg path then 1 else 0

def interactiveLoad (s : Steering) : Nat :=
  s.session.streams.total fun _ st =>
    if isLive st && !st.bulk then s.lighterPaths st.sticky else 0

def bulkLoad (cfg : SteerConfig) (s : Steering) : Nat :=
  s.session.streams.total fun _ st =>
    if isLive st && st.bulk then s.bulkRank cfg st.sticky else 0

/-- The paths that may take in a bulk stream for its loop without a new ACK sample. -/
def openTargets (s : Steering) : Nat :=
  s.session.paths.total fun path _ =>
    if s.restickInAt path = 0 ∨ s.restickInAt path < (s.budgets path).ackRttAtUs then 1 else 0

def bulkCount (s : Steering) : Nat :=
  s.session.streams.total fun _ st => if isLive st && st.bulk then 1 else 0

def interactiveCount (s : Steering) : Nat :=
  s.session.streams.total fun _ st => if isLive st && !st.bulk then 1 else 0

def potential (cfg : SteerConfig) (s : Steering) : Nat :=
  s.interactiveLoad * (s.bulkCount + 1) + s.bulkLoad cfg + s.openTargets

theorem bulkRank_le (cfg : SteerConfig) (s : Steering) (path : Nat) : s.bulkRank cfg path ≤ 1 := by
  unfold bulkRank
  split
  · exact le_rfl
  · exact Nat.zero_le 1

theorem bulkLoad_le (cfg : SteerConfig) (s : Steering) : s.bulkLoad cfg ≤ s.bulkCount := by
  refine OrdMap.total_le_total fun _ st _ => ?_
  split
  · exact s.bulkRank_le cfg st.sticky
  · exact le_rfl

theorem lighterPaths_of_view
    (paths : ∀ other, (t.session.getPath other).map Path.inflight =
      (s.session.getPath other).map Path.inflight) (path : Nat) :
    t.lighterPaths path = s.lighterPaths path := by
  have found := paths path
  simp only [Steering.lighterPaths]
  cases before : s.session.getPath path with
  | none =>
      rw [before, Option.map_none, Option.map_eq_none_iff] at found
      rw [found]
  | some cur =>
      rw [before, Option.map_some, Option.map_eq_some_iff] at found
      obtain ⟨after, reached, load⟩ := found
      rw [reached]
      simp only [load]
      exact OrdMap.total_of_view paths fun _ inflight => if inflight < cur.inflight then 1 else 0

theorem openTargets_of_view
    (paths : ∀ other, (t.session.getPath other).map Path.inflight =
      (s.session.getPath other).map Path.inflight)
    (samples : ∀ path, (t.budgets path).ackRttAtUs = (s.budgets path).ackRttAtUs)
    (marks : t.restickInAt = s.restickInAt) : t.openTargets = s.openTargets := by
  simp only [openTargets, samples, marks]
  exact OrdMap.total_of_view paths fun path _ =>
    if s.restickInAt path = 0 ∨ s.restickInAt path < (s.budgets path).ackRttAtUs then 1 else 0

section

variable (relocated : Relocated s id dest t)

include relocated

theorem Relocated.lighterPaths (path : Nat) : t.lighterPaths path = s.lighterPaths path :=
  lighterPaths_of_view relocated.paths path

theorem Relocated.openTargets (marks : t.restickInAt = s.restickInAt) :
    t.openTargets = s.openTargets :=
  openTargets_of_view relocated.paths (fun _ => by rw [relocated.budgets]) marks

theorem Relocated.getStream (other : Nat) :
    t.session.getStream other =
      if other = id then (s.session.getStream id).map fun st => { st with sticky := dest }
      else s.session.getStream other := by
  simp only [Session.getStream, relocated.streams, OrdMap.get?_modify]
  split
  · rename_i same
    rw [same]
    cases s.session.streams.get? id with
    | none => rfl
    | some st =>
        simp only [Option.map_some, Option.filter_some]
        split <;> rfl
  · rfl

theorem Relocated.hasInteractive (stream : s.session.getStream id = some st) (kind : st.bulk = true)
    (path : Nat) : t.hasInteractive cfg path = s.hasInteractive cfg path := by
  rw [Bool.eq_iff_iff]
  simp only [Steering.hasInteractive, Session.connHasInteractive_iff, relocated.now]
  refine exists_congr fun other => exists_congr fun held => ?_
  rw [relocated.getStream, stream]
  split
  · rename_i same
    subst same
    constructor
    · rintro ⟨found, pins, -⟩
      cases found
      simp [StreamState.pinsConn, kind] at pins
    · rintro ⟨found, pins, -⟩
      rw [stream] at found
      cases found
      simp [StreamState.pinsConn, kind] at pins
  · exact Iff.rfl

/-! ## Every move lowers the potential -/

theorem Relocated.bulkCount : t.bulkCount = s.bulkCount := by
  simp only [Steering.bulkCount, relocated.streams, OrdMap.modify, OrdMap.total_mapValues]
  refine OrdMap.total_congr fun other held _ => ?_
  split <;> rfl

/-- The sum of what the streams of one kind weigh, by the path they are stuck to. -/
theorem Relocated.total_eq (kind : StreamState → Bool) (rank : Nat → Nat)
    (stream : s.session.getStream id = some st)
    (kept : ∀ st : StreamState, kind { st with sticky := dest } = kind st) :
    (t.session.streams.total fun _ st => if kind st then rank st.sticky else 0) +
        (if kind st then rank st.sticky else 0) =
      (s.session.streams.total fun _ st => if kind st then rank st.sticky else 0) +
        if kind st then rank dest else 0 := by
  have found := (Session.getStream_eq_some_iff.mp stream).1
  rw [relocated.streams]
  have moved := OrdMap.total_modify_of_some
    (fun _ st => if kind st then rank st.sticky else 0)
    (fun st => { st with sticky := dest }) found
  simpa only [kept] using moved

end

theorem isLive_of_steerable (stream : s.session.getStream id = some st)
    (steerable : st.isSteerable = true) : isLive st = true := by
  simp [isLive, (Session.getStream_eq_some_iff.mp stream).2, steerable]

theorem Relocated.potential_interactive (relocated : Relocated s id dest t)
    (marks : t.restickInAt = s.restickInAt)
    (stream : s.session.getStream id = some st) (steerable : st.isSteerable = true)
    (kind : st.bulk = false) (lighter : s.lighterPaths dest < s.lighterPaths st.sticky) :
    t.potential cfg < s.potential cfg := by
  have live := isLive_of_steerable stream steerable
  have sum : t.interactiveLoad + s.lighterPaths st.sticky =
      s.interactiveLoad + s.lighterPaths dest := by
    have total := relocated.total_eq (fun st => isLive st && !st.bulk) s.lighterPaths
      stream fun _ => rfl
    simpa [interactiveLoad, relocated.lighterPaths, live, kind] using total
  have less : t.interactiveLoad + 1 ≤ s.interactiveLoad := by omega
  have bulk : t.bulkLoad cfg ≤ s.bulkCount := relocated.bulkCount ▸ t.bulkLoad_le cfg
  have targets := relocated.openTargets marks
  calc t.potential cfg
      = t.interactiveLoad * (s.bulkCount + 1) + t.bulkLoad cfg + s.openTargets := by
        rw [potential, relocated.bulkCount, targets]
    _ < (t.interactiveLoad + 1) * (s.bulkCount + 1) + s.openTargets := by
        rw [Nat.add_mul, Nat.one_mul]
        omega
    _ ≤ s.interactiveLoad * (s.bulkCount + 1) + s.openTargets :=
        Nat.add_le_add_right (Nat.mul_le_mul_right _ less) _
    _ ≤ s.potential cfg := Nat.add_le_add_right (Nat.le_add_right _ _) _

theorem Relocated.bulkLoad_add (cfg : SteerConfig) (relocated : Relocated s id dest t)
    (stream : s.session.getStream id = some st) (steerable : st.isSteerable = true)
    (kind : st.bulk = true) :
    t.bulkLoad cfg + s.bulkRank cfg st.sticky = s.bulkLoad cfg + s.bulkRank cfg dest ∧
      t.interactiveLoad = s.interactiveLoad := by
  have live := isLive_of_steerable stream steerable
  have ranks : t.bulkRank cfg = s.bulkRank cfg := by
    funext path
    simp only [bulkRank, relocated.hasInteractive stream kind]
  constructor
  · have total := relocated.total_eq (fun st => isLive st && st.bulk) (s.bulkRank cfg)
      stream fun _ => rfl
    simpa [bulkLoad, ranks, live, kind] using total
  · have total := relocated.total_eq (fun st => isLive st && !st.bulk) s.lighterPaths
      stream fun _ => rfl
    simpa [interactiveLoad, relocated.lighterPaths, live, kind] using total

theorem Relocated.potential_bulk (relocated : Relocated s id dest t)
    (marks : t.restickInAt = s.restickInAt)
    (stream : s.session.getStream id = some st) (steerable : st.isSteerable = true)
    (kind : st.bulk = true) (lower : s.bulkRank cfg dest < s.bulkRank cfg st.sticky) :
    t.potential cfg < s.potential cfg := by
  obtain ⟨bulk, interactive⟩ := relocated.bulkLoad_add cfg stream steerable kind
  simp only [potential, relocated.bulkCount, interactive, relocated.openTargets marks]
  omega

theorem Relocated.potential_restick (relocated : Relocated s id dest t)
    (stream : s.session.getStream id = some st) (steerable : st.isSteerable = true)
    (kind : st.bulk = true) (free : s.bulkRank cfg dest = 0)
    (fewer : t.openTargets < s.openTargets) : t.potential cfg < s.potential cfg := by
  obtain ⟨bulk, interactive⟩ := relocated.bulkLoad_add cfg stream steerable kind
  simp only [potential, relocated.bulkCount, interactive]
  omega

theorem lighterPaths_lt {cur target : Path} {path : Nat}
    (source : s.session.getPath path = some cur) (found : s.session.getPath dest = some target)
    (lighter : target.inflight < cur.inflight) : s.lighterPaths dest < s.lighterPaths path := by
  simp only [lighterPaths, source, found]
  refine OrdMap.total_lt_total (fun _ p _ => ?_) found ?_
  · split_ifs with below above
    · exact le_rfl
    · exact absurd (below.trans lighter) above
    · exact Nat.zero_le 1
    · exact le_rfl
  · simp [lighter]

theorem inflight_of_shouldRebalance {now : Nat} {cur alt : Nat × Path}
    (moves : shouldRebalanceConn cfg now cur alt = true) :
    alt.1 ≠ cur.1 ∧ alt.2.inflight + cfg.rebalanceSlack < cur.2.inflight := by
  unfold shouldRebalanceConn at moves
  split at moves
  · cases moves
  · rename_i admits
    split at moves
    · cases moves
    · simp only [Bool.or_eq_true, decide_eq_true_eq, not_or] at admits
      exact ⟨fun same => admits.1.1 same.symm, of_decide_eq_true moves⟩

theorem setSticky_counters (s : Steering) (id path : Nat) :
    (s.setSticky id path).holRebalances = s.holRebalances ∧
      (s.setSticky id path).migratesLoopUnfit = s.migratesLoopUnfit ∧
      (s.setSticky id path).restickInAt = s.restickInAt ∧
      (s.setSticky id path).resticks = s.resticks := by
  unfold setSticky
  split
  · exact ⟨rfl, rfl, rfl, rfl⟩
  · split <;> exact ⟨rfl, rfl, rfl, rfl⟩

theorem Relocated.counted (relocated : Relocated s id dest t) (holRebalances : Nat) :
    Relocated s id dest { t with holRebalances := holRebalances } :=
  ⟨relocated.now, relocated.budgets, relocated.paths, relocated.streams⟩

theorem relocated_restick (stream : s.session.getStream id = some st)
    (steerable : st.isSteerable = true) (other : dest ≠ st.sticky) :
    Relocated s id dest (s.restick id dest) := by
  have relocated := @relocated_setSticky { s with
    restickInAt := fun other =>
      if other = dest ∧ (s.session.getPath dest).isSome then max s.session.now 1
      else s.restickInAt other } id dest st stream steerable other
  exact ⟨relocated.now, relocated.budgets, relocated.paths, relocated.streams⟩

theorem restick_moves (s : Steering) (id dest : Nat) :
    (s.restick id dest).moves = s.moves + 1 := by
  obtain ⟨rebalances, -, -, -⟩ := setSticky_counters { s with
    restickInAt := fun other =>
      if other = dest ∧ (s.session.getPath dest).isSome then max s.session.now 1
      else s.restickInAt other } id dest
  simp only [moves, restick, rebalances]
  omega

theorem restickInAt_restick {target : Path} (found : s.session.getPath dest = some target) :
    (s.restick id dest).restickInAt =
      fun other => if other = dest then max s.session.now 1 else s.restickInAt other := by
  obtain ⟨-, -, marks, -⟩ := setSticky_counters { s with
    restickInAt := fun other =>
      if other = dest ∧ (s.session.getPath dest).isSome then max s.session.now 1
      else s.restickInAt other } id dest
  refine marks.trans (funext fun other => ?_)
  simp only [found, Option.isSome_some, and_true]

theorem openTargets_restick (sampled : s.Sampled)
    (relocated : Relocated s id dest (s.restick id dest))
    {target : Path} (found : s.session.getPath dest = some target)
    (ready : s.restickReady (dest, target) = true) :
    (s.restick id dest).openTargets < s.openTargets := by
  have after : (s.restick id dest).openTargets = s.session.paths.total fun path _ =>
      if path = dest then 0
      else if s.restickInAt path = 0 ∨ s.restickInAt path < (s.budgets path).ackRttAtUs then 1
      else 0 := by
    have seen := OrdMap.total_of_view relocated.paths fun path _ =>
      if (s.restick id dest).restickInAt path = 0 ∨
        (s.restick id dest).restickInAt path < (s.budgets path).ackRttAtUs then 1 else 0
    simp only [openTargets, relocated.budgets]
    refine seen.trans (OrdMap.total_congr fun path _ _ => ?_)
    rw [restickInAt_restick found]
    by_cases same : path = dest
    · have past := sampled path
      simp only [same, if_true]
      rw [same] at past
      exact if_neg (by omega)
    · simp only [same, if_false]
  rw [after]
  refine OrdMap.total_lt_total (fun path _ _ => ?_) found ?_
  · split
    · exact Nat.zero_le _
    · exact le_rfl
  · simp only [restickReady, Bool.or_eq_true, beq_iff_eq, Bool.and_eq_true,
      decide_eq_true_eq] at ready
    simp only [if_true]
    rw [if_pos (ready.imp_right And.left)]
    exact Nat.zero_lt_one

theorem bulkRank_crowded {path : Nat} (crowded : s.hasInteractive cfg path = true) :
    s.bulkRank cfg path = 1 := by
  rw [bulkRank, if_pos crowded]

theorem bulkRank_free {path : Nat} (free : s.hasInteractive cfg path = false) :
    s.bulkRank cfg path = 0 := by
  rw [bulkRank, if_neg (by simp [free])]

/-- Every move is counted once and lowers the potential; it leaves the clock and the samples. -/
theorem HolMove.lowers (move : HolMove cfg s id t) (sampled : s.Sampled) :
    t.Sampled ∧ t.moves = s.moves + 1 ∧ t.potential cfg < s.potential cfg := by
  have still {u : Steering} {stream dest : Nat} (relocated : Relocated s stream dest u) :
      u.Sampled := by
    intro path
    rw [relocated.budgets, relocated.now]
    exact sampled path
  cases move with
  | @interactive st cur target dest stream steerable kind source found lighter =>
      obtain ⟨other, less⟩ := inflight_of_shouldRebalance lighter
      obtain ⟨rebalances, unfit, marks, -⟩ := s.setSticky_counters id dest
      have below : target.inflight < cur.inflight := by
        simp only at less
        omega
      have relocated := (relocated_setSticky stream steerable other).counted (s.holRebalances + 1)
      refine ⟨still relocated, by simp only [moves, unfit]; omega, ?_⟩
      exact relocated.potential_interactive marks stream steerable kind
        (lighterPaths_lt source found below)
  | @bulk st cur target dest stream steerable kind source found other crowded free =>
      obtain ⟨rebalances, unfit, marks, -⟩ := s.setSticky_counters id dest
      have relocated := (relocated_setSticky stream steerable other).counted (s.holRebalances + 1)
      refine ⟨still relocated, by simp only [moves, unfit]; omega, ?_⟩
      refine relocated.potential_bulk marks stream steerable kind ?_
      rw [bulkRank_crowded crowded, bulkRank_free free]
      exact Nat.zero_lt_one
  | @restick st cur target dest stream steerable kind source found unfit cooled chosen =>
      obtain ⟨-, other, -, free, -, ready⟩ := mem_restickCands chosen
      have relocated := relocated_restick stream steerable other
      refine ⟨still relocated, s.restick_moves id dest, ?_⟩
      exact relocated.potential_restick stream steerable kind (bulkRank_free free)
        (openTargets_restick sampled relocated found ready)

/-! ## Runs -/

/-- A call of `maybe_hol` on a stream, with the path table in the order it is listed in. -/
structure HolCall where
  stream : Nat
  paths : List (Nat × Path)

def holStep (cfg : SteerConfig) (s : Steering) (call : HolCall) : Option Steering :=
  if call.paths.Perm s.session.paths.entries then some (s.maybeHol cfg call.paths call.stream)
  else none

theorem holStep_cases {call : HolCall} (taken : holStep cfg s call = some t) :
    HolMove cfg s call.stream t ∨ t = s ∧ ∀ next, ¬HolMove cfg s call.stream next := by
  unfold holStep at taken
  split at taken
  · rename_i listed
    obtain rfl := Option.some.inj taken
    exact maybeHol_cases listed
  · cases taken

inductive HolAction where
  | hol (call : HolCall)
  | elapse (time : Nat)
  | observe (id : Nat) (p : Path) (b : PathBudget)
  | poolRef (poolRef : Option Nat)

/-- What is in flight, the ACK samples and the streams stay as they are. -/
def settledStep (cfg : SteerConfig) (s : Steering) : HolAction → Option Steering
  | .hol call => holStep cfg s call
  | .elapse time => some { s with session := { s.session with now := s.session.now + time } }
  | .observe id p b =>
      if (s.session.getPath id).map Path.inflight = some p.inflight ∧
          b.ackRttAtUs = (s.budgets id).ackRttAtUs then
        some { s with
          session := s.session.modifyPath id fun _ => p
          budgets := fun other => if other = id then b else s.budgets other }
      else none
  | .poolRef poolRef => some { s with poolRef := poolRef }

def holMachine (cfg : SteerConfig) : Machine Steering HolAction := ⟨fun _ => True, settledStep cfg⟩

/-- The most moves there are left to make. -/
def holBound (s : Steering) : Nat :=
  s.interactiveCount * (s.session.paths.size - 1) * (s.bulkCount + 1) + s.bulkCount +
    s.session.paths.size

theorem lighterPaths_le (s : Steering) (path : Nat) :
    s.lighterPaths path ≤ s.session.paths.size - 1 := by
  unfold lighterPaths
  split
  · exact Nat.zero_le _
  · rename_i cur source
    have fewer : (s.session.paths.total fun _ p => if p.inflight < cur.inflight then 1 else 0) <
        s.session.paths.total fun _ _ => 1 := by
      refine OrdMap.total_lt_total (fun _ p _ => ?_) source (by simp)
      split
      · exact le_rfl
      · exact Nat.zero_le 1
    rw [OrdMap.size_eq_total]
    omega

theorem openTargets_le (s : Steering) : s.openTargets ≤ s.session.paths.size := by
  rw [OrdMap.size_eq_total]
  refine OrdMap.total_le_total fun _ _ _ => ?_
  split
  · exact le_rfl
  · exact Nat.zero_le 1

theorem potential_le (cfg : SteerConfig) (s : Steering) : s.potential cfg ≤ s.holBound := by
  have interactive : s.interactiveLoad ≤ s.interactiveCount * (s.session.paths.size - 1) := by
    rw [Nat.mul_comm, interactiveCount, ← OrdMap.total_mul_left]
    refine OrdMap.total_le_total fun _ st _ => ?_
    split
    · exact (s.lighterPaths_le st.sticky).trans (Nat.mul_one _).ge
    · exact Nat.zero_le _
  have loads := Nat.add_le_add (Nat.mul_le_mul_right (s.bulkCount + 1) interactive)
    (s.bulkLoad_le cfg)
  exact Nat.add_le_add loads s.openTargets_le

/-- What is observed between the calls moves no stream and raises the potential by nothing. -/
structure Observed (s t : Steering) : Prop where
  later : s.session.now ≤ t.session.now
  paths : ∀ other, (t.session.getPath other).map Path.inflight =
    (s.session.getPath other).map Path.inflight
  streams : t.session.streams = s.session.streams
  samples : ∀ path, (t.budgets path).ackRttAtUs = (s.budgets path).ackRttAtUs
  marks : t.restickInAt = s.restickInAt
  moves : t.moves = s.moves

theorem Observed.potential (observed : Observed s t) : t.potential cfg ≤ s.potential cfg := by
  have interactive : t.interactiveLoad = s.interactiveLoad := by
    simp only [interactiveLoad, observed.streams, lighterPaths_of_view observed.paths]
  have counts : t.bulkCount = s.bulkCount := by
    rw [bulkCount, bulkCount, observed.streams]
  have bulk : t.bulkLoad cfg ≤ s.bulkLoad cfg := by
    rw [bulkLoad, bulkLoad, observed.streams]
    refine OrdMap.total_le_total fun _ st _ => ?_
    split
    · unfold bulkRank
      split
      · rename_i crowded
        have before : s.hasInteractive cfg st.sticky = true :=
          Session.connHasInteractive_later observed.streams observed.later crowded
        rw [if_pos before]
      · exact Nat.zero_le _
    · exact le_rfl
  have targets := openTargets_of_view observed.paths observed.samples observed.marks
  rw [Steering.potential, Steering.potential, interactive, counts, targets]
  omega

theorem settledStep_cases {action : HolAction} (taken : settledStep cfg s action = some t) :
    (∃ id, HolMove cfg s id t) ∨ Observed s t := by
  cases action with
  | hol call =>
      rcases holStep_cases taken with move | ⟨rfl, -⟩
      · exact .inl ⟨_, move⟩
      · exact .inr ⟨le_rfl, fun _ => rfl, rfl, fun _ => rfl, rfl, rfl⟩
  | elapse time =>
      cases taken
      exact .inr ⟨Nat.le_add_right _ _, fun _ => rfl, rfl, fun _ => rfl, rfl, rfl⟩
  | observe id p b =>
      simp only [settledStep] at taken
      split at taken
      · rename_i kept
        cases taken
        refine .inr ⟨le_rfl, fun other => ?_, rfl, fun path => ?_, rfl, rfl⟩
        · show ((s.session.modifyPath id fun _ => p).getPath other).map Path.inflight = _
          rw [Session.getPath_modifyPath]
          split
          · rename_i same
            subst same
            obtain ⟨old, found, load⟩ := Option.map_eq_some_iff.mp kept.1
            rw [found]
            exact congrArg some load.symm
          · rfl
        · dsimp only
          split
          · rename_i same
            rw [same]
            exact kept.2
          · rfl
      · cases taken
  | poolRef poolRef =>
      cases taken
      exact .inr ⟨le_rfl, fun _ => rfl, rfl, fun _ => rfl, rfl, rfl⟩

/-- What a run leaves of the potential: the moves it made are taken from it, and a run that has
lowered nothing has moved no stream. -/
structure Descends (cfg : SteerConfig) (s t : Steering) : Prop where
  sampled : t.Sampled
  spent : t.moves + t.potential cfg ≤ s.moves + s.potential cfg
  lower : t.potential cfg ≤ s.potential cfg
  still : t.potential cfg = s.potential cfg → t.session.streams = s.session.streams

theorem Descends.trans {u : Steering} (first : Descends cfg s t) (second : Descends cfg t u) :
    Descends cfg s u := by
  refine ⟨second.sampled, second.spent.trans first.spent, second.lower.trans first.lower, ?_⟩
  intro same
  have afterFirst := first.lower
  have afterSecond := second.lower
  rw [second.still (by omega), first.still (by omega)]

theorem descends_step (sampled : s.Sampled) {action : HolAction}
    (taken : settledStep cfg s action = some t) : Descends cfg s t := by
  rcases settledStep_cases taken with ⟨id, move⟩ | observed
  · obtain ⟨still, counted, lower⟩ := move.lowers sampled
    refine ⟨still, by omega, lower.le, fun same => ?_⟩
    omega
  · have lower := @Observed.potential cfg s t observed
    refine ⟨fun path => ?_, ?_, lower, fun _ => observed.streams⟩
    · rw [observed.samples]
      exact (sampled path).trans observed.later
    · rw [observed.moves]
      exact Nat.add_le_add_left lower _

theorem descends_run (sampled : s.Sampled) {actions : List HolAction}
    (ran : (holMachine cfg).run s actions = some t) : Descends cfg s t := by
  induction actions generalizing s with
  | nil =>
      cases ran
      exact ⟨sampled, le_rfl, le_rfl, fun _ => rfl⟩
  | cons action rest inductionHypothesis =>
      obtain ⟨next, taken, remaining⟩ := Option.bind_eq_some_iff.mp ran
      have first := descends_step sampled taken
      exact first.trans (inductionHypothesis first.sampled remaining)

/-- However long the ticks go on, over whatever is observed between their calls, they move streams
at most so often, and eventually none moves any more. -/
theorem steering_settles {states : Nat → Steering} {ticks : Nat → List HolAction}
    (sampled : (states 0).Sampled)
    (ran : ∀ n, (holMachine cfg).run (states n) (ticks n) = some (states (n + 1))) :
    (∀ n, (states n).moves ≤ (states 0).moves + (states 0).holBound) ∧
      ∃ n, ∀ m ≥ n, (states m).session.streams = (states n).session.streams := by
  have descends : ∀ n more, Descends cfg (states n) (states (n + more)) := by
    have sampledAt : ∀ n, (states n).Sampled := by
      intro n
      induction n with
      | zero => exact sampled
      | succ n inductionHypothesis => exact (descends_run inductionHypothesis (ran n)).sampled
    intro n more
    induction more with
    | zero => exact ⟨sampledAt n, le_rfl, le_rfl, fun _ => rfl⟩
    | succ more inductionHypothesis =>
        exact inductionHypothesis.trans (descends_run (sampledAt (n + more)) (ran (n + more)))
  constructor
  · intro n
    have spent := (descends 0 n).spent
    rw [Nat.zero_add] at spent
    exact (Nat.le_of_add_right_le spent).trans
      (Nat.add_le_add_left ((states 0).potential_le cfg) _)
  · have falls : Antitone fun n => (states n).potential cfg :=
      antitone_nat_of_succ_le fun n => (descends n 1).lower
    obtain ⟨n, lowest⟩ := WellFoundedGT.monotone_chain_condition
      (⟨fun n => OrderDual.toDual ((states n).potential cfg), falls⟩ : ℕ →o ℕᵒᵈ)
    refine ⟨n, fun m later => ?_⟩
    obtain ⟨more, rfl⟩ := Nat.exists_eq_add_of_le later
    have same : (states n).potential cfg = (states (n + more)).potential cfg := lowest _ later
    exact (descends n more).still same.symm

/-- The order of a tick: the steerable bulk streams, then the others. -/
def tickStreams (s : Steering) : List Nat :=
  let live := s.session.streams.entries.filter fun entry => isLive entry.2
  ((live.filter fun entry => entry.2.bulk) ++ live.filter fun entry => !entry.2.bulk).map Prod.fst

/-- The calls for these streams, the table listed by id. -/
def callsFor (cfg : SteerConfig) : Steering → List Nat → List HolAction
  | _, [] => []
  | s, id :: rest =>
      .hol ⟨id, s.session.paths.entries⟩ ::
        callsFor cfg (s.maybeHol cfg s.session.paths.entries id) rest

/-- The part of a maintenance tick that moves streams. -/
def holTick (cfg : SteerConfig) (s : Steering) : Steering :=
  s.tickStreams.foldl (fun s id => s.maybeHol cfg s.session.paths.entries id) s

theorem run_callsFor (cfg : SteerConfig) (s : Steering) (ids : List Nat) :
    (holMachine cfg).run s (callsFor cfg s ids) =
      some (ids.foldl (fun s id => s.maybeHol cfg s.session.paths.entries id) s) := by
  induction ids generalizing s with
  | nil => rfl
  | cons id rest inductionHypothesis =>
      have taken : (holMachine cfg).step s (.hol ⟨id, s.session.paths.entries⟩) =
          some (s.maybeHol cfg s.session.paths.entries id) := if_pos (List.Perm.refl _)
      simp only [callsFor, Machine.run, taken, Option.bind_some, List.foldl_cons]
      exact inductionHypothesis _

/-- The state after so many ticks, 5 ms apart. -/
def afterTicks (cfg : SteerConfig) (s : Steering) : Nat → Steering
  | 0 => s
  | n + 1 =>
      let ticked := (afterTicks cfg s n).holTick cfg
      { ticked with session := { ticked.session with now := ticked.session.now + 5000 } }

theorem run_tick (cfg : SteerConfig) (s : Steering) (n : Nat) :
    (holMachine cfg).run (afterTicks cfg s n)
      (callsFor cfg (afterTicks cfg s n) (afterTicks cfg s n).tickStreams ++ [.elapse 5000]) =
        some (afterTicks cfg s (n + 1)) := by
  rw [Machine.run_append, run_callsFor]
  rfl

/-- An interactive and a bulk stream on the loaded one of two connections of a link. -/
def crowdedPair : Steering :=
  let path (inflight : Nat) : Path := ⟨"a", .up, inflight, 0, false, false, 9000, 9000, 9000, 0, 0,
    [], []⟩
  let stream (id : Nat) (bulk : Bool) : StreamState :=
    { StreamState.new id 65536 8 with sticky := 1, bulk := bulk }
  { session := ⟨10000, 3, (OrdMap.empty.insert 1 (path 100000)).insert 2 (path 0),
      (OrdMap.empty.insert 7 (stream 7 false)).insert 8 (stream 8 true), .empty, []⟩
    budgets := fun _ => .new 65536 65536
    poolRef := none
    lastStickChange := fun _ => 0
    restickInAt := fun _ => 0
    holRebalances := 0
    migratesLoopUnfit := 0
    resticks := [] }

/-- The bulk stream flees, the interactive one follows the lighter load, the bulk stream returns. -/
theorem steering_settles_crowdedPair :
    (afterTicks .standard crowdedPair 2).moves = 3 ∧
      (∀ n, (afterTicks .standard crowdedPair n).moves ≤ 5) ∧
      ∃ n, ∀ m ≥ n, (afterTicks .standard crowdedPair m).session.streams =
        (afterTicks .standard crowdedPair n).session.streams := by
  have settles := @steering_settles .standard (afterTicks .standard crowdedPair) _
    (fun _ => Nat.zero_le _) (run_tick .standard crowdedPair)
  have bound : (afterTicks .standard crowdedPair 0).moves +
      (afterTicks .standard crowdedPair 0).holBound = 5 := by decide
  rw [bound] at settles
  exact ⟨by decide +kernel, settles⟩

end Steering

end NyaLink
