import NyaLink.Session.PickerContract
import NyaLink.Session.State

/-!
# Moving streams between connections

The part of the maintenance tick that takes a stream off the connection it is stuck to:
an interactive stream leaves a connection whose sibling carries less, a bulk stream leaves
a connection that carries interactive streams, or one whose loop no longer fits the pool.
Every call lists the path table afresh, in any order.
-/

namespace NyaLink

structure SteerConfig extends PickConfig where
  rebalanceSlack : Nat

def SteerConfig.standard : SteerConfig := ⟨.standard, 32768⟩

/-- A move off a connection whose loop is unfit, with the clock, the window of the target and
the instant of its latest ACK sample. -/
structure Restick where
  stream : Nat
  dest : Nat
  time : Nat
  window : Nat
  sampleAt : Nat
  deriving DecidableEq, Repr

/-- What steering reads and writes.  `resticks` is history, newest first. -/
structure Steering where
  session : Session
  budgets : Nat → PathBudget
  poolRef : Option Nat
  lastStickChange : Nat → Nat
  /-- `restick_in_at_us` of a path. -/
  restickInAt : Nat → Nat
  holRebalances : Nat
  migratesLoopUnfit : Nat
  resticks : List Restick

/-- An interactive stream keeps bulk off its connection until it has been stalled for
`close_linger`. -/
def StreamState.pinsConn (cfg : SessionConfig) (now : Nat) (st : StreamState) : Bool :=
  st.isSteerable && !st.bulk &&
    !(st.stalled && st.stallFromMs != 0 &&
      decide (cfg.closeLingerMs ≤ monoMs now - st.stallFromMs))

def Session.connHasInteractive (cfg : SessionConfig) (s : Session) (path : Nat) : Bool :=
  s.streams.entries.any fun entry =>
    !entry.2.gone && entry.2.pinsConn cfg s.now && entry.2.sticky == path

section

variable (cfg : SteerConfig) (now : Nat)

/-- `hol_bulk_dest_ok`: a path whose writes stall is no obstacle to bulk. -/
def holBulkDestOk (p : Path) : Bool :=
  p.isAlive && !p.congested && (p.isSchedulable || p.writeStalled) &&
    isQuietFresh cfg.toSessionConfig now p

/-- `should_rebalance_conn`: only the load in flight counts, not the number of streams. -/
def shouldRebalanceConn (cur alt : Nat × Path) : Bool :=
  if decide (cur.1 = alt.1) || !alt.2.isSchedulable ||
      !isLossFresh cfg.toSessionConfig now alt.2 then false
  else if cur.2.link ≠ alt.2.link then false
  else decide (alt.2.inflight + cfg.rebalanceSlack < cur.2.inflight)

variable (budgets : Nat → PathBudget) (poolRef : Option Nat) (hasInteractive : Nat → Bool)

def loopFitOrAll (cands : List (Nat × Path)) : List (Nat × Path) :=
  Choice.filterOrAll (loopFitOf cfg.toPickConfig now budgets poolRef) cands

/-- What `hol_place_bulk_fallback` chooses from before it prefers a fit loop. -/
def holFallbackCands (paths : List (Nat × Path)) (cur : Nat × Path) : List (Nat × Path) :=
  paths.filter fun entry =>
    decide (entry.1 ≠ cur.1) && holBulkDestOk cfg now entry.2 && !hasInteractive entry.1 &&
      decide (effectiveClassRtt cfg.toPickConfig entry.2 ≤
        effectiveClassRtt cfg.toPickConfig cur.2)

def holPlaceBulkFallback (paths : List (Nat × Path)) (cur : Nat × Path) : Option Nat :=
  pickFrom cfg.toPickConfig now .any
    (loopFitOrAll cfg now budgets poolRef (holFallbackCands cfg now hasInteractive paths cur))

def isBulkSibling (cur entry : Nat × Path) : Bool :=
  decide (entry.1 ≠ cur.1) && decide (entry.2.link = cur.2.link) &&
    holBulkDestOk cfg now entry.2 && !hasInteractive entry.1

def holPlaceBulk (paths : List (Nat × Path)) (cur : Nat × Path) : Option Nat :=
  if !hasInteractive cur.1 then none
  else
    match paths.find? (isBulkSibling cfg now hasInteractive cur) with
    | some sibling => some sibling.1
    | none => holPlaceBulkFallback cfg now budgets poolRef hasInteractive paths cur

end

namespace Steering

variable (cfg : SteerConfig)

def hasInteractive (s : Steering) (path : Nat) : Bool :=
  s.session.connHasInteractive cfg.toSessionConfig path

/-- `set_sticky`, with the instant of the change. -/
def setSticky (s : Steering) (id path : Nat) : Steering :=
  match s.session.getStream id with
  | none => s
  | some st =>
      if !st.isSteerable || st.sticky == path then s
      else
        { s with
          session := s.session.setSticky id path
          lastStickChange := fun other =>
            if other = id ∧ st.sticky ≠ 0 then s.session.now else s.lastStickChange other }

/-- A path takes in a bulk stream again once it has an ACK sample from after the last one and
its bandwidth window has passed. -/
def restickReady (s : Steering) (entry : Nat × Path) : Bool :=
  let last := s.restickInAt entry.1
  last == 0 ||
    (decide (last < (s.budgets entry.1).ackRttAtUs) &&
      decide (entry.2.bwWindowUs ≤ s.session.now - last))

def restickCands (s : Steering) (paths : List (Nat × Path)) (cur : Nat) : List (Nat × Path) :=
  (fastestClassSet cfg.toPickConfig paths).filter fun entry =>
    decide (entry.1 ≠ cur) && entry.2.isSchedulable &&
      quietFreshOf cfg.toPickConfig s.session.now entry && hasRoomOf s.budgets entry &&
      !s.hasInteractive cfg entry.1 &&
      loopFitOf cfg.toPickConfig s.session.now s.budgets s.poolRef entry && s.restickReady entry

/-- Where `maybe_restick_unfit` moves a bulk stream stuck to `cur`. -/
def restickDest (s : Steering) (paths : List (Nat × Path)) (id : Nat) (cur : Nat × Path) :
    Option Nat :=
  if loopFitOf cfg.toPickConfig s.session.now s.budgets s.poolRef cur then none
  else if s.session.now - s.lastStickChange id < minRttWinUs then none
  else pickFromScored cfg.toPickConfig .any (s.restickCands cfg paths cur.1)

def restickTo (s : Steering) (id dest : Nat) : Restick where
  stream := id
  dest := dest
  time := s.session.now
  window := ((s.session.getPath dest).map Path.bwWindowUs).getD 0
  sampleAt := (s.budgets dest).ackRttAtUs

/-- What `maybe_restick_unfit` does once it has a target. -/
def restick (s : Steering) (id dest : Nat) : Steering :=
  let marked : Steering :=
    { s with
      restickInAt := fun other =>
        if other = dest ∧ (s.session.getPath dest).isSome then max s.session.now 1
        else s.restickInAt other }
  let moved := marked.setSticky id dest
  { moved with
    migratesLoopUnfit := s.migratesLoopUnfit + 1
    resticks := s.restickTo id dest :: s.resticks }

/-- The end of `maybe_hol`: a target other than the current path. -/
def holMove (s : Steering) (id cur : Nat) : Option Nat → Steering
  | none => s
  | some dest =>
      if dest = cur then s
      else { s.setSticky id dest with holRebalances := s.holRebalances + 1 }

def maybeHol (s : Steering) (paths : List (Nat × Path)) (id : Nat) : Steering :=
  match s.session.getStream id with
  | none => s
  | some st =>
      if !st.isSteerable then s
      else
        match s.session.getPath st.sticky with
        | none => s
        | some cur =>
            if st.bulk then
              match s.restickDest cfg paths id (st.sticky, cur) with
              | some dest => s.restick id dest
              | none =>
                  s.holMove id st.sticky (holPlaceBulk cfg s.session.now s.budgets s.poolRef
                    (s.hasInteractive cfg) paths (st.sticky, cur))
            else
              s.holMove id st.sticky
                ((paths.find? (shouldRebalanceConn cfg s.session.now (st.sticky, cur))).map
                  Prod.fst)

/-! ## The moves -/

variable {cfg} {s : Steering} {id : Nat}

/-- The moves a call may make, whichever path of the table comes first. -/
inductive HolMove (cfg : SteerConfig) (s : Steering) (id : Nat) : Steering → Prop where
  | interactive {st : StreamState} {cur target : Path} {dest : Nat}
      (stream : s.session.getStream id = some st) (steerable : st.isSteerable = true)
      (kind : st.bulk = false) (source : s.session.getPath st.sticky = some cur)
      (found : s.session.getPath dest = some target)
      (lighter : shouldRebalanceConn cfg s.session.now (st.sticky, cur) (dest, target) = true) :
      HolMove cfg s id { s.setSticky id dest with holRebalances := s.holRebalances + 1 }
  | bulk {st : StreamState} {cur target : Path} {dest : Nat}
      (stream : s.session.getStream id = some st) (steerable : st.isSteerable = true)
      (kind : st.bulk = true) (source : s.session.getPath st.sticky = some cur)
      (found : s.session.getPath dest = some target) (other : dest ≠ st.sticky)
      (crowded : s.hasInteractive cfg st.sticky = true) (free : s.hasInteractive cfg dest = false)
      (admits : holBulkDestOk cfg s.session.now target = true)
      (notSlower : target.link = cur.link ∨
        effectiveClassRtt cfg.toPickConfig target ≤ effectiveClassRtt cfg.toPickConfig cur) :
      HolMove cfg s id { s.setSticky id dest with holRebalances := s.holRebalances + 1 }
  | restick {st : StreamState} {cur target : Path} {dest : Nat}
      (stream : s.session.getStream id = some st) (steerable : st.isSteerable = true)
      (kind : st.bulk = true) (source : s.session.getPath st.sticky = some cur)
      (found : s.session.getPath dest = some target)
      (unfit : loopFitOf cfg.toPickConfig s.session.now s.budgets s.poolRef
        (st.sticky, cur) = false)
      (cooled : minRttWinUs ≤ s.session.now - s.lastStickChange id)
      (chosen : (dest, target) ∈ s.restickCands cfg s.session.paths.entries st.sticky) :
      HolMove cfg s id (s.restick id dest)

theorem restickCands_perm {paths other : List (Nat × Path)} (permuted : paths.Perm other)
    (cur : Nat) : (s.restickCands cfg paths cur).Perm (s.restickCands cfg other cur) :=
  (fastestClassSet_perm permuted).filter _

theorem mem_restickCands {paths : List (Nat × Path)} {cur : Nat} {entry : Nat × Path}
    (chosen : entry ∈ s.restickCands cfg paths cur) :
    entry ∈ paths ∧ entry.1 ≠ cur ∧ entry.2.isSchedulable = true ∧
      s.hasInteractive cfg entry.1 = false ∧
      loopFitOf cfg.toPickConfig s.session.now s.budgets s.poolRef entry = true ∧
      s.restickReady entry = true := by
  simp only [restickCands, List.mem_filter, Bool.and_eq_true, decide_eq_true_eq,
    Bool.not_eq_true'] at chosen
  obtain ⟨inClass, ⟨⟨⟨⟨⟨other, schedulable⟩, -⟩, -⟩, free⟩, fit⟩, ready⟩ := chosen
  exact ⟨(mem_classCandidates (mem_fastestClassSet inClass)).1, other, schedulable, free, fit,
    ready⟩

/-! ## What a target is -/

section

variable {now : Nat} {budgets : Nat → PathBudget} {poolRef : Option Nat}
  {hasInteractive : Nat → Bool} {paths : List (Nat × Path)} {cur : Nat × Path}

def BulkTarget (cfg : SteerConfig) (now : Nat) (hasInteractive : Nat → Bool)
    (cur entry : Nat × Path) : Prop :=
  entry.1 ≠ cur.1 ∧ hasInteractive entry.1 = false ∧ holBulkDestOk cfg now entry.2 = true ∧
    (entry.2.link = cur.2.link ∨
      effectiveClassRtt cfg.toPickConfig entry.2 ≤ effectiveClassRtt cfg.toPickConfig cur.2)

theorem bulkTarget_of_sibling {entry : Nat × Path}
    (sibling : isBulkSibling cfg now hasInteractive cur entry = true) :
    BulkTarget cfg now hasInteractive cur entry := by
  simp only [isBulkSibling, Bool.and_eq_true, decide_eq_true_eq, Bool.not_eq_true'] at sibling
  obtain ⟨⟨⟨other, sameLink⟩, admits⟩, free⟩ := sibling
  exact ⟨other, free, admits, .inl sameLink⟩

theorem mem_holFallbackCands {entry : Nat × Path} :
    entry ∈ holFallbackCands cfg now hasInteractive paths cur ↔
      entry ∈ paths ∧ entry.1 ≠ cur.1 ∧ hasInteractive entry.1 = false ∧
        holBulkDestOk cfg now entry.2 = true ∧
        effectiveClassRtt cfg.toPickConfig entry.2 ≤
          effectiveClassRtt cfg.toPickConfig cur.2 := by
  simp only [holFallbackCands, List.mem_filter, Bool.and_eq_true, decide_eq_true_eq,
    Bool.not_eq_true']
  tauto

theorem eq_nil_of_pickFromScored {cfg : PickConfig} {pref : PickPref} {cands : List (Nat × Path)}
    (picked : pickFromScored cfg pref cands = none) : cands = [] := by
  by_contra nonempty
  have found : (pickFromScored cfg pref cands).isSome = true := pickFromScored_isSome.mpr nonempty
  rw [picked] at found
  cases found

theorem holPlaceBulk_some {dest : Nat}
    (placed : holPlaceBulk cfg now budgets poolRef hasInteractive paths cur = some dest) :
    hasInteractive cur.1 = true ∧
      ∃ target, (dest, target) ∈ paths ∧ BulkTarget cfg now hasInteractive cur (dest, target) := by
  unfold holPlaceBulk at placed
  split at placed
  · cases placed
  · rename_i crowded
    refine ⟨by simpa using crowded, ?_⟩
    split at placed
    · rename_i sibling found
      obtain rfl := Option.some.inj placed
      exact ⟨sibling.2, List.mem_of_find?_eq_some found,
        bulkTarget_of_sibling (List.find?_some found)⟩
    · obtain ⟨target, chosen, -⟩ := pickFromScored_least placed
      have cand := Choice.mem_of_mem_filterOrAll (Choice.mem_of_mem_filterOrAll chosen)
      obtain ⟨present, other, free, admits, notSlower⟩ := mem_holFallbackCands.mp cand
      exact ⟨target, present, other, free, admits, .inr notSlower⟩

theorem holPlaceBulk_none
    (nowhere : holPlaceBulk cfg now budgets poolRef hasInteractive paths cur = none)
    (crowded : hasInteractive cur.1 = true) {entry : Nat × Path} (present : entry ∈ paths) :
    ¬BulkTarget cfg now hasInteractive cur entry := by
  intro target
  obtain ⟨other, free, admits, allowed⟩ := target
  simp only [holPlaceBulk, crowded, Bool.not_true, Bool.false_eq_true, if_false] at nowhere
  split at nowhere
  · cases nowhere
  · rename_i noSibling
    rcases allowed with sameLink | notSlower
    · have sibling := List.find?_eq_none.mp noSibling entry present
      simp [isBulkSibling, other, sameLink, admits, free] at sibling
    · have cand := mem_holFallbackCands.mpr ⟨present, other, free, admits, notSlower⟩
      have none := Choice.filterOrAll_eq_nil.mp
        (Choice.filterOrAll_eq_nil.mp (eq_nil_of_pickFromScored nowhere))
      rw [none] at cand
      cases cand

end

theorem restickDest_some {paths : List (Nat × Path)} {cur : Nat × Path} {dest : Nat}
    (moves : s.restickDest cfg paths id cur = some dest) :
    loopFitOf cfg.toPickConfig s.session.now s.budgets s.poolRef cur = false ∧
      minRttWinUs ≤ s.session.now - s.lastStickChange id ∧
      ∃ target, (dest, target) ∈ s.restickCands cfg paths cur.1 := by
  unfold restickDest at moves
  split at moves
  · cases moves
  · rename_i unfit
    split at moves
    · cases moves
    · rename_i cooled
      obtain ⟨target, chosen, -⟩ := pickFromScored_least moves
      exact ⟨by simpa using unfit, Nat.le_of_not_lt cooled, target, chosen⟩

theorem restickDest_none {paths : List (Nat × Path)} {cur entry : Nat × Path}
    (stays : s.restickDest cfg paths id cur = none)
    (unfit : loopFitOf cfg.toPickConfig s.session.now s.budgets s.poolRef cur = false)
    (cooled : minRttWinUs ≤ s.session.now - s.lastStickChange id) :
    entry ∉ s.restickCands cfg paths cur.1 := by
  intro chosen
  simp only [restickDest, unfit, Bool.false_eq_true, if_false, Nat.not_lt.mpr cooled] at stays
  rw [eq_nil_of_pickFromScored stays] at chosen
  cases chosen

/-! ## A call makes a move, or there is none to make -/

theorem found_of_listed {paths : List (Nat × Path)} {entry : Nat × Path}
    (listed : paths.Perm s.session.paths.entries) (present : entry ∈ paths) :
    s.session.getPath entry.1 = some entry.2 :=
  Session.mem_entries_iff_getPath.mp (listed.mem_iff.mp present)

theorem HolMove.source {next : Steering} (move : HolMove cfg s id next) :
    ∃ st cur, s.session.getStream id = some st ∧ st.isSteerable = true ∧
      s.session.getPath st.sticky = some cur := by
  cases move with
  | interactive stream steerable _ source => exact ⟨_, _, stream, steerable, source⟩
  | bulk stream steerable _ source => exact ⟨_, _, stream, steerable, source⟩
  | restick stream steerable _ source => exact ⟨_, _, stream, steerable, source⟩

section

variable {paths : List (Nat × Path)} {st : StreamState} {cur : Path}

theorem maybeHol_interactive (listed : paths.Perm s.session.paths.entries)
    (stream : s.session.getStream id = some st) (steerable : st.isSteerable = true)
    (kind : st.bulk = false) (source : s.session.getPath st.sticky = some cur) :
    HolMove cfg s id (s.maybeHol cfg paths id) ∨
      s.maybeHol cfg paths id = s ∧ ∀ next, ¬HolMove cfg s id next := by
  simp only [maybeHol, stream, source, steerable, kind, Bool.not_true, Bool.false_eq_true,
    if_false]
  cases lighter : paths.find? (shouldRebalanceConn cfg s.session.now (st.sticky, cur)) with
  | some entry =>
      have moves := List.find?_some lighter
      have other : entry.1 ≠ st.sticky := by
        rintro same
        simp [shouldRebalanceConn, same] at moves
      simp only [Option.map_some, holMove, other, if_false]
      exact .inl (.interactive stream steerable kind source
        (found_of_listed listed (List.mem_of_find?_eq_some lighter)) moves)
  | none =>
      refine .inr ⟨rfl, fun next move => ?_⟩
      cases move with
      | interactive otherStream _ _ otherSource found moves =>
          obtain rfl := Option.some.inj (stream.symm.trans otherStream)
          obtain rfl := Option.some.inj (source.symm.trans otherSource)
          have present := listed.mem_iff.mpr (Session.mem_entries_iff_getPath.mpr found)
          exact List.find?_eq_none.mp lighter _ present moves
      | bulk otherStream _ otherKind =>
          obtain rfl := Option.some.inj (stream.symm.trans otherStream)
          exact Bool.false_ne_true (kind.symm.trans otherKind)
      | restick otherStream _ otherKind =>
          obtain rfl := Option.some.inj (stream.symm.trans otherStream)
          exact Bool.false_ne_true (kind.symm.trans otherKind)

theorem maybeHol_bulk (listed : paths.Perm s.session.paths.entries)
    (stream : s.session.getStream id = some st) (steerable : st.isSteerable = true)
    (kind : st.bulk = true) (source : s.session.getPath st.sticky = some cur) :
    HolMove cfg s id (s.maybeHol cfg paths id) ∨
      s.maybeHol cfg paths id = s ∧ ∀ next, ¬HolMove cfg s id next := by
  simp only [maybeHol, stream, source, steerable, kind, Bool.not_true, Bool.false_eq_true,
    if_false, if_true]
  cases unfit : s.restickDest cfg paths id (st.sticky, cur) with
  | some dest =>
      obtain ⟨unfit, cooled, target, chosen⟩ := restickDest_some unfit
      exact .inl (.restick stream steerable kind source
        (found_of_listed listed (mem_restickCands chosen).1) unfit cooled
        ((restickCands_perm listed _).mem_iff.mp chosen))
  | none =>
      cases placed : holPlaceBulk cfg s.session.now s.budgets s.poolRef (s.hasInteractive cfg)
          paths (st.sticky, cur) with
      | some dest =>
          obtain ⟨crowded, target, present, other, free, admits, allowed⟩ :=
            holPlaceBulk_some placed
          simp only [holMove, other, if_false]
          exact .inl (.bulk stream steerable kind source (found_of_listed listed present) other
            crowded free admits allowed)
      | none =>
          refine .inr ⟨rfl, fun next move => ?_⟩
          cases move with
          | interactive otherStream _ otherKind =>
              obtain rfl := Option.some.inj (stream.symm.trans otherStream)
              exact Bool.false_ne_true (otherKind.symm.trans kind)
          | bulk otherStream _ _ otherSource found other crowded free admits allowed =>
              obtain rfl := Option.some.inj (stream.symm.trans otherStream)
              obtain rfl := Option.some.inj (source.symm.trans otherSource)
              have present := listed.mem_iff.mpr (Session.mem_entries_iff_getPath.mpr found)
              exact holPlaceBulk_none placed crowded present ⟨other, free, admits, allowed⟩
          | restick otherStream _ _ otherSource found isUnfit cooled chosen =>
              obtain rfl := Option.some.inj (stream.symm.trans otherStream)
              obtain rfl := Option.some.inj (source.symm.trans otherSource)
              exact restickDest_none unfit isUnfit cooled
                ((restickCands_perm listed _).mem_iff.mpr chosen)

end

/-- A call makes one of the moves; without one there is none to make, whatever the order of the
table, and nothing changes. -/
theorem maybeHol_cases {paths : List (Nat × Path)} (listed : paths.Perm s.session.paths.entries) :
    HolMove cfg s id (s.maybeHol cfg paths id) ∨
      s.maybeHol cfg paths id = s ∧ ∀ next, ¬HolMove cfg s id next := by
  by_cases movable : ∃ st cur, s.session.getStream id = some st ∧ st.isSteerable = true ∧
      s.session.getPath st.sticky = some cur
  · obtain ⟨st, cur, stream, steerable, source⟩ := movable
    cases kind : st.bulk with
    | true => exact maybeHol_bulk listed stream steerable kind source
    | false => exact maybeHol_interactive listed stream steerable kind source
  · refine .inr ⟨?_, fun next move => movable move.source⟩
    unfold maybeHol
    split
    · rfl
    · rename_i st stream
      split
      · rfl
      · rename_i steerable
        split
        · rfl
        · rename_i cur source
          exact absurd ⟨st, cur, stream, by simpa using steerable, source⟩ movable

end Steering

end NyaLink
