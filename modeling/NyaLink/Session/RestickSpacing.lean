import NyaLink.Session.HolSettles

/-!
# Re-sticks are spread out

Streams whose loop has turned unfit do not herd onto a connection that has not been loaded
yet.  Between two calls everything else the session does may have happened: the clock goes
on, paths and budgets change, streams are opened and moved.
-/

namespace NyaLink

/-- What happens to the state steering reads and writes. -/
inductive SteerAction where
  | hol (call : Steering.HolCall)
  /-- Another caller of `set_sticky`. -/
  | setSticky (id path : Nat)
  | opened (id : Nat)
  | observe (session : Session) (budgets : Nat → PathBudget) (poolRef : Option Nat)

/-- A later re-stick onto the same path waits for its bandwidth window and an ACK sample, one
of the same stream for ten seconds. -/
def Restick.Apart (later earlier : Restick) : Prop :=
  (later.dest = earlier.dest →
    earlier.time + later.window ≤ later.time ∧ earlier.time < later.sampleAt) ∧
  (later.stream = earlier.stream → earlier.time + minRttWinUs ≤ later.time)

namespace Steering

variable {cfg : SteerConfig} {s t : Steering}

def steerStep (cfg : SteerConfig) (s : Steering) : SteerAction → Option Steering
  | .hol call => holStep cfg s call
  | .setSticky id path => some (s.setSticky id path)
  | .opened id =>
      some { s with
        lastStickChange := fun other =>
          if other = id then s.session.now else s.lastStickChange other }
  | .observe session budgets poolRef =>
      if s.session.now ≤ session.now ∧ (session.getPath 0).isNone then
        some { s with session := session, budgets := budgets, poolRef := poolRef }
      else none

def steerMachine (cfg : SteerConfig) : Machine Steering SteerAction :=
  ⟨fun s => s.resticks = [] ∧ (s.session.getPath 0).isNone = true, steerStep cfg⟩

/-- What the marks say about the re-sticks that were made. -/
structure Spread (s : Steering) : Prop where
  noPathZero : (s.session.getPath 0).isNone = true
  marked : ∀ r ∈ s.resticks, r.time ≤ s.restickInAt r.dest ∧ s.restickInAt r.dest ≠ 0
  cooling : ∀ r ∈ s.resticks, r.time ≤ s.lastStickChange r.stream
  past : ∀ r ∈ s.resticks, r.time ≤ s.session.now
  windows : ∀ r ∈ s.resticks, 100000 ≤ r.window
  apart : s.resticks.Pairwise Restick.Apart

theorem le_bwWindowUs (p : Path) : 100000 ≤ p.bwWindowUs := Nat.le_max_right _ _

theorem restickReady_apart {entry : Nat × Path} (ready : s.restickReady entry = true)
    (marked : s.restickInAt entry.1 ≠ 0) :
    s.restickInAt entry.1 < (s.budgets entry.1).ackRttAtUs ∧
      s.restickInAt entry.1 + entry.2.bwWindowUs ≤ s.session.now := by
  simp only [restickReady, Bool.or_eq_true, beq_iff_eq, marked, false_or, Bool.and_eq_true,
    decide_eq_true_eq] at ready
  obtain ⟨sampled, waited⟩ := ready
  have window := le_bwWindowUs entry.2
  exact ⟨sampled, by omega⟩

theorem Spread.apart_restickTo (spread : Spread s) {id dest : Nat} {target : Path} {cur : Nat}
    (found : s.session.getPath dest = some target)
    (cooled : minRttWinUs ≤ s.session.now - s.lastStickChange id)
    (chosen : (dest, target) ∈ s.restickCands cfg s.session.paths.entries cur) :
    ∀ r ∈ s.resticks, Restick.Apart (s.restickTo id dest) r := by
  intro r earlier
  obtain ⟨-, -, -, -, -, ready⟩ := mem_restickCands chosen
  constructor
  · intro sameDest
    have sameDest : dest = r.dest := sameDest
    subst sameDest
    obtain ⟨before, marked⟩ := spread.marked r earlier
    obtain ⟨sampled, waited⟩ := restickReady_apart ready marked
    simp only [restickTo, found, Option.map_some, Option.getD_some] at *
    omega
  · intro sameStream
    have sameStream : id = r.stream := sameStream
    subst sameStream
    have cooling := spread.cooling r earlier
    have ten : 0 < minRttWinUs := by decide
    simp only [restickTo]
    omega

theorem noPathZero_setSticky (s : Steering) (id path : Nat) :
    ((s.setSticky id path).session.getPath 0).isNone = (s.session.getPath 0).isNone := by
  have kept := Session.isSome_getPath_setSticky s.session id path 0
  unfold setSticky
  split
  · rfl
  · split
    · rfl
    · simp only [← Option.not_isSome, kept]

theorem setSticky_now (s : Steering) (id path : Nat) :
    (s.setSticky id path).session.now = s.session.now := by
  unfold setSticky
  split
  · rfl
  · split
    · rfl
    · exact Session.setSticky_now s.session id path

theorem lastStickChange_setSticky (s : Steering) (id path other : Nat) :
    (s.setSticky id path).lastStickChange other = s.lastStickChange other ∨
      (s.setSticky id path).lastStickChange other = s.session.now := by
  unfold setSticky
  split
  · exact .inl rfl
  · split
    · exact .inl rfl
    · simp only
      split
      · exact .inr rfl
      · exact .inl rfl

theorem Spread.setSticky (spread : Spread s) (id path : Nat) : Spread (s.setSticky id path) := by
  obtain ⟨-, -, marks, history⟩ := s.setSticky_counters id path
  constructor
  · rw [noPathZero_setSticky]
    exact spread.noPathZero
  · rw [history, marks]
    exact spread.marked
  · rw [history]
    intro r made
    rcases s.lastStickChange_setSticky id path r.stream with same | current
    · rw [same]
      exact spread.cooling r made
    · rw [current]
      exact spread.past r made
  · rw [history, setSticky_now]
    exact spread.past
  · rw [history]
    exact spread.windows
  · rw [history]
    exact spread.apart

theorem Spread.counted (spread : Spread s) (holRebalances : Nat) :
    Spread { s with holRebalances := holRebalances } :=
  ⟨spread.noPathZero, spread.marked, spread.cooling, spread.past, spread.windows, spread.apart⟩

/-- The state before `set_sticky` in a re-stick, its target marked. -/
def marked (s : Steering) (dest : Nat) : Steering :=
  { s with
    restickInAt := fun other =>
      if other = dest ∧ (s.session.getPath dest).isSome then max s.session.now 1
      else s.restickInAt other }

theorem Spread.marked_dest (spread : Spread s) (dest : Nat) : Spread (s.marked dest) := by
  refine ⟨spread.noPathZero, fun r made => ?_, spread.cooling, spread.past, spread.windows,
    spread.apart⟩
  obtain ⟨before, nonzero⟩ := spread.marked r made
  have past := spread.past r made
  simp only [Steering.marked]
  split <;> omega

theorem Spread.restick (spread : Spread s) {id dest : Nat} {st : StreamState} {cur target : Path}
    (stream : s.session.getStream id = some st) (steerable : st.isSteerable = true)
    (source : s.session.getPath st.sticky = some cur)
    (found : s.session.getPath dest = some target)
    (cooled : minRttWinUs ≤ s.session.now - s.lastStickChange id)
    (chosen : (dest, target) ∈ s.restickCands cfg s.session.paths.entries st.sticky) :
    Spread (s.restick id dest) := by
  obtain ⟨-, other, -⟩ := mem_restickCands chosen
  have onPath : st.sticky ≠ 0 := by
    intro zero
    have none := spread.noPathZero
    rw [← zero, source] at none
    cases none
  have moves : (!st.isSteerable || st.sticky == dest) = false := by
    simp [steerable, Ne.symm other]
  have changed : (s.restick id dest).lastStickChange id = s.session.now := by
    simp [Steering.restick, Steering.setSticky, stream, moves, onPath]
  have mark : (s.restick id dest).restickInAt dest = max s.session.now 1 := by
    simp [Steering.restick, Steering.setSticky, stream, moves, found]
  have now : (s.restick id dest).session.now = s.session.now :=
    setSticky_now (s.marked dest) id dest
  have stuck := (spread.marked_dest dest).setSticky id dest
  obtain ⟨-, -, -, history⟩ := (s.marked dest).setSticky_counters id dest
  constructor
  · exact stuck.noPathZero
  · intro r made
    rcases List.mem_cons.mp made with rfl | earlier
    · change s.session.now ≤ (s.restick id dest).restickInAt dest ∧ _ ≠ 0
      rw [show (s.restickTo id dest).dest = dest from rfl, mark]
      omega
    · exact stuck.marked r (history ▸ earlier)
  · intro r made
    rcases List.mem_cons.mp made with rfl | earlier
    · change s.session.now ≤ (s.restick id dest).lastStickChange id
      rw [changed]
    · exact stuck.cooling r (history ▸ earlier)
  · rw [now]
    intro r made
    rcases List.mem_cons.mp made with rfl | earlier
    · exact le_rfl
    · exact spread.past r earlier
  · intro r made
    rcases List.mem_cons.mp made with rfl | earlier
    · simp only [restickTo, found, Option.map_some, Option.getD_some]
      exact le_bwWindowUs target
    · exact spread.windows r earlier
  · exact List.pairwise_cons.mpr ⟨spread.apart_restickTo found cooled chosen, spread.apart⟩

theorem Spread.move {id : Nat} (spread : Spread s) (move : HolMove cfg s id t) : Spread t := by
  cases move with
  | interactive => exact (spread.setSticky id _).counted _
  | bulk => exact (spread.setSticky id _).counted _
  | restick stream steerable _ source found _ cooled chosen =>
      exact spread.restick stream steerable source found cooled chosen

theorem Spread.step (spread : Spread s) {action : SteerAction}
    (taken : steerStep cfg s action = some t) : Spread t := by
  cases action with
  | hol call =>
      rcases holStep_cases taken with move | ⟨rfl, -⟩
      · exact spread.move move
      · exact spread
  | setSticky id path =>
      obtain rfl := Option.some.inj taken
      exact spread.setSticky id path
  | opened id =>
      obtain rfl := Option.some.inj taken
      refine ⟨spread.noPathZero, spread.marked, fun r made => ?_, spread.past, spread.windows,
        spread.apart⟩
      simp only
      split
      · exact spread.past r made
      · exact spread.cooling r made
  | observe session budgets poolRef =>
      simp only [steerStep] at taken
      split at taken
      · rename_i later
        obtain rfl := Option.some.inj taken
        exact ⟨later.2, spread.marked, spread.cooling,
          fun r made => (spread.past r made).trans later.1, spread.windows, spread.apart⟩
      · cases taken

theorem spread_of_reachable (reachable : (steerMachine cfg).Reachable s) : Spread s := by
  refine reachable.invariant Spread (fun s fresh => ?_) fun s action t spread taken =>
    spread.step taken
  obtain ⟨none, noPathZero⟩ := fresh
  constructor
  · exact noPathZero
  · simp [none]
  · simp [none]
  · simp [none]
  · simp [none]
  · simp [none]

def herd : Steering :=
  let path (inflight loop : Nat) : Path := ⟨"a", .up, inflight, 0, false, false, 9000, 9000, 9000,
    loop, 10000000, [], []⟩
  let stream (id : Nat) : StreamState :=
    { StreamState.new id 65536 8 with sticky := 1, bulk := true }
  { session := ⟨10000000, 3,
      (OrdMap.empty.insert 1 (path 100000 500000)).insert 2 (path 0 0),
      (OrdMap.empty.insert 8 (stream 8)).insert 9 (stream 9), .empty, []⟩
    budgets := fun id =>
      { PathBudget.new 65536 65536 with ackRttAtUs := if id = 1 then 10000000 else 0 }
    poolRef := some 10000000
    lastStickChange := fun _ => 0
    restickInAt := fun _ => 0
    holRebalances := 0
    migratesLoopUnfit := 0
    resticks := [] }

/-- The herd after the first move, a fifth of a second and an ACK from the second path later. -/
def herdLater : Session :=
  let session := (herd.maybeHol .standard herd.session.paths.entries 8).session
  { session with
    now := 10200000
    paths := session.paths.mapValues fun _ p => { p with lastRx := 10200000 } }

def herdSchedule : List SteerAction :=
  [.hol ⟨8, herd.session.paths.entries⟩,
    .hol ⟨9, (herd.maybeHol .standard herd.session.paths.entries 8).session.paths.entries⟩,
    .observe herdLater (fun _ => { PathBudget.new 65536 65536 with ackRttAtUs := 10100000 })
      (some 10000000),
    .hol ⟨9, herdLater.paths.entries⟩]

end Steering

end NyaLink
