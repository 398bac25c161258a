import NyaLink.Session.Silence

/-!
# The cap on the paths of a session

`start_path_fd` reads the size of the table under its lock, lets go of the lock,
and inserts under the lock later.  Of several calls at once, each may find room
for one path, and all insert.  `path_failed` removes a path between any two of
these steps.

A path is named by the order in which it was made; its id is the key of the
table.
-/

namespace NyaLink

/-- Where a call of `start_path_fd` is. -/
inductive StartPhase where
  | testing
  | sizing
  | allocating
  | inserting (id path : Nat)
  | finished
  deriving DecidableEq, Repr

def StartPhase.isAdmitted : StartPhase → Bool
  | .allocating | .inserting _ _ => true
  | _ => false

/-- Where a call of `path_failed` is. -/
inductive PathFailure where
  | finding (id : Nat)
  | swapping (id path : Nat)
  | removing (id : Nat)
  | finished
  deriving DecidableEq, Repr

/-- `down` says of each path made whether its state is DOWN. -/
structure PathTable where
  dead : Bool
  nextPathId : Nat
  paths : OrdMap Nat Nat
  down : List Bool
  starts : List StartPhase
  failures : List PathFailure
  deriving DecidableEq

inductive PathAction where
  | startPath
  | testDead (call : Nat)
  | readSize (call : Nat)
  | allocate (call : Nat)
  | insert (call : Nat)
  | pathFailed (id : Nat)
  | find (failure : Nat)
  | swapDown (failure : Nat)
  | remove (failure : Nat)
  | revive (path : Nat)
  | markDead
  deriving DecidableEq, Repr

namespace PathTable

def moveStart (t : PathTable) (call : Nat) (phase : StartPhase) : PathTable :=
  { t with starts := t.starts.set call phase }

def moveFailure (t : PathTable) (failure : Nat) (phase : PathFailure) : PathTable :=
  { t with failures := t.failures.set failure phase }

def testDead (t : PathTable) (call : Nat) : Option PathTable :=
  match t.starts[call]? with
  | some .testing => some (t.moveStart call (if t.dead then .finished else .sizing))
  | _ => none

def readSize (cfg : PoolConfig) (t : PathTable) (call : Nat) : Option PathTable :=
  match t.starts[call]? with
  | some .sizing =>
      let n := t.paths.size
      some (t.moveStart call (if cfg.maxPaths ≤ n then .finished else .allocating))
  | _ => none

/-- `fetch_add` of the next id wraps; the path is made with it. -/
def allocate (t : PathTable) (call : Nat) : Option PathTable :=
  match t.starts[call]? with
  | some .allocating =>
      let made : PathTable :=
        { t with
          nextPathId := (t.nextPathId + 1) % 2 ^ 32
          down := t.down ++ [false] }
      some (made.moveStart call (.inserting t.nextPathId t.down.length))
  | _ => none

def insert (t : PathTable) (call : Nat) : Option PathTable :=
  match t.starts[call]? with
  | some (.inserting id path) =>
      let filed : PathTable := { t with paths := t.paths.insert id path }
      some (filed.moveStart call .finished)
  | _ => none

def find (t : PathTable) (failure : Nat) : Option PathTable :=
  match t.failures[failure]? with
  | some (.finding id) =>
      match t.paths.get? id with
      | none => some (t.moveFailure failure .finished)
      | some path => some (t.moveFailure failure (.swapping id path))
  | _ => none

def swapDown (t : PathTable) (failure : Nat) : Option PathTable :=
  match t.failures[failure]? with
  | some (.swapping id path) =>
      let prev := t.down[path]?
      let swapped : PathTable := { t with down := t.down.set path true }
      some (swapped.moveFailure failure (if prev = some true then .finished else .removing id))
  | _ => none

def remove (t : PathTable) (failure : Nat) : Option PathTable :=
  match t.failures[failure]? with
  | some (.removing id) =>
      let removed : PathTable := { t with paths := t.paths.erase id }
      some (removed.moveFailure failure .finished)
  | _ => none

def step (cfg : PoolConfig) (t : PathTable) : PathAction → Option PathTable
  | .startPath => some { t with starts := t.starts ++ [.testing] }
  | .testDead call => t.testDead call
  | .readSize call => readSize cfg t call
  | .allocate call => t.allocate call
  | .insert call => t.insert call
  | .pathFailed id => some { t with failures := t.failures ++ [.finding id] }
  | .find failure => t.find failure
  | .swapDown failure => t.swapDown failure
  | .remove failure => t.remove failure
  | .revive path => some { t with down := t.down.set path false }
  | .markDead => some { t with dead := true }

def new : PathTable := ⟨false, 1, .empty, [], [], []⟩

def machine (cfg : PoolConfig) : Machine PathTable PathAction := ⟨fun t => t = new, step cfg⟩

def pending (t : PathTable) : Nat := t.starts.countP StartPhase.isAdmitted

/-- A call that finds room in the table finds it also when the paths yet to be inserted are
counted. -/
def findsRoom (cfg : PoolConfig) (t : PathTable) : PathAction → Bool
  | .readSize _ => decide (t.paths.size < cfg.maxPaths → t.paths.size + t.pending < cfg.maxPaths)
  | _ => true

/-! ## One step -/

theorem pending_moveStart {t : PathTable} {call : Nat} {phase : StartPhase} (after : StartPhase)
    (found : t.starts[call]? = some phase) :
    (t.moveStart call after).pending + (if phase.isAdmitted then 1 else 0) =
      t.pending + if after.isAdmitted then 1 else 0 :=
  Machine.countP_set_of_some StartPhase.isAdmitted after found

/-- The table and the paths yet to come fit under the cap. -/
def Fits (cfg : PoolConfig) (t : PathTable) : Prop := t.paths.size + t.pending ≤ cfg.maxPaths

section

variable {cfg : PoolConfig} {t next : PathTable} {call failure : Nat}

theorem Fits.of_le (fits : t.Fits cfg) (size : next.paths.size ≤ t.paths.size)
    (pending : next.pending ≤ t.pending) : next.Fits cfg := by
  unfold Fits at fits ⊢
  omega

theorem Fits.testDead (fits : t.Fits cfg) (taken : t.testDead call = some next) :
    next.Fits cfg := by
  unfold PathTable.testDead at taken
  split at taken
  · rename_i found
    cases taken
    refine fits.of_le (Nat.le_refl _) ?_
    have moved := pending_moveStart (if t.dead then .finished else .sizing) found
    by_cases dead : t.dead = true
    · simp only [dead, if_true, StartPhase.isAdmitted, Bool.false_eq_true, if_false] at moved ⊢
      omega
    · simp only [dead, StartPhase.isAdmitted, Bool.false_eq_true, if_false] at moved ⊢
      omega
  · cases taken

theorem Fits.readSize (fits : t.Fits cfg) (room : findsRoom cfg t (.readSize call) = true)
    (taken : PathTable.readSize cfg t call = some next) : next.Fits cfg := by
  have admitted := of_decide_eq_true room
  unfold PathTable.readSize at taken
  split at taken
  · rename_i found
    cases taken
    by_cases full : cfg.maxPaths ≤ t.paths.size
    · rw [if_pos full]
      have moved := pending_moveStart .finished found
      simp only [StartPhase.isAdmitted, Bool.false_eq_true, if_false] at moved
      exact fits.of_le (Nat.le_refl _) (by omega)
    · rw [if_neg full]
      have moved := pending_moveStart .allocating found
      have left := admitted (Nat.lt_of_not_le full)
      simp only [StartPhase.isAdmitted, Bool.false_eq_true, if_false, if_true] at moved
      change t.paths.size + _ ≤ cfg.maxPaths
      omega
  · cases taken

theorem Fits.allocate (fits : t.Fits cfg) (taken : t.allocate call = some next) :
    next.Fits cfg := by
  unfold PathTable.allocate at taken
  split at taken
  · rename_i found
    cases taken
    have moved := pending_moveStart (.inserting t.nextPathId t.down.length) found
    simp only [StartPhase.isAdmitted, if_true] at moved
    exact fits.of_le (Nat.le_refl _) (Nat.le_of_eq (Nat.add_right_cancel moved))
  · cases taken

theorem Fits.insert (fits : t.Fits cfg) (taken : t.insert call = some next) : next.Fits cfg := by
  unfold PathTable.insert at taken
  split at taken
  · rename_i id path found
    cases taken
    have moved := pending_moveStart .finished found
    have size := OrdMap.size_insert_le t.paths id path
    simp only [StartPhase.isAdmitted, Bool.false_eq_true, if_false, if_true] at moved
    unfold Fits at fits
    change (t.paths.insert id path).size + (t.moveStart call .finished).pending ≤ cfg.maxPaths
    omega
  · cases taken

theorem Fits.find (fits : t.Fits cfg) (taken : t.find failure = some next) : next.Fits cfg := by
  unfold PathTable.find at taken
  split at taken
  · split at taken <;> cases taken <;> exact fits.of_le (Nat.le_refl _) (Nat.le_refl _)
  · cases taken

theorem Fits.swapDown (fits : t.Fits cfg) (taken : t.swapDown failure = some next) :
    next.Fits cfg := by
  unfold PathTable.swapDown at taken
  split at taken
  · cases taken
    exact fits.of_le (Nat.le_refl _) (Nat.le_refl _)
  · cases taken

theorem Fits.remove (fits : t.Fits cfg) (taken : t.remove failure = some next) :
    next.Fits cfg := by
  unfold PathTable.remove at taken
  split at taken
  · cases taken
    exact fits.of_le (OrdMap.size_erase_le t.paths _) (Nat.le_refl _)
  · cases taken

theorem fits_step {action : PathAction} (fits : t.Fits cfg) (room : findsRoom cfg t action = true)
    (taken : step cfg t action = some next) : next.Fits cfg := by
  cases action with
  | startPath =>
      cases taken
      refine fits.of_le (Nat.le_refl _) (Nat.le_of_eq ?_)
      rw [pending, pending, List.countP_append]
      rfl
  | testDead call => exact fits.testDead taken
  | readSize call => exact fits.readSize room taken
  | allocate call => exact fits.allocate taken
  | insert call => exact fits.insert taken
  | pathFailed id =>
      cases taken
      exact fits.of_le (Nat.le_refl _) (Nat.le_refl _)
  | find failure => exact fits.find taken
  | swapDown failure => exact fits.swapDown taken
  | remove failure => exact fits.remove taken
  | revive path =>
      cases taken
      exact fits.of_le (Nat.le_refl _) (Nat.le_refl _)
  | markDead =>
      cases taken
      exact fits.of_le (Nat.le_refl _) (Nat.le_refl _)

end

/-! ## A whole run -/

theorem fits_of_reachableWhen {cfg : PoolConfig} {t : PathTable}
    (reachable : (machine cfg).ReachableWhen (fun t action => findsRoom cfg t action = true) t) :
    t.Fits cfg := by
  induction reachable with
  | start begins =>
      cases begins
      exact Nat.zero_le _
  | step _ room taken inductionHypothesis => exact fits_step inductionHypothesis room taken

/-- The table stays within the cap as long as no call passes its size test while the paths that
others have yet to insert fill the table. -/
theorem path_cap {cfg : PoolConfig} {t : PathTable}
    (reachable : (machine cfg).ReachableWhen (fun t action => findsRoom cfg t action = true) t) :
    t.paths.size ≤ cfg.maxPaths :=
  Nat.le_of_add_right_le (fits_of_reachableWhen reachable)

/-- With no other call between its size test and its insert, a call overlooks nothing. -/
theorem findsRoom_of_alone (cfg : PoolConfig) {t : PathTable} {action : PathAction}
    (alone : ∀ call, action = .readSize call → t.pending = 0) :
    findsRoom cfg t action = true := by
  cases action with
  | readSize call =>
      refine decide_eq_true fun room => ?_
      rwa [alone call rfl, Nat.add_zero]
  | _ => rfl

/-- Calls that do not overlap keep the cap, whatever fails between them. -/
theorem fits_of_alone {cfg : PoolConfig} {t : PathTable}
    (reachable : (machine cfg).ReachableWhen
      (fun t action => ∀ call, action = .readSize call → t.pending = 0) t) : t.Fits cfg :=
  fits_of_reachableWhen (reachable.mono fun _ _ alone => findsRoom_of_alone cfg alone)

theorem run_alone {cfg : PoolConfig} {t : PathTable} (alive : t.dead = false)
    (room : t.paths.size < cfg.maxPaths) :
    (machine cfg).run t [.startPath, .testDead t.starts.length, .readSize t.starts.length,
        .allocate t.starts.length, .insert t.starts.length] =
      some { t with
        nextPathId := (t.nextPathId + 1) % 2 ^ 32
        paths := t.paths.insert t.nextPathId t.down.length
        down := t.down ++ [false]
        starts := t.starts ++ [.finished] } := by
  simp [Machine.run, machine, step, testDead, readSize, allocate, insert, moveStart, alive,
    Nat.not_le.mpr room]

def onePath : PoolConfig := { PoolConfig.standard with maxPaths := 1 }

def oneAtATime : List PathAction :=
  [.startPath, .startPath, .testDead 0, .testDead 1, .readSize 0, .allocate 0, .insert 0,
    .readSize 1, .pathFailed 1, .find 0, .startPath, .testDead 2, .swapDown 0, .remove 0,
    .readSize 2, .allocate 2, .insert 2]

theorem path_cap_one : ∃ t,
    (machine onePath).runWhen (fun t action => findsRoom onePath t action = true) new oneAtATime =
      some t ∧ t.paths.entries = [(2, 1)] ∧ t.paths.size ≤ onePath.maxPaths := by
  have replayed : ∃ t,
      (machine onePath).runWhen (fun t action => findsRoom onePath t action = true) new
        oneAtATime = some t ∧ t.paths.entries = [(2, 1)] := ⟨_, rfl, rfl⟩
  obtain ⟨t, replay, entries⟩ := replayed
  have begins : (machine onePath).ReachableWhen
      (fun t action => findsRoom onePath t action = true) new := .start rfl
  exact ⟨t, replay, entries, path_cap (begins.runWhen replay)⟩

def twoAtOnce : List PathAction :=
  [.startPath, .startPath, .testDead 0, .testDead 1, .readSize 0, .readSize 1, .allocate 0,
    .allocate 1, .insert 0, .insert 1]

/-- Each of two calls finds the table empty, and both insert. -/
theorem path_cap_passed : ∃ t, (machine onePath).Reachable t ∧ onePath.maxPaths < t.paths.size := by
  have replayed : ∃ t, (machine onePath).run new twoAtOnce = some t ∧
      t.paths.entries = [(1, 0), (2, 1)] := ⟨_, rfl, rfl⟩
  obtain ⟨t, replay, entries⟩ := replayed
  have begins : (machine onePath).Reachable new := .start rfl
  refine ⟨t, begins.run replay, ?_⟩
  rw [OrdMap.size, entries]
  decide

end PathTable

end NyaLink
