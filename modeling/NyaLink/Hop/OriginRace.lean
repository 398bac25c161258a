import NyaLink.Library.Machine
import Mathlib.Algebra.Group.Nat.Defs
import Mathlib.Data.List.Nodup

/-!
# Racing the addresses of an origin

Two lookups and the attempts they lead to run at once; one turn of the loop takes
one branch of the select.  Attempts finish in any order, also while another
branch is taken, and the timer may fire whenever an address waits.
-/

namespace NyaLink

inductive OriginFamily where
  | v4
  | v6
  deriving DecidableEq, Repr

structure OriginDialMeta where
  lookupAUs : Option Nat
  lookupAaaaUs : Option Nat
  nV4 : Option Nat
  nV6 : Option Nat
  cacheV4 : Nat
  cacheV6 : Nat
  winner : String
  deriving DecidableEq, Repr

/-- The socket is known by its address. -/
structure OriginDial (Addr : Type) where
  stream : Addr
  dialMeta : OriginDialMeta
  deriving DecidableEq, Repr

/-- An error of a lookup or a connect, or `AddrNotAvailable`. -/
inductive DialError (E : Type) where
  | given (e : E)
  | noAddresses
  deriving DecidableEq, Repr

inductive ConnectOutcome (E : Type) where
  | connected
  | failed (e : E)
  | panicked
  deriving DecidableEq, Repr

/-- A finished task of the set. -/
structure Attempt.Result (Addr E : Type) where
  family : OriginFamily
  addr : Addr
  outcome : ConnectOutcome E
  deriving DecidableEq, Repr

/-- The locals of `race_origin_lookups_seeded`.  A task of the `JoinSet` is `running`, then
`finished` until `join_next` reports it.  `given`, `connects`, `finishes` and `reports` are
history: the addresses of seeds and lookups, the calls of `connect`, the tasks in the order they
finished and in the order they were reported. -/
structure OriginRace (Addr E : Type) where
  v4Pending : Bool
  v6Pending : Bool
  q4 : List Addr
  q6 : List Addr
  lastErr : Option E
  lastFamily : Option OriginFamily
  prefer : Option OriginFamily
  startedAny : Bool
  started : List Addr
  dialMeta : OriginDialMeta
  running : List (OriginFamily × Addr)
  finished : List (Attempt.Result Addr E)
  given : List Addr
  connects : List Addr
  finishes : List (Attempt.Result Addr E)
  reports : List (Attempt.Result Addr E)
  ending : Option (Except (DialError E) (OriginDial Addr))
  deriving DecidableEq

inductive RaceAction (Addr E : Type) where
  | lookup (family : OriginFamily) (us : Nat) (result : Except E (List Addr))
  | finish (family : OriginFamily) (addr : Addr) (outcome : ConnectOutcome E)
  /-- The branch of `join_next`, which reports the finished task at this place. -/
  | join (place : Nat)
  | timer
  deriving DecidableEq

namespace OriginRace

variable {Addr E : Type}

def queue (r : OriginRace Addr E) : OriginFamily → List Addr
  | .v4 => r.q4
  | .v6 => r.q6

def setQueue (r : OriginRace Addr E) (family : OriginFamily) (q : List Addr) :
    OriginRace Addr E :=
  match family with
  | .v4 => { r with q4 := q }
  | .v6 => { r with q6 := q }

def pending (r : OriginRace Addr E) : OriginFamily → Bool
  | .v4 => r.v4Pending
  | .v6 => r.v6Pending

/-- `pop_front` of one queue. -/
def pop (r : OriginRace Addr E) (family : OriginFamily) :
    Option (OriginFamily × Addr) × OriginRace Addr E :=
  match r.queue family with
  | [] => (none, r)
  | addr :: rest => (some (family, addr), r.setQueue family rest)

def pickPreferred (r : OriginRace Addr E) :
    Option (OriginFamily × Addr) × OriginRace Addr E :=
  match r.prefer with
  | some family =>
      let (got, r) := r.pop family
      if got.isNone || (r.queue family).isEmpty then (got, { r with prefer := none }) else (got, r)
  | none => (none, r)

def pickAlternate (r : OriginRace Addr E) :
    Option (OriginFamily × Addr) × OriginRace Addr E :=
  if r.lastFamily = some .v4 ∧ r.q6 ≠ [] then r.pop .v6
  else if r.lastFamily = some .v6 ∧ r.q4 ≠ [] then r.pop .v4
  else if r.q4 ≠ [] then r.pop .v4
  else r.pop .v6

def pick (r : OriginRace Addr E) : Option (OriginFamily × Addr) × OriginRace Addr E :=
  match r.pickPreferred with
  | (some picked, r) => (some picked, r)
  | (none, r) => r.pickAlternate

/-- An address waits in a queue. -/
def Waits (r : OriginRace Addr E) (a : Addr) : Prop := a ∈ r.q4 ∨ a ∈ r.q6

/-- One pick: it takes an address as long as one waits. -/
inductive Picked (r : OriginRace Addr E) :
    Option (OriginFamily × Addr) → OriginRace Addr E → Prop where
  | nothing (prefer : Option OriginFamily) (noV4 : r.q4 = []) (noV6 : r.q6 = []) :
      Picked r none { r with prefer := prefer }
  | took (family : OriginFamily) (addr : Addr) (q4 q6 : List Addr)
      (prefer : Option OriginFamily)
      (waiting : ∀ a, r.Waits a → a = addr ∨ a ∈ q4 ∨ a ∈ q6)
      (shorter : q4.length + q6.length + 1 = r.q4.length + r.q6.length) :
      Picked r (some (family, addr)) { r with q4 := q4, q6 := q6, prefer := prefer }

theorem picked_pop {r : OriginRace Addr E} (family : OriginFamily)
    (waiting : r.queue family ≠ []) : r.Picked (r.pop family).1 (r.pop family).2 := by
  cases family with
  | v4 =>
      simp only [pop, queue, setQueue] at waiting ⊢
      cases held : r.q4 with
      | nil => exact absurd held waiting
      | cons addr rest =>
          refine .took .v4 addr rest r.q6 r.prefer (fun a waits => ?_) ?_
          · simpa only [Waits, held, List.mem_cons, or_assoc] using waits
          · simp only [held, List.length_cons]
            omega
  | v6 =>
      simp only [pop, queue, setQueue] at waiting ⊢
      cases held : r.q6 with
      | nil => exact absurd held waiting
      | cons addr rest =>
          refine .took .v6 addr r.q4 rest r.prefer (fun a waits => ?_) ?_
          · simpa only [Waits, held, List.mem_cons, or_left_comm] using waits
          · simp only [held, List.length_cons]
            omega

theorem Picked.withPrefer {r after : OriginRace Addr E} {got : Option (OriginFamily × Addr)}
    (picked : r.Picked got after) (prefer : Option OriginFamily) :
    r.Picked got { after with prefer := prefer } := by
  cases picked with
  | nothing _ noV4 noV6 => exact .nothing prefer noV4 noV6
  | took family addr q4 q6 _ waiting shorter =>
      exact .took family addr q4 q6 prefer waiting shorter

theorem Picked.ofPrefer {r after : OriginRace Addr E} {got : Option (OriginFamily × Addr)}
    {prefer : Option OriginFamily}
    (picked : Picked { r with prefer := prefer } got after) : r.Picked got after := by
  cases picked with
  | nothing prefer noV4 noV6 => exact .nothing prefer noV4 noV6
  | took family addr q4 q6 prefer waiting shorter =>
      exact .took family addr q4 q6 prefer waiting shorter

theorem picked_pickAlternate (r : OriginRace Addr E) :
    r.Picked r.pickAlternate.1 r.pickAlternate.2 := by
  simp only [pickAlternate]
  split_ifs with v6Next v4Next v4Waits
  · exact picked_pop .v6 v6Next.2
  · exact picked_pop .v4 v4Next.2
  · exact picked_pop .v4 v4Waits
  · have noV4 : r.q4 = [] := Decidable.of_not_not v4Waits
    cases noV6 : r.q6 with
    | nil =>
        simp only [pop, queue, noV6]
        exact .nothing r.prefer noV4 noV6
    | cons addr rest =>
        have waiting : r.queue .v6 ≠ [] := by simp [queue, noV6]
        exact picked_pop .v6 waiting

theorem picked_pick (r : OriginRace Addr E) : r.Picked r.pick.1 r.pick.2 := by
  simp only [pick, pickPreferred]
  cases preferred : r.prefer with
  | none => exact picked_pickAlternate r
  | some family =>
      cases held : r.queue family with
      | nil =>
          simp only [pop, held, Option.isNone_none, Bool.true_or, if_true]
          exact (picked_pickAlternate _).ofPrefer
      | cons addr rest =>
          have waiting : r.queue family ≠ [] := by simp [held]
          have picked := picked_pop family waiting
          simp only [pop, held] at picked ⊢
          by_cases last : ((r.setQueue family rest).queue family).isEmpty = true
          · simp only [last, Bool.or_true, if_true]
            exact picked.withPrefer none
          · simp only [last, Option.isNone_some, Bool.or_false, Bool.false_eq_true, if_false]
            exact picked

variable [DecidableEq Addr]

def spawn (r : OriginRace Addr E) (family : OriginFamily) (addr : Addr) : OriginRace Addr E :=
  { r with
    running := r.running ++ [(family, addr)]
    connects := r.connects ++ [addr]
    lastFamily := some family
    startedAny := true }

/-- The loop of `start_one`: an address that was started before is passed over.  The fuel is
more than the queues hold. -/
def startLoop : Nat → OriginRace Addr E → Bool × OriginRace Addr E
  | 0, r => (false, r)
  | fuel + 1, r =>
      match r.pick with
      | (none, r) => (false, r)
      | (some (family, addr), r) =>
          if addr ∈ r.started then startLoop fuel r
          else (true, spawn { r with started := addr :: r.started } family addr)

def startOne (r : OriginRace Addr E) : Bool × OriginRace Addr E :=
  startLoop (r.q4.length + r.q6.length + 1) r

/-- `set.is_empty()`. -/
def setEmpty (r : OriginRace Addr E) : Bool := r.running.isEmpty && r.finished.isEmpty

def more (r : OriginRace Addr E) : Bool := !r.q4.isEmpty || !r.q6.isEmpty

def loopHead (r : OriginRace Addr E) : OriginRace Addr E :=
  if r.setEmpty then
    let (launched, r) := r.startOne
    if !launched && !r.v4Pending && !r.v6Pending then
      { r with ending := some (.error ((r.lastErr.map .given).getD .noAddresses)) }
    else r
  else r

def new (seedV4 seedV6 : List Addr) : OriginRace Addr E where
  v4Pending := true
  v6Pending := true
  q4 := seedV4
  q6 := seedV6
  lastErr := none
  lastFamily := none
  prefer := none
  startedAny := false
  started := []
  dialMeta := ⟨none, none, none, none, seedV4.length % 2 ^ 32, seedV6.length % 2 ^ 32, ""⟩
  running := []
  finished := []
  given := seedV4 ++ seedV6
  connects := []
  finishes := []
  reports := []
  ending := none

def noteLookup (r : OriginRace Addr E) (family : OriginFamily) (us n : Nat) :
    OriginRace Addr E :=
  match family with
  | .v4 =>
      { r with
        v4Pending := false
        dialMeta := { r.dialMeta with lookupAUs := some (max us 1), nV4 := some (n % 2 ^ 32) } }
  | .v6 =>
      { r with
        v6Pending := false
        dialMeta := { r.dialMeta with lookupAaaaUs := some (max us 1), nV6 := some (n % 2 ^ 32) } }

def preferNew (r : OriginRace Addr E) (family : OriginFamily) (addrs : List Addr) :
    OriginRace Addr E :=
  if r.startedAny && decide (r.lastFamily ≠ some family) && !addrs.isEmpty then
    { r with prefer := some family }
  else r

def enqueue (r : OriginRace Addr E) (family : OriginFamily) (addrs : List Addr) :
    OriginRace Addr E :=
  { r.setQueue family (r.queue family ++ addrs) with given := r.given ++ addrs }

def lookupDone (r : OriginRace Addr E) (family : OriginFamily) (us : Nat) :
    Except E (List Addr) → OriginRace Addr E
  | .ok addrs =>
      let r := ((r.noteLookup family us addrs.length).preferNew family addrs).enqueue family addrs
      if !r.startedAny || decide (r.prefer = some family) then r.startOne.2 else r
  | .error e => { r.noteLookup family us 0 with lastErr := some e }

def winnerName : OriginFamily → String
  | .v4 => "v4"
  | .v6 => "v6"

/-- `join_next` takes out the result of a finished task. -/
def report (r : OriginRace Addr E) (place : Nat) (result : Attempt.Result Addr E) :
    OriginRace Addr E :=
  { r with finished := r.finished.eraseIdx place, reports := r.reports ++ [result] }

/-- The branch of `join_next`. -/
def joined (r : OriginRace Addr E) (result : Attempt.Result Addr E) : OriginRace Addr E :=
  match result.outcome with
  | .connected =>
      let dialMeta := { r.dialMeta with winner := winnerName result.family }
      { r with running := [], finished := [], ending := some (.ok ⟨result.addr, dialMeta⟩) }
  | .failed e => (startOne { r with lastErr := some e }).2
  | .panicked => r

def finish (r : OriginRace Addr E) (family : OriginFamily) (addr : Addr)
    (outcome : ConnectOutcome E) : OriginRace Addr E :=
  { r with
    running := r.running.erase (family, addr)
    finished := r.finished ++ [⟨family, addr, outcome⟩]
    finishes := r.finishes ++ [⟨family, addr, outcome⟩] }

def again (r : OriginRace Addr E) : OriginRace Addr E :=
  if r.ending.isSome then r else r.loopHead

def step (r : OriginRace Addr E) (action : RaceAction Addr E) : Option (OriginRace Addr E) :=
  if r.ending.isSome then none
  else
    match action with
    | .lookup family us result =>
        if r.pending family then some (r.lookupDone family us result).again else none
    | .finish family addr outcome =>
        if (family, addr) ∈ r.running then some (r.finish family addr outcome) else none
    | .join place =>
        r.finished[place]?.map fun result => ((r.report place result).joined result).again
    | .timer => if r.more then some r.startOne.2.again else none

def machine (seedV4 seedV6 : List Addr) :
    Machine (OriginRace Addr E) (RaceAction Addr E) where
  initial r := r = loopHead (.new seedV4 seedV6)
  step := step

/-! ## What `start_one` does -/

/-- What `start_one` does: it drops what was started before, and spawns the first address that
was not. -/
inductive Launched (r : OriginRace Addr E) : Bool → OriginRace Addr E → Prop where
  | nothing (prefer : Option OriginFamily) (allStarted : ∀ a, r.Waits a → a ∈ r.started) :
      Launched r false { r with q4 := [], q6 := [], prefer := prefer }
  | spawned (family : OriginFamily) (addr : Addr) (q4 q6 : List Addr)
      (prefer : Option OriginFamily) (fresh : addr ∉ r.started)
      (waiting : ∀ a, r.Waits a → a ∈ addr :: r.started ∨ a ∈ q4 ∨ a ∈ q6) :
      Launched r true
        (spawn { r with q4 := q4, q6 := q6, prefer := prefer, started := addr :: r.started }
          family addr)

/-- The induction is on the fuel: each address passed over leaves one less in the queues. -/
theorem launched_startLoop : ∀ (fuel : Nat) (r : OriginRace Addr E),
    r.q4.length + r.q6.length < fuel → r.Launched (startLoop fuel r).1 (startLoop fuel r).2 := by
  intro fuel
  induction fuel with
  | zero =>
      intro r enough
      exact absurd enough (Nat.not_lt_zero _)
  | succ fuel inductionHypothesis =>
      intro r enough
      have picked := picked_pick r
      simp only [startLoop]
      generalize r.pick = outcome at picked
      obtain ⟨got, after⟩ := outcome
      cases picked with
      | nothing prefer noV4 noV6 =>
          have none : ∀ a, r.Waits a → a ∈ r.started := by
            intro a waits
            simp [Waits, noV4, noV6] at waits
          have launched := Launched.nothing prefer none
          simpa only [noV4, noV6] using launched
      | took family addr q4 q6 prefer waiting shorter =>
          dsimp only
          split_ifs with already
          · have later := inductionHypothesis { r with q4 := q4, q6 := q6, prefer := prefer }
              (by dsimp only; omega)
            generalize startLoop fuel { r with q4 := q4, q6 := q6, prefer := prefer } = result
              at later
            obtain ⟨launched, final⟩ := result
            cases later with
            | nothing prefer allStarted =>
                refine .nothing prefer fun a waits => ?_
                rcases waiting a waits with rfl | remaining
                · exact already
                · exact allStarted a remaining
            | spawned family addr q4 q6 prefer fresh waits =>
                refine .spawned family addr q4 q6 prefer fresh fun a waited => ?_
                rcases waiting a waited with rfl | remaining
                · exact .inl (List.mem_cons_of_mem _ already)
                · exact waits a remaining
          · refine .spawned family addr q4 q6 prefer already fun a waits => ?_
            rcases waiting a waits with rfl | remaining
            · exact .inl (List.mem_cons_self ..)
            · exact .inr remaining

theorem launched_startOne (r : OriginRace Addr E) : r.Launched r.startOne.1 r.startOne.2 :=
  launched_startLoop _ r (Nat.lt_succ_self _)

/-! ## The states of a race -/

/-- What holds until an attempt wins. -/
structure Searching (r : OriginRace Addr E) : Prop where
  distinct : r.connects.Nodup
  started_iff : ∀ a, a ∈ r.started ↔ a ∈ r.connects
  queued : ∀ a ∈ r.given, r.Waits a ∨ a ∈ r.connects
  inFlight : ∀ a ∈ r.connects, (∃ family, (family, a) ∈ r.running) ∨
    (∃ result ∈ r.finished, result.addr = a) ∨ ∃ result ∈ r.reports, result.addr = a
  noneWon : ∀ result ∈ r.reports, result.outcome ≠ .connected

def enabled (r : OriginRace Addr E) : Bool :=
  r.v4Pending || r.v6Pending || !r.setEmpty || r.more

/-- Both lookups have completed, and every address was tried in vain. -/
structure Exhausted (r : OriginRace Addr E) : Prop where
  v4Done : r.v4Pending = false
  v6Done : r.v6Pending = false
  failed : ∀ a ∈ r.given, a ∈ r.connects ∧
    ∃ result ∈ r.reports, result.addr = a ∧ result.outcome ≠ .connected

/-- The attempts in this order: the one that is returned is the first that connected. -/
def FirstOf (results : List (Attempt.Result Addr E)) (dial : OriginDial Addr) : Prop :=
  ∃ earlier winner later, results = earlier ++ winner :: later ∧ winner.addr = dial.stream ∧
    winner.outcome = .connected ∧ ∀ result ∈ earlier, result.outcome ≠ .connected

/-- The three ways a race can stand. -/
def Sound (r : OriginRace Addr E) : Prop :=
  match r.ending with
  | none => r.Searching ∧ r.enabled = true
  | some (.error _) => r.Searching ∧ r.Exhausted
  | some (.ok dial) => r.connects.Nodup ∧ FirstOf r.reports dial

theorem Searching.startOne {r : OriginRace Addr E} (searching : r.Searching) :
    r.startOne.2.Searching := by
  obtain ⟨distinct, started_iff, queued, inFlight, noneWon⟩ := searching
  have launched := launched_startOne r
  generalize r.startOne = result at launched
  obtain ⟨spawned, after⟩ := result
  cases launched with
  | nothing prefer allStarted =>
      refine ⟨distinct, started_iff, fun a given => .inr ?_, inFlight, noneWon⟩
      rcases queued a given with waits | connected
      · exact (started_iff a).mp (allStarted a waits)
      · exact connected
  | spawned family addr q4 q6 prefer fresh waiting =>
      have unconnected : addr ∉ r.connects := fun connected =>
        fresh ((started_iff addr).mpr connected)
      refine ⟨?_, fun a => ?_, fun a given => ?_, fun a connected => ?_, noneWon⟩
      · exact List.nodup_append_comm.mpr (List.nodup_cons.mpr ⟨unconnected, distinct⟩)
      · simp only [List.mem_cons, List.mem_append, List.not_mem_nil, or_false, started_iff]
        exact or_comm
      · rcases queued a given with waits | connected
        · rcases waiting a waits with started | remaining
          · rcases List.mem_cons.mp started with rfl | before
            · exact .inr (List.mem_append_right _ (List.mem_singleton_self _))
            · exact .inr (List.mem_append_left _ ((started_iff a).mp before))
          · exact .inl remaining
        · exact .inr (List.mem_append_left _ connected)
      · rcases List.mem_append.mp connected with before | new
        · rcases inFlight a before with ⟨family, runs⟩ | later
          · exact .inl ⟨family, List.mem_append_left _ runs⟩
          · exact .inr later
        · obtain rfl := List.mem_singleton.mp new
          exact .inl ⟨family, List.mem_append_right _ (List.mem_singleton_self _)⟩

theorem ending_startOne (r : OriginRace Addr E) : r.startOne.2.ending = r.ending := by
  have launched := launched_startOne r
  generalize r.startOne = result at launched
  obtain ⟨spawned, after⟩ := result
  cases launched with
  | nothing prefer allStarted => rfl
  | spawned family addr q4 q6 prefer fresh waiting => rfl

theorem Searching.failed_of_idle {r : OriginRace Addr E} (searching : r.Searching)
    (idle : r.setEmpty = true) (nothing : r.startOne.1 = false) (a : Addr) (given : a ∈ r.given) :
    a ∈ r.connects ∧ ∃ result ∈ r.reports, result.addr = a ∧ result.outcome ≠ .connected := by
  have launched := launched_startOne r
  rw [nothing] at launched
  generalize r.startOne.2 = after at launched
  cases launched with
  | nothing prefer allStarted =>
      have connected : a ∈ r.connects := by
        rcases searching.queued a given with waits | connected
        · exact (searching.started_iff a).mp (allStarted a waits)
        · exact connected
      simp only [setEmpty, Bool.and_eq_true, List.isEmpty_iff] at idle
      obtain ⟨noneRuns, noneFinished⟩ := idle
      rcases searching.inFlight a connected with ⟨family, runs⟩ | ⟨result, done, -⟩ |
        ⟨result, reported, same⟩
      · rw [noneRuns] at runs
        cases runs
      · rw [noneFinished] at done
        cases done
      · exact ⟨connected, result, reported, same, searching.noneWon result reported⟩

omit [DecidableEq Addr] in
theorem sound_of_enabled {r : OriginRace Addr E} (searching : r.Searching)
    (going : r.ending = none) (some : r.enabled = true) : r.Sound := by
  rw [Sound, going]
  exact ⟨searching, some⟩

theorem Searching.loopHead {r : OriginRace Addr E} (searching : r.Searching)
    (going : r.ending = none) : r.loopHead.Sound := by
  simp only [OriginRace.loopHead]
  by_cases idle : r.setEmpty = true
  · have started := searching.startOne
    have failed := searching.failed_of_idle idle
    have launched := launched_startOne r
    rw [if_pos idle]
    generalize r.startOne = result at started failed launched
    obtain ⟨spawned, after⟩ := result
    cases launched with
    | nothing prefer allStarted =>
        dsimp only
        split_ifs with settled
        · simp only [Bool.not_false, Bool.true_and, Bool.and_eq_true, Bool.not_eq_true'] at settled
          exact ⟨⟨started.distinct, started.started_iff, started.queued, started.inFlight,
            started.noneWon⟩, settled.1, settled.2, failed rfl⟩
        · refine sound_of_enabled started going ?_
          simp only [Bool.not_false, Bool.true_and, Bool.and_eq_true, Bool.not_eq_true',
            not_and, Bool.not_eq_false] at settled
          cases waiting : r.v4Pending with
          | true => simp only [enabled, Bool.true_or]
          | false => simp only [enabled, settled waiting, Bool.or_true, Bool.true_or]
    | spawned family addr q4 q6 prefer fresh waiting =>
        refine sound_of_enabled started going ?_
        simp [enabled, setEmpty]
  · rw [if_neg idle]
    refine sound_of_enabled searching going ?_
    simp only [enabled, idle, Bool.not_false, Bool.or_true, Bool.true_or]

/-! ## One turn -/

theorem sound_again {r : OriginRace Addr E} (searching : r.Searching) (going : r.ending = none) :
    r.again.Sound := by
  simp only [again, going, Option.isSome_none, Bool.false_eq_true, if_false]
  exact searching.loopHead going

omit [DecidableEq Addr] in
theorem Searching.enqueue {r : OriginRace Addr E} (searching : r.Searching)
    (family : OriginFamily) (addrs : List Addr) :
    (r.enqueue family addrs).Searching := by
  obtain ⟨distinct, started_iff, queued, inFlight, noneWon⟩ := searching
  cases family with
  | v4 =>
      refine ⟨distinct, started_iff, fun a given => ?_, inFlight, noneWon⟩
      rcases List.mem_append.mp given with before | new
      · exact (queued a before).imp_left (Or.imp_left fun mem => List.mem_append_left _ mem)
      · exact .inl (.inl (List.mem_append_right _ new))
  | v6 =>
      refine ⟨distinct, started_iff, fun a given => ?_, inFlight, noneWon⟩
      rcases List.mem_append.mp given with before | new
      · exact (queued a before).imp_left (Or.imp_right fun mem => List.mem_append_left _ mem)
      · exact .inl (.inr (List.mem_append_right _ new))

omit [DecidableEq Addr] in
theorem Searching.noteLookup {r : OriginRace Addr E} (searching : r.Searching)
    (family : OriginFamily) (us n : Nat) : (r.noteLookup family us n).Searching := by
  obtain ⟨distinct, started_iff, queued, inFlight, noneWon⟩ := searching
  cases family with
  | v4 => exact ⟨distinct, started_iff, queued, inFlight, noneWon⟩
  | v6 => exact ⟨distinct, started_iff, queued, inFlight, noneWon⟩

omit [DecidableEq Addr] in
theorem Searching.preferNew {r : OriginRace Addr E} (searching : r.Searching)
    (family : OriginFamily) (addrs : List Addr) : (r.preferNew family addrs).Searching := by
  simp only [OriginRace.preferNew]
  split_ifs
  · exact ⟨searching.distinct, searching.started_iff, searching.queued, searching.inFlight,
      searching.noneWon⟩
  · exact searching

omit [DecidableEq Addr] in
theorem Searching.lastErr {r : OriginRace Addr E} (searching : r.Searching) (e : E) :
    Searching { r with lastErr := some e } :=
  ⟨searching.distinct, searching.started_iff, searching.queued, searching.inFlight,
    searching.noneWon⟩

theorem Searching.lookupDone {r : OriginRace Addr E} (searching : r.Searching)
    (family : OriginFamily) (us : Nat) (result : Except E (List Addr)) :
    (r.lookupDone family us result).Searching := by
  cases result with
  | ok addrs =>
      have noted := searching.noteLookup family us addrs.length
      have queued := (noted.preferNew family addrs).enqueue family addrs
      simp only [OriginRace.lookupDone]
      split_ifs
      · exact queued.startOne
      · exact queued
  | error e => exact (searching.noteLookup family us 0).lastErr e

omit [DecidableEq Addr] in
theorem ending_enqueue (r : OriginRace Addr E) (family : OriginFamily) (addrs : List Addr) :
    (r.enqueue family addrs).ending = r.ending := by
  cases family with
  | v4 => rfl
  | v6 => rfl

omit [DecidableEq Addr] in
theorem ending_preferNew (r : OriginRace Addr E) (family : OriginFamily) (addrs : List Addr) :
    (r.preferNew family addrs).ending = r.ending := by
  simp only [preferNew]
  split_ifs <;> rfl

omit [DecidableEq Addr] in
theorem ending_noteLookup (r : OriginRace Addr E) (family : OriginFamily) (us n : Nat) :
    (r.noteLookup family us n).ending = r.ending := by
  cases family with
  | v4 => rfl
  | v6 => rfl

theorem ending_lookupDone (r : OriginRace Addr E) (family : OriginFamily) (us : Nat)
    (result : Except E (List Addr)) : (r.lookupDone family us result).ending = r.ending := by
  cases result with
  | ok addrs =>
      simp only [lookupDone]
      split_ifs <;>
        simp only [ending_startOne, ending_enqueue, ending_preferNew, ending_noteLookup]
  | error e => exact ending_noteLookup r family us 0

theorem Searching.finish {r : OriginRace Addr E} (searching : r.Searching)
    (family : OriginFamily) (addr : Addr) (outcome : ConnectOutcome E) :
    (r.finish family addr outcome).Searching := by
  obtain ⟨distinct, started_iff, queued, inFlight, noneWon⟩ := searching
  refine ⟨distinct, started_iff, queued, fun a connected => ?_, noneWon⟩
  rcases inFlight a connected with ⟨other, runs⟩ | ⟨result, done, same⟩ | reported
  · by_cases ended : (other, a) = (family, addr)
    · cases ended
      exact .inr (.inl ⟨⟨family, addr, outcome⟩,
        List.mem_append_right _ (List.mem_singleton_self _), rfl⟩)
    · exact .inl ⟨other, (List.mem_erase_of_ne ended).mpr runs⟩
  · exact .inr (.inl ⟨result, List.mem_append_left _ done, same⟩)
  · exact .inr (.inr reported)

omit [DecidableEq Addr] in
theorem Searching.report {r : OriginRace Addr E} (searching : r.Searching) {place : Nat}
    {result : Attempt.Result Addr E} (found : r.finished[place]? = some result)
    (lost : result.outcome ≠ .connected) : (r.report place result).Searching := by
  obtain ⟨distinct, started_iff, queued, inFlight, noneWon⟩ := searching
  refine ⟨distinct, started_iff, queued, fun a connected => ?_, fun other mem => ?_⟩
  · rcases inFlight a connected with runs | ⟨other, done, same⟩ | ⟨other, reported, same⟩
    · exact .inl runs
    · obtain ⟨i, at_i⟩ := List.mem_iff_getElem?.mp done
      by_cases here : i = place
      · obtain rfl : result = other := Option.some.inj (found.symm.trans (here ▸ at_i))
        exact .inr (.inr ⟨result, List.mem_append_right _ (List.mem_singleton_self _), same⟩)
      · exact .inr (.inl ⟨other, List.mem_eraseIdx_iff_getElem?.mpr ⟨i, here, at_i⟩, same⟩)
    · exact .inr (.inr ⟨other, List.mem_append_left _ reported, same⟩)
  · rcases List.mem_append.mp mem with before | new
    · exact noneWon other before
    · rwa [List.mem_singleton.mp new]

theorem sound_step {r next : OriginRace Addr E} {action : RaceAction Addr E} (sound : r.Sound)
    (taken : r.step action = some next) : next.Sound := by
  simp only [step, Option.ite_none_left_eq_some, Bool.not_eq_true, Option.isSome_eq_false_iff,
    Option.isNone_iff_eq_none] at taken
  obtain ⟨going, taken⟩ := taken
  rw [Sound, going] at sound
  obtain ⟨searching, -⟩ := sound
  cases action with
  | lookup family us result =>
      simp only [Option.ite_none_right_eq_some, Option.some.injEq] at taken
      obtain ⟨-, rfl⟩ := taken
      refine sound_again (searching.lookupDone family us result) ?_
      rw [ending_lookupDone, going]
  | finish family addr outcome =>
      simp only [Option.ite_none_right_eq_some, Option.some.injEq] at taken
      obtain ⟨-, rfl⟩ := taken
      refine sound_of_enabled (searching.finish family addr outcome) going ?_
      simp [enabled, setEmpty, OriginRace.finish]
  | join place =>
      simp only [Option.map_eq_some_iff] at taken
      obtain ⟨result, found, rfl⟩ := taken
      simp only [joined]
      cases outcome : result.outcome with
      | connected =>
          refine ⟨searching.distinct, r.reports, result, [], rfl, rfl, outcome, searching.noneWon⟩
      | failed e =>
          have lost : result.outcome ≠ .connected := by simp [outcome]
          refine sound_again ((searching.report found lost).lastErr e).startOne ?_
          rw [ending_startOne]
          exact going
      | panicked =>
          have lost : result.outcome ≠ .connected := by simp [outcome]
          exact sound_again (searching.report found lost) going
  | timer =>
      simp only [Option.ite_none_right_eq_some, Option.some.injEq] at taken
      obtain ⟨-, rfl⟩ := taken
      refine sound_again searching.startOne ?_
      rw [ending_startOne, going]

omit [DecidableEq Addr] in
theorem searching_new (seedV4 seedV6 : List Addr) :
    (new seedV4 seedV6 : OriginRace Addr E).Searching where
  distinct := List.nodup_nil
  started_iff := fun _ => Iff.rfl
  queued := fun _ given => .inl (List.mem_append.mp given)
  inFlight := fun _ connected => by cases connected
  noneWon := fun _ reported => by cases reported

theorem sound_of_reachable {seedV4 seedV6 : List Addr} {r : OriginRace Addr E}
    (reachable : (machine seedV4 seedV6).Reachable r) : r.Sound := by
  refine Machine.Reachable.invariant Sound ?_ ?_ reachable
  · rintro r rfl
    exact (searching_new seedV4 seedV6).loopHead rfl
  · intro r action next sound taken
    exact sound_step sound taken

/-- An enabled branch is not only enabled: a lookup, a task or the timer can go on. -/
theorem step_of_enabled {r : OriginRace Addr E} (going : r.ending = none)
    (someBranch : r.enabled = true) : ∃ action next, r.step action = some next := by
  simp only [enabled, setEmpty, Bool.or_eq_true, Bool.not_eq_true', Bool.and_eq_false_iff]
    at someBranch
  simp only [step, going, Option.isSome_none, Bool.false_eq_true, if_false]
  rcases someBranch with ((v4 | v6) | running | finished) | more
  · exact ⟨.lookup .v4 0 (.ok []), _, if_pos v4⟩
  · exact ⟨.lookup .v6 0 (.ok []), _, if_pos v6⟩
  · cases held : r.running with
    | nil => simp [held] at running
    | cons task rest =>
        exact ⟨.finish task.1 task.2 .panicked, _, if_pos (List.mem_cons_self ..)⟩
  · cases held : r.finished with
    | nil => simp [held] at finished
    | cons result rest => exact ⟨.join 0, _, rfl⟩
  · exact ⟨.timer, _, if_pos more⟩

/-! ## The order of the results -/

/-- `join_next` reports the tasks in the order they finished. -/
def inOrder (_ : OriginRace Addr E) (action : RaceAction Addr E) : Prop :=
  match action with
  | .join place => place = 0
  | _ => True

instance (r : OriginRace Addr E) (action : RaceAction Addr E) : Decidable (r.inOrder action) := by
  unfold inOrder
  split <;> infer_instance

def log (r : OriginRace Addr E) :
    List (Attempt.Result Addr E) × List (Attempt.Result Addr E) × List (Attempt.Result Addr E) :=
  (r.reports, r.finished, r.finishes)

theorem log_startOne (r : OriginRace Addr E) : r.startOne.2.log = r.log := by
  have launched := launched_startOne r
  generalize r.startOne = result at launched
  obtain ⟨spawned, after⟩ := result
  cases launched with
  | nothing prefer allStarted => rfl
  | spawned family addr q4 q6 prefer fresh waiting => rfl

theorem log_loopHead (r : OriginRace Addr E) : r.loopHead.log = r.log := by
  simp only [loopHead]
  split_ifs
  · exact log_startOne r
  · exact log_startOne r
  · rfl

theorem log_again (r : OriginRace Addr E) : r.again.log = r.log := by
  simp only [again]
  split_ifs
  · rfl
  · exact log_loopHead r

theorem log_lookupDone (r : OriginRace Addr E) (family : OriginFamily) (us : Nat)
    (result : Except E (List Addr)) : (r.lookupDone family us result).log = r.log := by
  have noted : ∀ n, (r.noteLookup family us n).log = r.log := by
    intro n
    cases family <;> rfl
  cases result with
  | ok addrs =>
      have queued : (((r.noteLookup family us addrs.length).preferNew family addrs).enqueue family
          addrs).log = r.log := by
        rw [← noted addrs.length]
        simp only [preferNew]
        cases family <;> split_ifs <;> rfl
      simp only [lookupDone]
      split_ifs
      · rw [log_startOne, queued]
      · exact queued
  | error e => exact noted 0

/-- The reports are what finished, in the same order, up to what was not reported yet. -/
structure Logged (r : OriginRace Addr E) : Prop where
  reported : r.reports <+: r.finishes
  waiting : r.ending = none → r.reports ++ r.finished = r.finishes

omit [DecidableEq Addr] in
theorem logged_of_log {r s : OriginRace Addr E} (same : s.log = r.log)
    (logged : r.reports ++ r.finished = r.finishes) : s.Logged := by
  simp only [log, Prod.mk.injEq] at same
  obtain ⟨reports, finished, finishes⟩ := same
  have kept : s.reports ++ s.finished = s.finishes := by rw [reports, finished, finishes, logged]
  exact ⟨⟨s.finished, kept⟩, fun _ => kept⟩

theorem logged_step {r next : OriginRace Addr E} {action : RaceAction Addr E} (logged : r.Logged)
    (ordered : r.inOrder action) (taken : r.step action = some next) : next.Logged := by
  simp only [step, Option.ite_none_left_eq_some, Bool.not_eq_true, Option.isSome_eq_false_iff,
    Option.isNone_iff_eq_none] at taken
  obtain ⟨going, taken⟩ := taken
  have waiting := logged.waiting going
  cases action with
  | lookup family us result =>
      simp only [Option.ite_none_right_eq_some, Option.some.injEq] at taken
      obtain ⟨-, rfl⟩ := taken
      exact logged_of_log ((log_again _).trans (log_lookupDone ..)) waiting
  | finish family addr outcome =>
      simp only [Option.ite_none_right_eq_some, Option.some.injEq] at taken
      obtain ⟨-, rfl⟩ := taken
      have kept : r.reports ++ (r.finish family addr outcome).finished =
          (r.finish family addr outcome).finishes := by
        simp only [finish, ← waiting, List.append_assoc]
      exact ⟨⟨_, kept⟩, fun _ => kept⟩
  | join place =>
      simp only [Option.map_eq_some_iff] at taken
      obtain ⟨result, found, rfl⟩ := taken
      obtain rfl : place = 0 := ordered
      have kept : (r.report 0 result).reports ++ (r.report 0 result).finished =
          (r.report 0 result).finishes := by
        cases held : r.finished with
        | nil => simp [held] at found
        | cons first rest =>
            obtain rfl : first = result := by simpa [held] using found
            simp only [report, held, List.eraseIdx_cons_zero, ← waiting, List.append_assoc,
              List.singleton_append]
      simp only [joined]
      cases outcome : result.outcome with
      | connected => exact ⟨⟨_, kept⟩, fun impossible => by cases impossible⟩
      | failed e => exact logged_of_log ((log_again _).trans (log_startOne _)) kept
      | panicked => exact logged_of_log (log_again _) kept
  | timer =>
      simp only [Option.ite_none_right_eq_some, Option.some.injEq] at taken
      obtain ⟨-, rfl⟩ := taken
      exact logged_of_log ((log_again _).trans (log_startOne _)) waiting

theorem logged_of_reachableWhen {seedV4 seedV6 : List Addr} {r : OriginRace Addr E}
    (reachable : (machine seedV4 seedV6).ReachableWhen inOrder r) : r.Logged := by
  refine reachable.invariant_of Logged (fun _ _ => trivial) ?_ ?_
  · rintro r rfl
    exact logged_of_log (log_loopHead _) rfl
  · intro r action next _ logged ordered taken
    exact logged_step logged ordered taken

omit [DecidableEq Addr] in
theorem FirstOf.among {reports finishes : List (Attempt.Result Addr E)}
    {dial : OriginDial Addr} (first : FirstOf reports dial) (reported : reports <+: finishes) :
    FirstOf finishes dial := by
  obtain ⟨earlier, winner, later, rfl, same, won, lost⟩ := first
  obtain ⟨rest, rfl⟩ := reported
  exact ⟨earlier, winner, later ++ rest, by simp, same, won, lost⟩

/-- The race makes no duplicate, gives up only when every address has failed, returns the first
attempt that connects, and can always go on. -/
theorem race_complete {seedV4 seedV6 : List Addr} {r : OriginRace Addr E}
    (reachable : (machine seedV4 seedV6).Reachable r) :
    r.connects.Nodup ∧
      (∀ e, r.ending = some (.error e) → r.Exhausted) ∧
      (∀ dial, r.ending = some (.ok dial) → FirstOf r.reports dial) ∧
      ((machine seedV4 seedV6).ReachableWhen inOrder r →
        ∀ dial, r.ending = some (.ok dial) → FirstOf r.finishes dial) ∧
      (r.ending = none → r.enabled = true ∧ ∃ action next, r.step action = some next) := by
  have sound := sound_of_reachable reachable
  have distinct : r.connects.Nodup := by
    simp only [Sound] at sound
    split at sound
    · exact sound.1.distinct
    · exact sound.1.distinct
    · exact sound.1
  have first : ∀ dial, r.ending = some (.ok dial) → FirstOf r.reports dial := by
    intro dial ended
    rw [Sound, ended] at sound
    exact sound.2
  refine ⟨distinct, fun e ended => ?_, first, fun ordered dial ended => ?_, fun going => ?_⟩
  · rw [Sound, ended] at sound
    exact sound.2
  · exact (first dial ended).among (logged_of_reachableWhen ordered).reported
  · rw [Sound, going] at sound
    exact ⟨sound.2, step_of_enabled going sound.2⟩

/-- Address 1 is cached and given by both lookups; it fails, and address 2 connects. -/
def overlapping : List (RaceAction Nat Unit) :=
  [.lookup .v6 40 (.ok [9, 1]), .lookup .v4 60 (.ok [1, 2]), .finish .v4 1 (.failed ()),
    .finish .v4 2 .connected, .join 0, .join 0]

theorem race_complete_overlapping : ∃ r dial,
    (machine [1] []).run (loopHead (.new [1] [])) overlapping = some r ∧
      r.connects = [1, 9, 2] ∧ r.ending = some (.ok dial) ∧ dial.stream = 2 ∧
      r.connects.Nodup ∧ FirstOf r.reports dial ∧ FirstOf r.finishes dial := by
  have replayed : ∃ r dial, (machine [1] []).run (loopHead (.new [1] [])) overlapping = some r ∧
      (machine [1] []).runWhen inOrder (loopHead (.new [1] [])) overlapping = some r ∧
      r.connects = [1, 9, 2] ∧ r.ending = some (.ok dial) ∧ dial.stream = 2 :=
    ⟨_, _, rfl, rfl, rfl, rfl, rfl⟩
  obtain ⟨r, dial, replay, ordered, connects, ended, stream⟩ := replayed
  have begins : (machine [1] []).ReachableWhen inOrder
      (loopHead (.new [1] []) : OriginRace Nat Unit) := .start rfl
  have reachable := begins.runWhen ordered
  obtain ⟨distinct, -, reported, finished, -⟩ := race_complete reachable.reachable
  exact ⟨r, dial, replay, connects, ended, stream, distinct, reported dial ended,
    finished reachable dial ended⟩

def allFail : List (RaceAction Nat Unit) :=
  [.lookup .v4 40 (.error ()), .finish .v4 1 .panicked, .lookup .v6 60 (.error ()), .join 0]

example : ((machine [1] []).run (loopHead (.new [1] [])) allFail).map (·.ending) =
    some (some (.error (.given ()))) := by decide

end OriginRace

end NyaLink
