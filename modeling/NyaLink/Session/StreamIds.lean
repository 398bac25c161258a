import Mathlib.Data.List.Nodup
import Mathlib.Data.List.Perm.Basic
import NyaLink.Session.Accept
import NyaLink.Session.Endings

/-!
# Stream ids across the wrap

`open_stream` of a client draws its id from a counter of 32 bits, chooses a path
and only then puts the stream into the table.  Calls run side by side, and one
that finds no path has used its id up.  The draws are numbered from 0 on: two of
them gave the same id exactly when their numbers differ by a multiple of 2^32.
-/

namespace NyaLink

def idCount : Nat := u32Max + 1

/-- A call of `open_stream` from `fetch_add` to its end; `draw` is history, the number of its
draw. -/
inductive OpenCall where
  | drawn (id draw : Nat)
  | picked (id draw path : Nat)
  | allocated (id path : Nat)
  deriving DecidableEq, Repr

/-- The counter of the table itself, which does not wrap, stays unused.  `draws`, `born` and
`panicked` are history: the draws so far, the draw of the stream that was last put under an id, and
the ids of the calls that panicked. -/
structure StreamIds where
  nextStreamId : Nat
  table : StreamTable
  calls : List OpenCall
  draws : Nat
  born : OrdMap Nat Nat
  panicked : List Nat
  deriving DecidableEq

inductive StreamIdAction where
  | draw
  /-- `pick_pref` of one of the calls; without a path it ends with `NoPath`. -/
  | pick (call : Nat) (path : Option Nat)
  | alloc (call : Nat)
  | finish (call : Nat) (target : Target) (path : Nat)
  | onTable (action : TableAction)
  deriving DecidableEq, Repr

namespace StreamIds

/-- The wrapping `fetch_add`. -/
def draw (s : StreamIds) : StreamIds :=
  { s with
    nextStreamId := (s.nextStreamId + 1) % idCount
    draws := s.draws + 1
    calls := s.calls ++ [.drawn s.nextStreamId s.draws] }

def pick (s : StreamIds) (call : Nat) (path : Option Nat) : Option StreamIds :=
  match s.calls[call]? with
  | some (.drawn id draw) =>
      match path with
      | none => some { s with calls := s.calls.eraseIdx call }
      | some path => some { s with calls := s.calls.set call (.picked id draw path) }
  | _ => none

/-- `alloc_local_stream`, with the panic of its `expect`. -/
def alloc (s : StreamIds) (call : Nat) : Option StreamIds :=
  match s.calls[call]? with
  | some (.picked id draw path) =>
      match s.table.tryAllocLocalStream id with
      | none => some { s with calls := s.calls.eraseIdx call, panicked := id :: s.panicked }
      | some allocated =>
          some { s with
            table := allocated.noteOpened
            calls := s.calls.set call (.allocated id path)
            born := s.born.insert id draw }
  | _ => none

def finish (s : StreamIds) (call : Nat) (target : Target) (path : Nat) : Option StreamIds :=
  match s.calls[call]? with
  | some (.allocated id _) =>
      some { s with
        table := s.table.rememberOpen id path target
        calls := s.calls.eraseIdx call }
  | _ => none

/-- A client ignores StreamOpen, so only its own calls put streams into the table. -/
def step (s : StreamIds) : StreamIdAction → Option StreamIds
  | .draw => some s.draw
  | .pick call path => s.pick call path
  | .alloc call => s.alloc call
  | .finish call target path => s.finish call target path
  | .onTable action =>
      if action.opensStream then none
      else (s.table.step action).map fun table => { s with table := table }

def new (initialWindow chan : Nat) : StreamIds where
  nextStreamId := 1
  table := .new true initialWindow chan
  calls := []
  draws := 0
  born := .empty
  panicked := []

def machine : Machine StreamIds StreamIdAction where
  initial s := ∃ initialWindow chan, s = new initialWindow chan
  step := step

/-- The call puts its stream into the table under this id. -/
def Allocates (s : StreamIds) (action : StreamIdAction) (id draw : Nat) : Prop :=
  ∃ call path, action = .alloc call ∧ s.calls[call]? = some (.picked id draw path)

/-- Nothing panics, and no id is given to a call that a stream in the table has. -/
def Survives (s : StreamIds) (action : StreamIdAction) (next : StreamIds) : Prop :=
  next.panicked = s.panicked ∧ ∀ id draw, s.Allocates action id draw → s.table.getStream id = none

/-- When a call puts its stream into the table, no stream there was drawn a multiple of 2^32 draws
before or after. -/
def Apart (s : StreamIds) (action : StreamIdAction) : Prop :=
  ∀ id draw, s.Allocates action id draw → ∀ other birth, s.born.get? other = some birth →
    s.table.getStream other ≠ none → birth % idCount ≠ draw % idCount

end StreamIds

/-! ## Only a call puts a stream into the table -/

namespace StreamTable

variable {t : StreamTable} {id : Nat}

theorem Ending.none {after : StreamTable} (ending : Ending t after)
    (absent : t.getStream id = none) : after.getStream id = none := by
  cases found : after.getStream id with
  | none => rfl
  | some st =>
      obtain ⟨old, foundOld, -⟩ := ending.streams id st found
      exact absurd (absent.symm.trans foundOld) (by simp)

theorem none_modifyStream (absent : t.getStream id = none) (other : Nat)
    (change : StreamState → StreamState) : (t.modifyStream other change).getStream id = none := by
  rw [getStream_modifyStream, absent]
  exact ite_self _

theorem none_drainRecv (absent : t.getStream id = none) (other : Nat) (inputs : CapInputs) :
    (t.drainRecv other inputs).getStream id = none :=
  (ending_tryFinishRecvClose _ other).none (none_modifyStream absent other _)

theorem none_deliverData (absent : t.getStream id = none) (path : Nat) (data : StreamData)
    (inputs : CapInputs) : (t.deliverData path data inputs).getStream id = none := by
  unfold deliverData
  split
  · exact absent
  · rename_i st _
    have arrived := none_modifyStream absent data.streamId fun st => st.noteArrival path
    have seen : (if st.peerSeen then t.modifyStream data.streamId fun st => st.noteArrival path
        else (t.modifyStream data.streamId fun st => st.noteArrival path).forgetOpen
          data.streamId).getStream id = none := by
      split
      · exact arrived
      · exact arrived
    split
    · exact absent
    · simp only
      split
      · exact seen
      · split
        · exact none_modifyStream seen data.streamId _
        · exact none_drainRecv (none_modifyStream seen data.streamId _) data.streamId inputs

theorem none_step {action : TableAction} {next : StreamTable}
    (opens : action.opensStream = false) (taken : t.step action = some next)
    (absent : t.getStream id = none) : next.getStream id = none := by
  cases action with
  | openStream target path => cases opens
  | acceptRemoteStream other inputs incoming => cases opens
  | sendPiece other piece path now =>
      cases taken
      exact none_modifyStream absent other _
  | data path body inputs =>
      cases taken
      unfold onData
      split
      · exact absent
      · exact none_deliverData absent path body inputs
  | ack body now =>
      cases taken
      unfold onAck
      split
      · exact absent
      · exact none_modifyStream absent body.streamId _
  | appRead other n inputs =>
      cases taken
      exact none_drainRecv (none_modifyStream absent other _) other inputs
  | closeSend other =>
      cases taken
      unfold closeSend
      split
      · exact absent
      · split
        · exact absent
        · exact (ending_maybeCountGraceful _ other).none (none_modifyStream absent other _)
  | _ => exact (ending_step rfl taken).none absent

theorem getStream_finishStream (t : StreamTable) (id other : Nat) (reason : ResetReason) :
    (t.finishStream id reason).getStream other =
      if other = id then none else t.getStream other := by
  rw [finishStream, getStream_removeHeldStream]
  split
  · rfl
  · rename_i different
    rw [getStream_countClose_of_ne _ _ different, getStream_modifyStream, if_neg different]

end StreamTable

namespace StreamIds

variable {s : StreamIds}

/-! ## What a step can do -/

theorem pick_cases {call : Nat} {path : Option Nat} {next : StreamIds}
    (picks : s.pick call path = some next) :
    next = { s with calls := s.calls.eraseIdx call } ∨
      ∃ id draw chosen, s.calls[call]? = some (.drawn id draw) ∧
        next = { s with calls := s.calls.set call (.picked id draw chosen) } := by
  unfold pick at picks
  split at picks
  · rename_i id draw found
    cases path with
    | none =>
        cases picks
        exact .inl rfl
    | some path =>
        cases picks
        exact .inr ⟨id, draw, path, found, rfl⟩
  · cases picks

/-- Either the table has the id and the call panics, or the call puts its stream there. -/
theorem alloc_cases {call : Nat} {next : StreamIds} (allocates : s.alloc call = some next) :
    ∃ id draw path, s.calls[call]? = some (.picked id draw path) ∧
      (s.table.getStream id ≠ none ∧
          next = { s with calls := s.calls.eraseIdx call, panicked := id :: s.panicked } ∨
        s.table.getStream id = none ∧ next.panicked = s.panicked ∧
          next.nextStreamId = s.nextStreamId ∧ next.draws = s.draws ∧
          next.calls = s.calls.set call (.allocated id path) ∧
          next.born = s.born.insert id draw ∧
          next.table.streams =
            s.table.streams.insert id (.new id s.table.initialWindow s.table.chan)) := by
  unfold alloc at allocates
  split at allocates
  · rename_i id draw path found
    refine ⟨id, draw, path, found, ?_⟩
    unfold StreamTable.tryAllocLocalStream at allocates
    cases held : s.table.getStream id with
    | none =>
        simp only [held, Option.isSome_none, Bool.false_eq_true, if_false] at allocates
        cases allocates
        exact .inr ⟨rfl, rfl, rfl, rfl, rfl, rfl, rfl⟩
    | some st =>
        simp only [held, Option.isSome_some, if_true] at allocates
        cases allocates
        exact .inl ⟨by simp, rfl⟩
  · cases allocates

theorem finish_cases {call path : Nat} {target : Target} {next : StreamIds}
    (finishes : s.finish call target path = some next) :
    ∃ id, next = { s with
      table := s.table.rememberOpen id path target
      calls := s.calls.eraseIdx call } := by
  unfold finish at finishes
  split at finishes
  · cases finishes
    exact ⟨_, rfl⟩
  · cases finishes

theorem onTable_cases {action : TableAction} {next : StreamIds}
    (taken : s.step (.onTable action) = some next) :
    ∃ table, action.opensStream = false ∧ s.table.step action = some table ∧
      next = { s with table := table } := by
  simp only [step] at taken
  split at taken
  · cases taken
  · rename_i opens
    obtain ⟨table, stepped, rfl⟩ := Option.map_eq_some_iff.mp taken
    exact ⟨table, Bool.of_not_eq_true opens, stepped, rfl⟩

/-! ## Ids and draws -/

def idOf (draw : Nat) : Nat := (draw + 1) % idCount

theorem idOf_eq_iff {first second : Nat} :
    idOf first = idOf second ↔ first % idCount = second % idCount := by
  simp only [idOf, idCount, u32Max]
  omega

theorem idOf_succ (draw : Nat) : (idOf draw + 1) % idCount = idOf (draw + 1) := by
  simp only [idOf, idCount, u32Max]
  omega

def NumberedCall : OpenCall → Prop
  | .drawn id draw => id = idOf draw
  | .picked id draw _ => id = idOf draw
  | .allocated _ _ => True

/-- Every id goes back to its draw. -/
structure Numbered (s : StreamIds) : Prop where
  counter : s.nextStreamId = idOf s.draws
  calls : ∀ call ∈ s.calls, NumberedCall call
  held : ∀ id, s.table.getStream id ≠ none → ∃ draw, s.born.get? id = some draw ∧ id = idOf draw

theorem numbered_new (initialWindow chan : Nat) : (new initialWindow chan).Numbered :=
  ⟨rfl, fun _ absent => absurd absent List.not_mem_nil, fun _ absent => absurd rfl absent⟩

theorem numbered_draw (numbered : s.Numbered) : s.draw.Numbered where
  counter := by
    show (s.nextStreamId + 1) % idCount = idOf (s.draws + 1)
    rw [numbered.counter, idOf_succ]
  calls := by
    intro call inside
    rcases List.mem_append.mp inside with before | new
    · exact numbered.calls call before
    · obtain rfl := List.mem_singleton.mp new
      exact numbered.counter
  held := numbered.held

theorem Numbered.eraseCall (numbered : s.Numbered) (call : Nat) :
    { s with calls := s.calls.eraseIdx call }.Numbered :=
  { numbered with
    calls := fun other inside => numbered.calls other (List.mem_of_mem_eraseIdx inside) }

theorem numbered_pick {call : Nat} {path : Option Nat} {next : StreamIds} (numbered : s.Numbered)
    (picks : s.pick call path = some next) : next.Numbered := by
  rcases pick_cases picks with rfl | ⟨id, draw, chosen, found, rfl⟩
  · exact numbered.eraseCall call
  · refine { numbered with calls := fun other inside => ?_ }
    rcases List.mem_or_eq_of_mem_set inside with before | rfl
    · exact numbered.calls other before
    · exact numbered.calls (.drawn id draw) (List.mem_of_getElem? found)

theorem numbered_alloc {call : Nat} {next : StreamIds} (numbered : s.Numbered)
    (allocates : s.alloc call = some next) : next.Numbered := by
  obtain ⟨id, draw, path, found, ⟨-, rfl⟩ | ⟨-, -, counter, draws, calls, born, streams⟩⟩ :=
    alloc_cases allocates
  · exact { numbered.eraseCall call with }
  · refine ⟨by rw [counter, draws, numbered.counter], fun other inside => ?_, fun other held => ?_⟩
    · rw [calls] at inside
      rcases List.mem_or_eq_of_mem_set inside with before | rfl
      · exact numbered.calls other before
      · trivial
    · rw [born]
      by_cases same : other = id
      · rw [same]
        exact ⟨draw, OrdMap.get?_insert_self _ _ _,
          numbered.calls (.picked id draw path) (List.mem_of_getElem? found)⟩
      · rw [OrdMap.get?_insert_of_ne _ _ same]
        refine numbered.held other fun absent => held ?_
        rw [StreamTable.getStream, streams, OrdMap.get?_insert_of_ne _ _ same]
        exact absent

theorem numbered_step {action : StreamIdAction} {next : StreamIds} (numbered : s.Numbered)
    (taken : s.step action = some next) : next.Numbered := by
  cases action with
  | draw =>
      cases taken
      exact numbered_draw numbered
  | pick call path => exact numbered_pick numbered taken
  | alloc call => exact numbered_alloc numbered taken
  | finish call target path =>
      obtain ⟨id, rfl⟩ := finish_cases taken
      exact { numbered.eraseCall call with held := numbered.held }
  | onTable action =>
      obtain ⟨table, opens, stepped, rfl⟩ := onTable_cases taken
      refine { numbered with held := fun id held => numbered.held id fun absent => held ?_ }
      exact StreamTable.none_step opens stepped absent

theorem numbered_of_reachable (reachable : machine.Reachable s) : s.Numbered := by
  refine reachable.invariant Numbered ?_ fun _ _ _ => numbered_step
  rintro _ ⟨initialWindow, chan, rfl⟩
  exact numbered_new initialWindow chan

/-! ## When an id is free -/

/-- An id is in the table exactly when a stream there was drawn a multiple of 2^32 draws apart. -/
theorem Numbered.none_iff (numbered : s.Numbered) (draw : Nat) :
    s.table.getStream (idOf draw) = none ↔ ∀ other birth, s.born.get? other = some birth →
      s.table.getStream other ≠ none → birth % idCount ≠ draw % idCount := by
  constructor
  · intro absent other birth found held same
    obtain ⟨known, foundKnown, rfl⟩ := numbered.held other held
    obtain rfl := Option.some.inj (foundKnown.symm.trans found)
    rw [idOf_eq_iff.mpr same] at held
    exact held absent
  · intro apart
    by_contra held
    obtain ⟨birth, found, same⟩ := numbered.held _ held
    exact apart _ birth found held (idOf_eq_iff.mp same).symm

theorem Numbered.allocates {action : StreamIdAction} {id draw : Nat} (numbered : s.Numbered)
    (allocates : s.Allocates action id draw) : id = idOf draw := by
  obtain ⟨call, path, rfl, found⟩ := allocates
  exact numbered.calls (.picked id draw path) (List.mem_of_getElem? found)

theorem panicked_step {action : StreamIdAction} {next : StreamIds}
    (taken : s.step action = some next) :
    next.panicked = s.panicked ∨
      ∃ id draw, s.Allocates action id draw ∧ s.table.getStream id ≠ none := by
  cases action with
  | draw =>
      cases taken
      exact .inl rfl
  | pick call path =>
      rcases pick_cases taken with rfl | ⟨_, _, _, -, rfl⟩
      · exact .inl rfl
      · exact .inl rfl
  | alloc call =>
      obtain ⟨id, draw, path, found, ⟨held, -⟩ | ⟨-, same, -⟩⟩ := alloc_cases taken
      · exact .inr ⟨id, draw, ⟨call, path, rfl, found⟩, held⟩
      · exact .inl same
  | finish call target path =>
      obtain ⟨id, rfl⟩ := finish_cases taken
      exact .inl rfl
  | onTable action =>
      obtain ⟨table, -, -, rfl⟩ := onTable_cases taken
      exact .inl rfl

theorem survives_iff_apart {action : StreamIdAction} {next : StreamIds} (numbered : s.Numbered)
    (taken : s.step action = some next) : s.Survives action next ↔ s.Apart action := by
  have free : s.Survives action next ↔
      ∀ id draw, s.Allocates action id draw → s.table.getStream id = none := by
    refine ⟨fun survives => survives.2, fun free => ⟨?_, free⟩⟩
    rcases panicked_step taken with same | ⟨id, draw, allocates, held⟩
    · exact same
    · exact absurd (free id draw allocates) held
  rw [free]
  refine forall_congr' fun id => forall_congr' fun draw => imp_congr_right fun allocates => ?_
  rw [numbered.allocates allocates]
  exact numbered.none_iff draw

/-- In a run of any length `open_stream` survives exactly while no call puts its stream beside one
that was drawn a multiple of 2^32 draws apart. -/
theorem opens_survive_iff (initialWindow chan : Nat) (schedule : List StreamIdAction) :
    machine.Throughout Survives (new initialWindow chan) schedule ↔
      machine.Throughout (fun s action _ => s.Apart action) (new initialWindow chan) schedule := by
  have begins : machine.Reachable (new initialWindow chan) := .start ⟨initialWindow, chan, rfl⟩
  refine begins.throughout_iff (fun s action next reachable taken => ?_) schedule
  exact survives_iff_apart (numbered_of_reachable reachable) taken

/-! ## Before the counter comes round -/

def drawOf : OpenCall → Option Nat
  | .drawn _ draw => some draw
  | .picked _ draw _ => some draw
  | .allocated _ _ => none

def waiting (s : StreamIds) : List Nat := s.calls.filterMap drawOf

/-- No draw is used twice. -/
structure Distinct (s : StreamIds) : Prop where
  waiting : s.waiting.Nodup
  past : ∀ draw ∈ s.waiting, draw < s.draws
  born : ∀ other birth, s.born.get? other = some birth → birth < s.draws ∧ birth ∉ s.waiting

theorem distinct_new (initialWindow chan : Nat) : (new initialWindow chan).Distinct :=
  ⟨List.nodup_nil, fun _ absent => absurd absent List.not_mem_nil,
    fun _ _ absent => by cases absent⟩

theorem Distinct.mono {next : StreamIds} (distinct : s.Distinct) (waiting : next.waiting.Nodup)
    (subset : next.waiting ⊆ s.waiting) (draws : next.draws = s.draws)
    (born : next.born = s.born) : next.Distinct where
  waiting := waiting
  past := fun draw inside => draws ▸ distinct.past draw (subset inside)
  born := fun other birth found => by
    obtain ⟨past, used⟩ := distinct.born other birth (born ▸ found)
    exact ⟨draws ▸ past, fun inside => used (subset inside)⟩

theorem Distinct.eraseCall {next : StreamIds} (distinct : s.Distinct) {call : Nat}
    (calls : next.calls = s.calls.eraseIdx call) (draws : next.draws = s.draws)
    (born : next.born = s.born) : next.Distinct := by
  have fewer : next.waiting.Sublist s.waiting := by
    rw [StreamIds.waiting, calls]
    exact (List.eraseIdx_sublist s.calls call).filterMap drawOf
  exact distinct.mono (distinct.waiting.sublist fewer) fewer.subset draws born

theorem filterMap_set_perm {calls : List OpenCall} {call : Nat} (present : call < calls.length)
    (phase : OpenCall) : ((calls.set call phase).filterMap drawOf).Perm
      ((drawOf phase).toList ++ (calls.eraseIdx call).filterMap drawOf) := by
  have moved := (List.set_perm_cons_eraseIdx present phase).filterMap drawOf
  rw [List.filterMap_cons] at moved
  cases waits : drawOf phase with
  | none =>
      rw [waits] at moved
      exact moved
  | some draw =>
      rw [waits] at moved
      exact moved

theorem waiting_perm {call : Nat} {phase : OpenCall} (found : s.calls[call]? = some phase) :
    s.waiting.Perm ((drawOf phase).toList ++ (s.calls.eraseIdx call).filterMap drawOf) := by
  obtain ⟨present, rfl⟩ := List.getElem?_eq_some_iff.mp found
  have same := filterMap_set_perm present s.calls[call]
  rwa [List.set_getElem_self] at same

theorem distinct_draw (distinct : s.Distinct) : s.draw.Distinct := by
  have grown : s.draw.waiting = s.waiting ++ [s.draws] := List.filterMap_append
  refine ⟨?_, fun draw inside => ?_, fun other birth found => ?_⟩
  · rw [grown]
    refine List.nodup_append.mpr ⟨distinct.waiting, List.nodup_singleton _, ?_⟩
    intro draw inside last new
    obtain rfl := List.mem_singleton.mp new
    exact Nat.ne_of_lt (distinct.past draw inside)
  · rw [grown] at inside
    rcases List.mem_append.mp inside with before | new
    · exact Nat.lt_succ_of_lt (distinct.past draw before)
    · obtain rfl := List.mem_singleton.mp new
      exact Nat.lt_succ_self _
  · obtain ⟨past, used⟩ := distinct.born other birth found
    refine ⟨Nat.lt_succ_of_lt past, fun inside => ?_⟩
    rw [grown] at inside
    rcases List.mem_append.mp inside with before | new
    · exact used before
    · obtain rfl := List.mem_singleton.mp new
      exact Nat.lt_irrefl _ past

theorem distinct_pick {call : Nat} {path : Option Nat} {next : StreamIds} (distinct : s.Distinct)
    (picks : s.pick call path = some next) : next.Distinct := by
  rcases pick_cases picks with rfl | ⟨id, draw, chosen, found, rfl⟩
  · exact distinct.eraseCall rfl rfl rfl
  · obtain ⟨present, -⟩ := List.getElem?_eq_some_iff.mp found
    have same :=
      (filterMap_set_perm present (.picked id draw chosen)).trans (waiting_perm found).symm
    exact distinct.mono (same.nodup_iff.mpr distinct.waiting) same.subset rfl rfl

theorem distinct_alloc {call : Nat} {next : StreamIds} (distinct : s.Distinct)
    (allocates : s.alloc call = some next) : next.Distinct := by
  obtain ⟨id, draw, path, found, ⟨-, rfl⟩ | ⟨-, -, -, draws, calls, born, -⟩⟩ :=
    alloc_cases allocates
  · exact distinct.eraseCall rfl rfl rfl
  · obtain ⟨present, -⟩ := List.getElem?_eq_some_iff.mp found
    have rest : next.waiting.Perm ((s.calls.eraseIdx call).filterMap drawOf) := by
      rw [StreamIds.waiting, calls]
      exact filterMap_set_perm present (.allocated id path)
    have whole := waiting_perm found
    have apart := List.nodup_cons.mp (whole.nodup_iff.mp distinct.waiting)
    have fewer : next.waiting ⊆ s.waiting := fun other inside =>
      whole.symm.subset (List.mem_cons_of_mem _ (rest.subset inside))
    refine ⟨rest.nodup_iff.mpr apart.2, fun other inside => draws ▸ distinct.past _ (fewer inside),
      fun other birth stored => ?_⟩
    rw [born] at stored
    rw [draws]
    rcases OrdMap.get?_insert_cases stored with ⟨-, rfl⟩ | before
    · exact ⟨distinct.past birth (whole.symm.subset (List.mem_cons_self ..)),
        fun inside => apart.1 (rest.subset inside)⟩
    · obtain ⟨past, used⟩ := distinct.born other birth before
      exact ⟨past, fun inside => used (fewer inside)⟩

theorem distinct_step {action : StreamIdAction} {next : StreamIds} (distinct : s.Distinct)
    (taken : s.step action = some next) : next.Distinct := by
  cases action with
  | draw =>
      cases taken
      exact distinct_draw distinct
  | pick call path => exact distinct_pick distinct taken
  | alloc call => exact distinct_alloc distinct taken
  | finish call target path =>
      obtain ⟨id, rfl⟩ := finish_cases taken
      exact distinct.eraseCall rfl rfl rfl
  | onTable action =>
      obtain ⟨table, -, -, rfl⟩ := onTable_cases taken
      exact { distinct with }

/-- Up to 2^32 draws no id comes twice, so nothing panics. -/
theorem survives_of_few_draws {action : StreamIdAction} {next : StreamIds}
    (reachable : machine.Reachable s) (few : s.draws ≤ idCount)
    (taken : s.step action = some next) : s.Survives action next := by
  have distinct : s.Distinct := by
    refine reachable.invariant Distinct ?_ fun _ _ _ => distinct_step
    rintro _ ⟨initialWindow, chan, rfl⟩
    exact distinct_new initialWindow chan
  refine (survives_iff_apart (numbered_of_reachable reachable) taken).mpr ?_
  rintro id draw ⟨call, path, rfl, found⟩ other birth stored - same
  have waits : draw ∈ s.waiting := (waiting_perm found).symm.subset (List.mem_cons_self ..)
  obtain ⟨past, used⟩ := distinct.born other birth stored
  rw [Nat.mod_eq_of_lt (past.trans_le few),
    Nat.mod_eq_of_lt ((distinct.past draw waits).trans_le few)] at same
  exact used (same ▸ waits)

/-! ## The counter comes round -/

def openOne (target : Target) : List StreamIdAction :=
  [.draw, .pick 0 (some 1), .alloc 0, .finish 0 target 1]

/-- Stream 1 stays while as many others are opened and reset. -/
def openAndReset (target : Target) : Nat → List StreamIdAction
  | 0 => openOne target
  | count + 1 => openAndReset target count ++ openOne target ++
      [.onTable (.resetStream (idOf (count + 1)) .peerReset)]

theorem run_openOne (target : Target) (alone : s.calls = [])
    (free : s.table.getStream s.nextStreamId = none) :
    ∃ next st, machine.run s (openOne target) = some next ∧ next.calls = [] ∧
      next.panicked = s.panicked ∧ next.nextStreamId = (s.nextStreamId + 1) % idCount ∧
      ∀ id, next.table.getStream id =
        if id = s.nextStreamId then some st else s.table.getStream id := by
  obtain ⟨allocated, st, allocates, streams⟩ :
      ∃ allocated st, s.table.tryAllocLocalStream s.nextStreamId = some allocated ∧
        allocated.streams = s.table.streams.insert s.nextStreamId st := by
    simp only [StreamTable.tryAllocLocalStream, free, Option.isSome_none, Bool.false_eq_true,
      if_false]
    exact ⟨_, _, rfl, rfl⟩
  refine ⟨{ s with
    nextStreamId := (s.nextStreamId + 1) % idCount
    table := allocated.noteOpened.rememberOpen s.nextStreamId 1 target
    calls := []
    draws := s.draws + 1
    born := s.born.insert s.nextStreamId s.draws }, st, ?_, rfl, rfl, rfl, fun id => ?_⟩
  · simp [openOne, Machine.run, machine, step, draw, pick, alloc, finish, alone, allocates]
  · show allocated.streams.get? id = _
    rw [streams, OrdMap.get?_insert]
    rfl

/-- Stream 1 is in the table, nothing else is, and the counter has gone on this far. -/
structure Kept (s : StreamIds) (count : Nat) : Prop where
  counter : s.nextStreamId = idOf (count + 1)
  calls : s.calls = []
  panicked : s.panicked = []
  held : s.table.getStream 1 ≠ none
  free : ∀ id, id ≠ 1 → s.table.getStream id = none

theorem kept_openOne (initialWindow chan : Nat) (target : Target) :
    ∃ s, machine.run (new initialWindow chan) (openOne target) = some s ∧ s.Kept 0 := by
  obtain ⟨s, st, replayed, calls, panicked, counter, streams⟩ :=
    run_openOne (s := new initialWindow chan) target rfl rfl
  change ∀ id, s.table.getStream id = if id = 1 then some st else none at streams
  refine ⟨s, replayed, counter, calls, panicked, ?_, fun id other => ?_⟩
  · rw [streams, if_pos rfl]
    exact Option.some_ne_none st
  · rw [streams, if_neg other]

theorem idOf_ne_one {draw : Nat} (positive : 0 < draw) (small : draw < idCount) :
    idOf draw ≠ 1 := by
  simp only [idOf, idCount, u32Max] at *
  omega

theorem kept_cycle {count : Nat} (target : Target) (kept : s.Kept count)
    (more : count + 1 < idCount) :
    ∃ next, machine.run s (openOne target ++
      [.onTable (.resetStream (idOf (count + 1)) .peerReset)]) = some next ∧
      next.Kept (count + 1) := by
  have fresh : idOf (count + 1) ≠ 1 := idOf_ne_one (Nat.succ_pos count) more
  obtain ⟨opened, st, replayed, calls, panicked, counter, streams⟩ :=
    run_openOne target kept.calls (kept.counter ▸ kept.free _ fresh)
  rw [kept.counter] at counter streams
  refine ⟨{ opened with
    table := opened.table.finishStream (idOf (count + 1)) .peerReset }, ?_, ?_⟩
  · rw [Machine.run_append, replayed]
    rfl
  · refine ⟨counter.trans (idOf_succ _), calls, panicked.trans kept.panicked, ?_,
      fun id other => ?_⟩
    · rw [StreamTable.getStream_finishStream, if_neg fresh.symm, streams, if_neg fresh.symm]
      exact kept.held
    · rw [StreamTable.getStream_finishStream, streams]
      split
      · rfl
      · exact kept.free id other

theorem kept_openAndReset (initialWindow chan : Nat) (target : Target) {count : Nat}
    (atMost : count < idCount) :
    ∃ s, machine.run (new initialWindow chan) (openAndReset target count) = some s ∧
      s.Kept count := by
  induction count with
  | zero => exact kept_openOne initialWindow chan target
  | succ count inductionHypothesis =>
      obtain ⟨s, replayed, kept⟩ := inductionHypothesis (Nat.lt_of_succ_lt atMost)
      obtain ⟨next, cycled, keptNext⟩ := kept_cycle target kept atMost
      refine ⟨next, ?_, keptNext⟩
      rw [openAndReset, List.append_assoc, Machine.run_append, replayed]
      exact cycled

/-- Stream 1 stays, 2^32 - 1 streams are opened and reset, and the next call draws 1 again. -/
theorem opens_collide : ∃ s next,
    machine.run (new 65536 64)
      (openAndReset ⟨"origin", 443⟩ u32Max ++ [.draw, .pick 0 (some 1)]) = some s ∧
    s.table.getStream 1 ≠ none ∧ s.panicked = [] ∧
    machine.step s (.alloc 0) = some next ∧ next.panicked = [1] ∧
    ¬ s.Survives (.alloc 0) next := by
  obtain ⟨s, replayed, counter, calls, panicked, held, -⟩ :=
    kept_openAndReset 65536 64 ⟨"origin", 443⟩ (Nat.lt_succ_self u32Max)
  have round : s.nextStreamId = 1 := counter
  have drawn : machine.run s [.draw, .pick 0 (some 1)] = some { s with
      nextStreamId := 2, draws := s.draws + 1, calls := [.picked 1 s.draws 1] } := by
    simp [Machine.run, machine, step, draw, pick, calls, round, idCount, u32Max]
  have taken : s.table.tryAllocLocalStream 1 = none := by
    obtain ⟨st, found⟩ := Option.ne_none_iff_exists'.mp held
    simp [StreamTable.tryAllocLocalStream, found]
  refine ⟨{ s with nextStreamId := 2, draws := s.draws + 1, calls := [.picked 1 s.draws 1] },
    { s with nextStreamId := 2, draws := s.draws + 1, calls := [], panicked := [1] },
    ?_, held, panicked, ?_, rfl, fun survives => ?_⟩
  · rw [Machine.run_append, replayed]
    exact drawn
  · simp [machine, step, alloc, taken, panicked]
  · have silent : [1] = s.panicked := survives.1
    rw [panicked] at silent
    cases silent

end StreamIds

end NyaLink
