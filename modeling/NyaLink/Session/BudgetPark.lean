import NyaLink.Library.Machine
import NyaLink.Library.Notify
import NyaLink.Library.OrdMap

/-!
# Parking on the send budget

`send_data` creates its future of `budget_wait` before it reads the paths, and parks when it finds
none with room.  A path gains room inside calls that free bytes and then notify: `on_ack`,
`release_unacked`, `xfer_inflight`, and `start_path_fd` with a new path.  Each load and each store
is a step; the two loads of `room_bytes` may be far apart.
-/

namespace NyaLink

/-- `budget_bytes` and the bytes in flight. -/
structure PathRoom where
  budget : Nat
  inflight : Nat
  deriving DecidableEq

def PathRoom.roomBytes (p : PathRoom) : Nat := p.budget - p.inflight

/-- A load of one of them from a path. -/
inductive RoomLoad where
  | budget (id value : Nat)
  | inflight (id value : Nat)
  deriving DecidableEq

inductive ParkPhase where
  | away
  | looking (loads : List RoomLoad)
  | parked (loads : List RoomLoad)
  deriving DecidableEq

def ParkPhase.loads : ParkPhase → Option (List RoomLoad)
  | .away => none
  | .looking loads => some loads
  | .parked loads => some loads

/-- `calls` tells of each call under way whether it has freed anything. -/
structure BudgetPark where
  paths : OrdMap Nat PathRoom
  calls : List Bool
  notifier : Notifier Nat
  senders : List ParkPhase

inductive ParkAction where
  | beginCall
  /-- `sub_inflight` on a path of the table. -/
  | free (call id bytes : Nat)
  | sample (call id budget : Nat)
  | addPath (call id budget : Nat)
  /-- `notify_waiters`, if anything was freed. -/
  | finishCall (call : Nat)
  | charge (id bytes : Nat)
  | removePath (id : Nat)
  | enter
  | arm (sender : Nat)
  | loadBudget (sender id : Nat)
  | loadInflight (sender id : Nat)
  | pick (sender : Nat)
  | park (sender : Nat)
  | wake (sender : Nat)
  /-- Another branch of the `select!` is first. -/
  | leave (sender : Nat)
  deriving DecidableEq

def ParkAction.sender : ParkAction → Nat
  | .arm sender | .loadBudget sender _ | .loadInflight sender _ | .pick sender | .park sender
  | .wake sender | .leave sender => sender
  | _ => 0

namespace BudgetPark

def goTo (s : BudgetPark) (sender : Nat) (phase : ParkPhase) : BudgetPark :=
  { s with senders := s.senders.set sender phase }

/-- One step of a sender, from the phase it is in. -/
def advance (s : BudgetPark) (sender : Nat) : ParkPhase → ParkAction → Option BudgetPark
  | .away, .arm _ => some { s.goTo sender (.looking []) with notifier := s.notifier.wait sender }
  | .looking loads, .loadBudget _ id =>
      (s.paths.get? id).map fun p => s.goTo sender (.looking (loads ++ [.budget id p.budget]))
  | .looking loads, .loadInflight _ id =>
      (s.paths.get? id).map fun p => s.goTo sender (.looking (loads ++ [.inflight id p.inflight]))
  | .looking _, .pick _ => some { s.goTo sender .away with notifier := s.notifier.drop sender }
  | .looking loads, .park _ => some (s.goTo sender (.parked loads))
  | .parked _, .wake _ =>
      if s.notifier.isWoken sender then
        some { s.goTo sender .away with notifier := s.notifier.resume sender }
      else none
  | .parked _, .leave _ => some { s.goTo sender .away with notifier := s.notifier.drop sender }
  | _, _ => none

def step (s : BudgetPark) : ParkAction → Option BudgetPark
  | .beginCall => some { s with calls := s.calls ++ [false] }
  | .free call id bytes =>
      if (s.calls[call]?).isSome && (s.paths.get? id).isSome then
        some { s with
          paths := s.paths.modify id fun p => { p with inflight := p.inflight - bytes }
          calls := s.calls.set call true }
      else none
  | .sample call id budget =>
      if s.calls[call]? = some true then
        some { s with paths := s.paths.modify id fun p => { p with budget := budget } }
      else none
  | .addPath call id budget =>
      if (s.calls[call]?).isSome && (s.paths.get? id).isNone then
        some { s with paths := s.paths.insert id ⟨budget, 0⟩, calls := s.calls.set call true }
      else none
  | .finishCall call =>
      (s.calls[call]?).map fun freed =>
        { s with
          calls := s.calls.eraseIdx call
          notifier := if freed then s.notifier.notifyWaiters else s.notifier }
  | .charge id bytes =>
      some { s with paths := s.paths.modify id fun p => { p with inflight := p.inflight + bytes } }
  | .removePath id => some { s with paths := s.paths.erase id }
  | .enter => some { s with senders := s.senders ++ [.away] }
  | action => (s.senders[action.sender]?).bind fun phase => s.advance action.sender phase action

def Initial (s : BudgetPark) : Prop := s.calls = [] ∧ s.notifier = .new ∧ s.senders = []

def machine : Machine BudgetPark ParkAction := ⟨Initial, step⟩

end BudgetPark

/-! ## What was loaded stands -/

def RoomLoad.Stands (paths : OrdMap Nat PathRoom) : RoomLoad → Prop
  | .budget id value => ∀ p, paths.get? id = some p → p.budget ≤ value
  | .inflight id value => ∀ p, paths.get? id = some p → value ≤ p.inflight

namespace BudgetPark

variable {s t : BudgetPark}

/-- Some call has freed something, and its notification is still to come. -/
def owesWake (s : BudgetPark) : Prop := true ∈ s.calls

/-- A sender whose future has not been woken waits with loads that stand, unless a wakeup is
owed. -/
def Watchful (s : BudgetPark) : Prop :=
  ∀ (sender : Nat) (phase : ParkPhase) (loads : List RoomLoad),
    s.senders[sender]? = some phase → phase.loads = some loads →
      s.notifier.Registered sender ∧
        (s.notifier.isWoken sender = false →
          s.owesWake ∨ ∀ load ∈ loads, load.Stands s.paths)

theorem Watchful.same (watchful : s.Watchful) (senders : t.senders = s.senders)
    (notifier : t.notifier = s.notifier) (owes : s.owesWake → t.owesWake)
    (stands : t.owesWake ∨ ∀ load : RoomLoad, load.Stands s.paths → load.Stands t.paths) :
    t.Watchful := by
  intro sender phase loads found looks
  rw [senders] at found
  rw [notifier]
  obtain ⟨registered, sees⟩ := watchful sender phase loads found looks
  refine ⟨registered, fun unwoken => ?_⟩
  rcases stands with owed | kept
  · exact .inl owed
  · exact (sees unwoken).imp owes fun all load present => kept load (all load present)

theorem owesWake_set {call : Nat} (present : (s.calls[call]?).isSome = true)
    (paths : OrdMap Nat PathRoom) :
    owesWake { s with paths := paths, calls := s.calls.set call true } := by
  obtain ⟨freed, found⟩ := Option.isSome_iff_exists.mp present
  exact List.mem_set (List.getElem?_eq_some_iff.mp found).1 true

theorem stands_charge {load : RoomLoad} (stands : load.Stands s.paths) (id bytes : Nat) :
    load.Stands (s.paths.modify id fun p => { p with inflight := p.inflight + bytes }) := by
  cases load with
  | budget other value =>
      intro p found
      rcases OrdMap.get?_modify_cases found with ⟨rfl, old, before, rfl⟩ | ⟨-, before⟩
      · exact stands old before
      · exact stands p before
  | inflight other value =>
      intro p found
      rcases OrdMap.get?_modify_cases found with ⟨rfl, old, before, rfl⟩ | ⟨-, before⟩
      · exact (stands old before).trans (Nat.le_add_right _ _)
      · exact stands p before

theorem stands_erase {load : RoomLoad} (stands : load.Stands s.paths) (id : Nat) :
    load.Stands (s.paths.erase id) := by
  cases load with
  | budget other value => exact fun p found => stands p (OrdMap.get?_erase_eq_some_iff.mp found).2
  | inflight other value =>
      exact fun p found => stands p (OrdMap.get?_erase_eq_some_iff.mp found).2

theorem Watchful.finishCall (watchful : s.Watchful) {call : Nat} {freed : Bool}
    (found : s.calls[call]? = some freed) :
    Watchful { s with
      calls := s.calls.eraseIdx call
      notifier := if freed then s.notifier.notifyWaiters else s.notifier } := by
  intro sender phase loads present looks
  obtain ⟨registered, sees⟩ := watchful sender phase loads present looks
  cases freed with
  | true =>
      have woken := Notifier.isWoken_notifyWaiters registered
      refine ⟨.inr woken, fun unwoken => ?_⟩
      have both : true = false := woken.symm.trans unwoken
      cases both
  | false =>
      refine ⟨registered, fun unwoken => (sees unwoken).imp_left fun owed => ?_⟩
      obtain ⟨other, at_⟩ := List.getElem?_of_mem owed
      refine List.mem_eraseIdx_iff_getElem?.mpr ⟨other, ?_, at_⟩
      rintro rfl
      rw [found] at at_
      cases at_

theorem Watchful.goTo (watchful : s.Watchful) {mover : Nat} {after : ParkPhase}
    (notifier : Notifier Nat)
    (others : ∀ other, other ≠ mover → s.notifier.Registered other →
      notifier.Registered other ∧
        (notifier.isWoken other = false → s.notifier.isWoken other = false))
    (own : ∀ loads, after.loads = some loads → notifier.Registered mover ∧
      (notifier.isWoken mover = false → s.owesWake ∨ ∀ load ∈ loads, load.Stands s.paths)) :
    Watchful { s.goTo mover after with notifier := notifier } := by
  intro sender phase loads present looks
  by_cases same : sender = mover
  · subst same
    have moved : (s.senders.set sender after)[sender]? = some phase := present
    rw [List.getElem?_set] at moved
    split at moved
    · split at moved
      · obtain rfl := Option.some.inj moved
        exact own loads looks
      · cases moved
    · rename_i impossible
      exact absurd rfl impossible
  · have stays : s.senders[sender]? = some phase := by
      have moved : (s.senders.set mover after)[sender]? = some phase := present
      rwa [List.getElem?_set_ne (Ne.symm same)] at moved
    obtain ⟨registered, sees⟩ := watchful sender phase loads stays looks
    obtain ⟨still, unwoken⟩ := others sender same registered
    exact ⟨still, fun now => sees (unwoken now)⟩

theorem Watchful.drop (watchful : s.Watchful) (mover : Nat) :
    Watchful { s.goTo mover .away with notifier := s.notifier.drop mover } := by
  refine watchful.goTo _ (fun other different registered => ?_) fun loads looks => ?_
  · refine ⟨registered.drop different, fun unwoken => ?_⟩
    rw [← Bool.not_eq_true] at unwoken ⊢
    exact fun woken => unwoken (Notifier.isWoken_drop woken different)
  · cases looks

theorem Watchful.load (watchful : s.Watchful) {mover : Nat} {loads : List RoomLoad}
    (found : s.senders[mover]? = some (.looking loads)) {load : RoomLoad}
    (stands : load.Stands s.paths) : (s.goTo mover (.looking (loads ++ [load]))).Watchful := by
  obtain ⟨registered, sees⟩ := watchful mover _ loads found rfl
  refine watchful.goTo s.notifier (fun other _ registered => ⟨registered, id⟩) fun _ looks => ?_
  cases looks
  refine ⟨registered, fun unwoken => (sees unwoken).imp_right fun all other present => ?_⟩
  rcases List.mem_append.mp present with earlier | new
  · exact all other earlier
  · rwa [List.mem_singleton.mp new]

theorem Watchful.advance (watchful : s.Watchful) {sender : Nat} {phase : ParkPhase}
    {action : ParkAction} (found : s.senders[sender]? = some phase)
    (taken : s.advance sender phase action = some t) : t.Watchful := by
  unfold BudgetPark.advance at taken
  split at taken
  · cases taken
    refine watchful.goTo _ (fun other different registered => ⟨registered.wait sender, id⟩) ?_
    intro _ looks
    cases looks
    refine ⟨.inl (List.mem_append_right _ List.mem_cons_self), fun _ => .inr ?_⟩
    intro load present
    cases present
  · obtain ⟨p, there, rfl⟩ := Option.map_eq_some_iff.mp taken
    refine watchful.load found fun q again => ?_
    rw [Option.some.inj (there.symm.trans again)]
  · obtain ⟨p, there, rfl⟩ := Option.map_eq_some_iff.mp taken
    refine watchful.load found fun q again => ?_
    rw [Option.some.inj (there.symm.trans again)]
  · cases taken
    exact watchful.drop sender
  · cases taken
    refine watchful.goTo s.notifier (fun other _ registered => ⟨registered, id⟩) fun _ looks => ?_
    cases looks
    exact watchful sender _ _ found rfl
  · split at taken
    · cases taken
      refine watchful.goTo _ (fun other different registered => ?_) fun loads looks => ?_
      · refine ⟨registered.resume different, fun unwoken => ?_⟩
        rw [← Bool.not_eq_true] at unwoken ⊢
        exact fun woken => unwoken (Notifier.isWoken_resume woken different)
      · cases looks
    · cases taken
  · cases taken
    exact watchful.drop sender
  · cases taken

theorem Watchful.step (watchful : s.Watchful) {action : ParkAction}
    (taken : s.step action = some t) : t.Watchful := by
  unfold BudgetPark.step at taken
  split at taken
  · cases taken
    exact watchful.same rfl rfl (List.mem_append_left _) (.inr fun _ => id)
  · split at taken
    · rename_i present
      cases taken
      have owes := owesWake_set (Bool.and_eq_true_iff.mp present).1
      exact watchful.same rfl rfl (fun _ => owes _) (.inl (owes _))
    · cases taken
  · split at taken
    · rename_i freed
      cases taken
      exact watchful.same rfl rfl id (.inl (List.mem_of_getElem? freed))
    · cases taken
  · split at taken
    · rename_i present
      cases taken
      have owes := owesWake_set (Bool.and_eq_true_iff.mp present).1
      exact watchful.same rfl rfl (fun _ => owes _) (.inl (owes _))
    · cases taken
  · obtain ⟨freed, found, rfl⟩ := Option.map_eq_some_iff.mp taken
    exact watchful.finishCall found
  · cases taken
    exact watchful.same rfl rfl id (.inr fun _ stands => stands_charge stands _ _)
  · cases taken
    exact watchful.same rfl rfl id (.inr fun _ stands => stands_erase stands _)
  · cases taken
    intro sender phase loads found looks
    rcases Nat.lt_or_ge sender s.senders.length with within | beyond
    · exact watchful sender phase loads (by rwa [List.getElem?_append_left within] at found) looks
    · rw [List.getElem?_append_right beyond] at found
      obtain rfl := List.mem_singleton.mp (List.mem_of_getElem? found)
      cases looks
  · obtain ⟨phase, found, moved⟩ := Option.bind_eq_some_iff.mp taken
    exact watchful.advance found moved

theorem watchful_of_reachable (reachable : machine.Reachable s) : s.Watchful := by
  refine reachable.invariant Watchful ?_ fun _ _ _ watchful taken => watchful.step taken
  rintro s ⟨-, -, senders⟩ sender phase loads found
  rw [senders] at found
  cases found

/-- However the loads of a sender that parks on its budget are spread out between the calls of other
tasks: unless it has been woken or a call that freed something is yet to notify, no path it
looked at has more room now than the two loads it made of that path showed. -/
theorem parks_without_room (reachable : machine.Reachable s) {sender : Nat}
    {loads : List RoomLoad} (parked : s.senders[sender]? = some (.parked loads))
    (unwoken : s.notifier.isWoken sender = false) (settled : ∀ freed ∈ s.calls, freed = false)
    {id budget inflight : Nat} {p : PathRoom} (found : s.paths.get? id = some p)
    (loadedBudget : .budget id budget ∈ loads) (loadedInflight : .inflight id inflight ∈ loads) :
    p.roomBytes ≤ budget - inflight := by
  obtain ⟨-, sees⟩ := watchful_of_reachable reachable sender _ loads parked rfl
  rcases sees unwoken with owed | stands
  · cases settled true owed
  · have noMore := stands _ loadedBudget p found
    have noLess := stands _ loadedInflight p found
    unfold PathRoom.roomBytes
    omega

def oneFull : BudgetPark := ⟨OrdMap.empty.insert 1 ⟨100, 100⟩, [], .new, []⟩

/-- The path is freed of its bytes and charged again while the sender looks; another sender looks
after that, and parks. -/
def freedBetween : List ParkAction :=
  [.enter, .arm 0, .loadBudget 0 1, .beginCall, .free 0 1 60, .loadInflight 0 1, .finishCall 0,
    .charge 1 60, .park 0, .enter, .arm 1, .loadBudget 1 1, .loadInflight 1 1, .park 1]

theorem parks_without_room_freedBetween :
    ∃ s, machine.run oneFull freedBetween = some s ∧ s.notifier.woken = [(0, false)] ∧
      ∀ p, s.paths.get? 1 = some p → p.roomBytes ≤ 100 - 100 := by
  have history : (machine.run oneFull freedBetween).map
      (fun s => (s.senders, s.notifier, s.calls)) =
      some ([.parked [.budget 1 100, .inflight 1 40], .parked [.budget 1 100, .inflight 1 100]],
        ⟨false, [1], [(0, false)]⟩, []) := by decide +kernel
  obtain ⟨s, ran, made⟩ := Option.map_eq_some_iff.mp history
  simp only [Prod.mk.injEq] at made
  obtain ⟨senders, notifier, calls⟩ := made
  have reachable : machine.Reachable s := Machine.Reachable.run (.start ⟨rfl, rfl, rfl⟩) ran
  have parked : s.senders[1]? = some (.parked [.budget 1 100, .inflight 1 100]) := by
    rw [senders]
    rfl
  have unwoken : s.notifier.isWoken 1 = false := by
    rw [notifier]
    rfl
  have settled : ∀ freed ∈ s.calls, freed = false := by
    rw [calls]
    intro freed impossible
    cases impossible
  exact ⟨s, ran, by rw [notifier], fun p found =>
    parks_without_room reachable parked unwoken settled found (by simp) (by simp)⟩

end BudgetPark

end NyaLink
