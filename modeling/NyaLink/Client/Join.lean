import NyaLink.Library.Machine
import NyaLink.Proto.FixedBytes

/-!
# One session for many links

Every link task of the client joins the session whose id is recorded, or creates
it.  The latch `creating` names one creator; it is given back when the creation
fails, or when the server no longer knows the recorded session.  Reads and
writes of the shared state are steps of their own; a handshake ends in any way
at any time.
-/

namespace NyaLink

/-- Where a link task is in `connect_one`. -/
inductive LinkPhase where
  | away
  | reading
  | contending
  | elected
  | waiting
  | checking
  | creating
  | joining (id : SessionId)
  /-- The server does not know the session; about to call `clear_if`. -/
  | rejected (id : SessionId)
  deriving DecidableEq

def LinkPhase.isCreator : LinkPhase → Bool
  | .elected => true
  | .creating => true
  | _ => false

structure SessionJoin where
  id : Option SessionId
  creating : Bool
  tasks : List LinkPhase
  deriving DecidableEq

inductive JoinAction where
  | dialed (task : Nat)
  | readId (task : Nat)
  | takeLatch (task : Nat)
  | readAgain (task : Nat)
  | poll (task : Nat)
  | checkLatch (task : Nat)
  | createOk (task : Nat) (id : SessionId)
  | createFailed (task : Nat)
  | joinOk (task : Nat)
  | joinFailed (task : Nat)
  | joinUnknown (task : Nat)
  | clearIf (task : Nat)
  deriving DecidableEq

namespace SessionJoin

def goTo (j : SessionJoin) (task : Nat) (phase : LinkPhase) : SessionJoin :=
  { j with tasks := j.tasks.set task phase }

def joinOr (id : Option SessionId) (otherwise : LinkPhase) : LinkPhase :=
  match id with
  | some id => .joining id
  | none => otherwise

def clearIf (j : SessionJoin) (id : SessionId) : SessionJoin :=
  if j.id = some id then { j with id := none, creating := false } else j

/-- One step of a task, from the phase it is in. -/
def advance (j : SessionJoin) (task : Nat) : LinkPhase → JoinAction → Option SessionJoin
  | .away, .dialed _ => some (j.goTo task .reading)
  | .reading, .readId _ => some (j.goTo task (joinOr j.id .contending))
  | .contending, .takeLatch _ =>
      if j.creating then some (j.goTo task .waiting)
      else some ({ j with creating := true }.goTo task .elected)
  | .elected, .readAgain _ => some (j.goTo task (joinOr j.id .creating))
  | .waiting, .poll _ => some (j.goTo task (joinOr j.id .checking))
  | .checking, .checkLatch _ => some (j.goTo task (if j.creating then .waiting else .away))
  | .creating, .createOk _ id => some ({ j with id := some id }.goTo task .away)
  | .creating, .createFailed _ => some ({ j with creating := false }.goTo task .away)
  | .joining _, .joinOk _ => some (j.goTo task .away)
  | .joining _, .joinFailed _ => some (j.goTo task .away)
  | .joining id, .joinUnknown _ => some (j.goTo task (.rejected id))
  | .rejected id, .clearIf _ => some ((j.clearIf id).goTo task .away)
  | _, _ => none

end SessionJoin

def JoinAction.task : JoinAction → Nat
  | .dialed task => task
  | .readId task => task
  | .takeLatch task => task
  | .readAgain task => task
  | .poll task => task
  | .checkLatch task => task
  | .createOk task _ => task
  | .createFailed task => task
  | .joinOk task => task
  | .joinFailed task => task
  | .joinUnknown task => task
  | .clearIf task => task

namespace SessionJoin

def step (j : SessionJoin) (action : JoinAction) : Option SessionJoin :=
  (j.tasks[action.task]?).bind fun phase => j.advance action.task phase action

/-- Any number of link tasks, none of which has started. -/
def Initial (j : SessionJoin) : Prop := ∃ links, j = ⟨none, false, List.replicate links .away⟩

def machine : Machine SessionJoin JoinAction := ⟨Initial, step⟩

def creators (j : SessionJoin) : Nat := j.tasks.countP LinkPhase.isCreator

/-- The latch is held once: by a creator, or by the id on record. -/
def LatchHeld (j : SessionJoin) : Prop :=
  j.creators + (if j.id.isSome then 1 else 0) = if j.creating then 1 else 0

theorem creators_goTo {j : SessionJoin} {task : Nat} {phase : LinkPhase} (after : LinkPhase)
    (found : j.tasks[task]? = some phase) :
    (j.goTo task after).creators + (if phase.isCreator then 1 else 0) =
      j.creators + if after.isCreator then 1 else 0 :=
  Machine.countP_set_of_some LinkPhase.isCreator after found

/-- A creator holds the latch, and no id is on record while it does. -/
theorem LatchHeld.creator {j : SessionJoin} (held : j.LatchHeld) {task : Nat} {phase : LinkPhase}
    (found : j.tasks[task]? = some phase) (creator : phase.isCreator = true) :
    j.id = none ∧ j.creating = true := by
  have moved := creators_goTo .away found
  rw [creator] at moved
  simp only [if_true, LinkPhase.isCreator, Bool.false_eq_true, if_false] at moved
  unfold LatchHeld at held
  cases recorded : j.id with
  | none =>
      cases latch : j.creating with
      | true => exact ⟨rfl, rfl⟩
      | false =>
          simp only [recorded, latch, Option.isSome_none, Bool.false_eq_true, if_false] at held
          omega
  | some id =>
      simp only [recorded, Option.isSome_some, if_true] at held
      split at held <;> omega

theorem LatchHeld.recorded {j : SessionJoin} (held : j.LatchHeld) {id : SessionId}
    (recorded : j.id = some id) : j.creating = true ∧ j.creators = 0 := by
  unfold LatchHeld at held
  simp only [recorded, Option.isSome_some, if_true] at held
  split at held
  · rename_i latch
    exact ⟨latch, by omega⟩
  · omega

theorem LatchHeld.goTo {j after : SessionJoin} (held : j.LatchHeld) {task : Nat}
    {phase next : LinkPhase} (found : j.tasks[task]? = some phase)
    (tasks : after.tasks = j.tasks)
    (balance : (if next.isCreator then 1 else 0) + (if after.id.isSome then 1 else 0) +
        (if j.creating then 1 else 0) =
      (if phase.isCreator then 1 else 0) + (if j.id.isSome then 1 else 0) +
        if after.creating then 1 else 0) : (after.goTo task next).LatchHeld := by
  have foundAfter : after.tasks[task]? = some phase := by
    rw [tasks]
    exact found
  have moved := creators_goTo next foundAfter
  have same : after.creators = j.creators :=
    congrArg (fun tasks => List.countP LinkPhase.isCreator tasks) tasks
  unfold LatchHeld at held ⊢
  change (after.goTo task next).creators + (if after.id.isSome then 1 else 0) =
    if after.creating then 1 else 0
  omega

theorem isCreator_joinOr (id : Option SessionId) {otherwise : LinkPhase}
    (notCreator : otherwise.isCreator = false) : (joinOr id otherwise).isCreator = false := by
  cases id with
  | none => exact notCreator
  | some id => rfl

theorem latchHeld_step {j next : SessionJoin} {action : JoinAction} (held : j.LatchHeld)
    (taken : j.step action = some next) : next.LatchHeld := by
  obtain ⟨phase, found, advanced⟩ := Option.bind_eq_some_iff.mp taken
  unfold advance at advanced
  split at advanced
  · cases advanced
    exact held.goTo found rfl rfl
  · cases advanced
    refine held.goTo found (by rfl) ?_
    rw [isCreator_joinOr j.id rfl]
    rfl
  · -- the latch is taken by the task that becomes its holder
    split at advanced
    · cases advanced
      exact held.goTo found rfl rfl
    · rename_i free
      cases advanced
      refine held.goTo found (by rfl) ?_
      simp only [LinkPhase.isCreator, if_neg free, if_true, Bool.false_eq_true, if_false]
      omega
  · cases advanced
    have alone := held.creator found rfl
    refine held.goTo found (by rfl) ?_
    rw [alone.1]
    rfl
  · cases advanced
    refine held.goTo found (by rfl) ?_
    rw [isCreator_joinOr j.id rfl]
    rfl
  · cases advanced
    refine held.goTo found (by rfl) ?_
    cases j.creating <;> rfl
  · -- the id takes over the latch from its creator
    cases advanced
    have alone := held.creator found rfl
    refine held.goTo found (by rfl) ?_
    simp only [alone.1, LinkPhase.isCreator]
    simp
  · cases advanced
    have alone := held.creator found rfl
    refine held.goTo found (by rfl) ?_
    simp only [alone.1, alone.2, LinkPhase.isCreator]
    simp
  · cases advanced
    exact held.goTo found rfl rfl
  · cases advanced
    exact held.goTo found rfl rfl
  · cases advanced
    exact held.goTo found rfl rfl
  · rename_i id _
    cases advanced
    unfold clearIf
    split
    · rename_i recorded
      have latch := (held.recorded recorded).1
      refine held.goTo found (by rfl) ?_
      simp only [recorded, latch, LinkPhase.isCreator]
      simp
    · exact held.goTo found rfl rfl
  · cases advanced

theorem latchHeld_of_reachable {j : SessionJoin} (reachable : machine.Reachable j) :
    j.LatchHeld := by
  refine reachable.invariant LatchHeld ?_ fun _ _ _ held taken => latchHeld_step held taken
  rintro _ ⟨links, rfl⟩
  simp [LatchHeld, creators, List.countP_replicate, LinkPhase.isCreator]

/-- A rejected join of one session leaves the record of another alone. -/
theorem id_of_clearIf {j next : SessionJoin} {task : Nat} {id newer : SessionId}
    (found : j.tasks[task]? = some (.rejected id)) (recorded : j.id = some newer)
    (different : newer ≠ id) (taken : j.step (.clearIf task) = some next) :
    next.id = some newer := by
  simp only [step, JoinAction.task, found, Option.bind_some, advance, clearIf, recorded,
    Option.some.injEq, different, if_false] at taken
  cases taken
  exact recorded

/-- A task that took the latch finds no id when it reads again, and creates. -/
theorem creating_of_elected {j next : SessionJoin} (held : j.LatchHeld) {task : Nat}
    (found : j.tasks[task]? = some .elected) (taken : j.step (.readAgain task) = some next) :
    next.tasks[task]? = some .creating := by
  have absent := (held.creator found rfl).1
  have within : task < j.tasks.length := (List.getElem?_eq_some_iff.mp found).1
  simp only [step, JoinAction.task, found, Option.bind_some, advance, absent, joinOr] at taken
  cases taken
  exact List.getElem?_set_self within

/-- In every state: at most one task is creating a session; an id on record implies the latch; the
latch without an id means that a handshake is in flight, or is the next step of the task that took
the latch; and a late rejection never clears a newer id. -/
theorem session_join_sound {j : SessionJoin} (reachable : machine.Reachable j) :
    j.creators ≤ 1 ∧ (j.id.isSome = true → j.creating = true) ∧
      (j.creating = true → j.id = none → ∃ task : Nat, j.tasks[task]? = some .creating ∨
        j.tasks[task]? = some .elected ∧ ∀ next, j.step (.readAgain task) = some next →
          next.tasks[task]? = some .creating) ∧
      ∀ (task : Nat) id newer next, j.tasks[task]? = some (.rejected id) → j.id = some newer →
        newer ≠ id → j.step (.clearIf task) = some next → next.id = some newer := by
  have held := latchHeld_of_reachable reachable
  refine ⟨?_, ?_, ?_, ?_⟩
  · have bound : (if j.creating then 1 else 0) ≤ 1 := by
      split <;> omega
    unfold LatchHeld at held
    omega
  · intro recorded
    obtain ⟨id, recorded⟩ := Option.isSome_iff_exists.mp recorded
    exact (held.recorded recorded).1
  · intro latch absent
    have one : 0 < j.tasks.countP LinkPhase.isCreator := by
      simp only [LatchHeld, creators, absent, latch, Option.isSome_none, Bool.false_eq_true,
        if_false, if_true] at held
      omega
    obtain ⟨phase, membership, creator⟩ := List.countP_pos_iff.mp one
    obtain ⟨task, found⟩ := List.mem_iff_getElem?.mp membership
    refine ⟨task, ?_⟩
    cases phase with
    | creating => exact .inl found
    | elected => exact .inr ⟨found, fun next => creating_of_elected held found⟩
    | _ => cases creator
  · exact fun task id newer next found recorded different taken =>
      id_of_clearIf found recorded different taken

/-- Three links: the first creates, the others join; one join is rejected late, after a fourth
handshake created the session anew. -/
def recreated : List JoinAction :=
  let old : SessionId := .replicate sessionIdLen 7
  let new : SessionId := .replicate sessionIdLen 9
  [.dialed 0, .readId 0, .takeLatch 0, .readAgain 0, .createOk 0 old,
    .dialed 1, .readId 1, .dialed 2, .readId 2, .joinUnknown 1, .joinUnknown 2, .clearIf 1,
    .dialed 0, .readId 0, .takeLatch 0, .readAgain 0, .createOk 0 new]

theorem session_join_sound_recreated : ∃ j next,
    machine.run ⟨none, false, List.replicate 3 .away⟩ recreated = some j ∧
      j.step (.clearIf 2) = some next ∧ next.id = some (.replicate sessionIdLen 9) := by
  have replayed : ∃ j next, machine.run ⟨none, false, List.replicate 3 .away⟩ recreated = some j ∧
      j.step (.clearIf 2) = some next ∧
      j.tasks[2]? = some (.rejected (.replicate sessionIdLen 7)) ∧
      j.id = some (.replicate sessionIdLen 9) := ⟨_, _, rfl, rfl, rfl, rfl⟩
  obtain ⟨j, next, replay, taken, found, recorded⟩ := replayed
  have begins : machine.Reachable ⟨none, false, List.replicate 3 .away⟩ := .start ⟨3, rfl⟩
  have sound := session_join_sound (begins.run replay)
  exact ⟨j, next, replay, taken, sound.2.2.2 2 _ _ next found recorded (by decide) taken⟩

end SessionJoin

end NyaLink
