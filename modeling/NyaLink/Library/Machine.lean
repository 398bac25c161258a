import Mathlib.Data.List.Basic

/-!
# Guarded transition systems

A machine is an initial condition and an executable step: `step s a` is
`some s'` when action `a` is enabled in `s`.  `ReachableWhen good` collects the
states of runs whose every step meets the condition `good`; with the trivial
condition these are all reachable states.  The invariant rule is proved once
here, and a replay of a concrete schedule gives a reachable state.  `Throughout`
speaks of the steps of a replay instead of its states.
-/

universe u v

/-- An initial condition and a guarded, executable step. -/
structure Machine (State : Type u) (Action : Type v) where
  initial : State → Prop
  step : State → Action → Option State

namespace Machine

variable {State : Type u} {Action : Type v}

/-- States of runs in which every step taken meets `good`. -/
inductive ReachableWhen (machine : Machine State Action) (good : State → Action → Prop) :
    State → Prop where
  | start {state} : machine.initial state → ReachableWhen machine good state
  | step {state action next} :
      ReachableWhen machine good state → good state action →
      machine.step state action = some next → ReachableWhen machine good next

def Reachable (machine : Machine State Action) : State → Prop :=
  machine.ReachableWhen fun _ _ => True

variable {machine : Machine State Action} {good : State → Action → Prop}

theorem ReachableWhen.mono {weaker : State → Action → Prop} {state : State}
    (reachable : machine.ReachableWhen good state)
    (implies : ∀ state action, good state action → weaker state action) :
    machine.ReachableWhen weaker state := by
  induction reachable with
  | start begins => exact .start begins
  | step _ allowed taken inductionHypothesis =>
      exact .step inductionHypothesis (implies _ _ allowed) taken

theorem ReachableWhen.reachable {state : State}
    (reachable : machine.ReachableWhen good state) : machine.Reachable state :=
  reachable.mono fun _ _ _ => trivial

/-- A property of the initial states that every good step keeps, in states already known
to satisfy an established invariant, holds throughout every good run. -/
theorem ReachableWhen.invariant_of {established : State → Prop} (invariant : State → Prop)
    (known : ∀ state, machine.ReachableWhen good state → established state)
    (atStart : ∀ state, machine.initial state → invariant state)
    (preserved : ∀ state action next, established state → invariant state →
      good state action → machine.step state action = some next → invariant next)
    {state : State} (reachable : machine.ReachableWhen good state) : invariant state := by
  induction reachable with
  | start begins => exact atStart _ begins
  | step earlier allowed taken inductionHypothesis =>
      exact preserved _ _ _ (known _ earlier) inductionHypothesis allowed taken

theorem Reachable.invariant (invariant : State → Prop)
    (atStart : ∀ state, machine.initial state → invariant state)
    (preserved : ∀ state action next, invariant state →
      machine.step state action = some next → invariant next)
    {state : State} (reachable : machine.Reachable state) : invariant state := by
  induction reachable with
  | start begins => exact atStart _ begins
  | step _ _ taken inductionHypothesis => exact preserved _ _ _ inductionHypothesis taken

/-- Replay a schedule; `none` as soon as an action is not enabled. -/
def run (machine : Machine State Action) : State → List Action → Option State
  | state, [] => some state
  | state, action :: rest => (machine.step state action).bind fun next => machine.run next rest

theorem run_append (state : State) (first second : List Action) :
    machine.run state (first ++ second) =
      (machine.run state first).bind fun next => machine.run next second := by
  induction first generalizing state with
  | nil => rfl
  | cons action rest inductionHypothesis =>
      simp only [List.cons_append, run, inductionHypothesis, Option.bind_assoc]

/-- Replay a schedule, refusing every step that does not meet the condition. -/
def runWhen (machine : Machine State Action) (good : State → Action → Prop)
    [∀ state action, Decidable (good state action)] : State → List Action → Option State
  | state, [] => some state
  | state, action :: rest =>
      if good state action then
        (machine.step state action).bind fun next => machine.runWhen good next rest
      else none

theorem ReachableWhen.runWhen [∀ state action, Decidable (good state action)]
    {schedule : List Action} {state final : State}
    (reachable : machine.ReachableWhen good state)
    (replayed : machine.runWhen good state schedule = some final) :
    machine.ReachableWhen good final := by
  induction schedule generalizing state with
  | nil =>
      cases replayed
      exact reachable
  | cons action rest inductionHypothesis =>
      simp only [Machine.runWhen] at replayed
      split at replayed
      · rename_i allowed
        obtain ⟨next, taken, remaining⟩ := Option.bind_eq_some_iff.mp replayed
        exact inductionHypothesis (.step reachable allowed taken) remaining
      · cases replayed

theorem Reachable.run {schedule : List Action} {state final : State}
    (reachable : machine.Reachable state)
    (replayed : machine.run state schedule = some final) : machine.Reachable final := by
  induction schedule generalizing state with
  | nil =>
      cases replayed
      exact reachable
  | cons action rest inductionHypothesis =>
      obtain ⟨next, taken, remaining⟩ := Option.bind_eq_some_iff.mp replayed
      exact inductionHypothesis (.step reachable trivial taken) remaining

/-! ## The steps of a run -/

/-- Every step of the replay of a schedule has the property, up to an action not enabled. -/
def Throughout (machine : Machine State Action) (holds : State → Action → State → Prop) :
    State → List Action → Prop
  | _, [] => True
  | state, action :: rest =>
      ∀ next, machine.step state action = some next →
        holds state action next ∧ machine.Throughout holds next rest

/-- Properties that agree on every step of every reachable state agree on whole runs. -/
theorem Reachable.throughout_iff {first second : State → Action → State → Prop}
    (agree : ∀ state action next, machine.Reachable state →
      machine.step state action = some next →
      (first state action next ↔ second state action next))
    {state : State} (reachable : machine.Reachable state) (schedule : List Action) :
    machine.Throughout first state schedule ↔ machine.Throughout second state schedule := by
  induction schedule generalizing state with
  | nil => exact Iff.rfl
  | cons action rest inductionHypothesis =>
      refine forall_congr' fun next => forall_congr' fun taken => ?_
      exact and_congr (agree state action next reachable taken)
        (inductionHypothesis (.step reachable trivial taken))

/-- A property that agrees with the condition wherever good runs lead agrees with it on whole
runs. -/
theorem ReachableWhen.throughout_iff {holds : State → Action → State → Prop}
    (agree : ∀ state action next, machine.ReachableWhen good state →
      machine.step state action = some next → (holds state action next ↔ good state action))
    {state : State} (reachable : machine.ReachableWhen good state) (schedule : List Action) :
    machine.Throughout holds state schedule ↔
      machine.Throughout (fun state action _ => good state action) state schedule := by
  induction schedule generalizing state with
  | nil => exact Iff.rfl
  | cons action rest inductionHypothesis =>
      refine forall_congr' fun next => forall_congr' fun taken => ?_
      have agreed := agree state action next reachable taken
      constructor
      · rintro ⟨held, later⟩
        have allowed := agreed.mp held
        exact ⟨allowed, (inductionHypothesis (.step reachable allowed taken)).mp later⟩
      · rintro ⟨allowed, later⟩
        exact ⟨agreed.mpr allowed,
          (inductionHypothesis (.step reachable allowed taken)).mpr later⟩

theorem throughout_of_runWhen [∀ state action, Decidable (good state action)]
    {schedule : List Action} {state final : State}
    (replayed : machine.runWhen good state schedule = some final) :
    machine.Throughout (fun state action _ => good state action) state schedule := by
  induction schedule generalizing state with
  | nil => trivial
  | cons action rest inductionHypothesis =>
      simp only [Machine.runWhen] at replayed
      split at replayed
      · rename_i allowed
        obtain ⟨next, taken, remaining⟩ := Option.bind_eq_some_iff.mp replayed
        intro other takenOther
        obtain rfl : next = other := Option.some.inj (taken.symm.trans takenOther)
        exact ⟨allowed, inductionHypothesis remaining⟩
      · cases replayed

/-! ## Tasks -/

/-- One task of a list moves to another phase; the number of tasks in a phase of some kind changes
by that task. -/
theorem countP_set_of_some {Phase : Type u} (kind : Phase → Bool) {tasks : List Phase} {task : Nat}
    {phase : Phase} (after : Phase) (found : tasks[task]? = some phase) :
    (tasks.set task after).countP kind + (if kind phase then 1 else 0) =
      tasks.countP kind + if kind after then 1 else 0 := by
  induction tasks generalizing task with
  | nil => cases found
  | cons head rest inductionHypothesis =>
      cases task with
      | zero =>
          obtain rfl : head = phase := Option.some.inj found
          simp only [List.set_cons_zero, List.countP_cons]
          omega
      | succ task =>
          have inRest : rest[task]? = some phase := found
          have moved := inductionHypothesis inRest
          simp only [List.set_cons_succ, List.countP_cons]
          omega

end Machine
