import Mathlib.Order.Defs.PartialOrder

/-!
# Descent along an endless run

A step function fed with an infinite sequence of inputs.  When every live state
leads, while the run stays live, to the goal or to a live state of smaller
measure, the run reaches the goal.
-/

universe u v

namespace Descent

variable {State : Type u} {Input : Type v}

/-- The state after the first `count` inputs of a sequence. -/
def after (next : State → Input → State) (state : State) (inputs : Nat → Input) : Nat → State
  | 0 => state
  | count + 1 => after next (next state (inputs 0)) (fun index => inputs (index + 1)) count

variable {next : State → Input → State}

@[simp]
theorem after_zero (state : State) (inputs : Nat → Input) : after next state inputs 0 = state := rfl

theorem after_succ (state : State) (inputs : Nat → Input) (count : Nat) :
    after next state inputs (count + 1) =
      after next (next state (inputs 0)) (fun index => inputs (index + 1)) count := rfl

theorem after_add (state : State) (inputs : Nat → Input) (first second : Nat) :
    after next state inputs (second + first) =
      after next (after next state inputs first) (fun index => inputs (index + first)) second := by
  induction first generalizing state inputs with
  | zero => rfl
  | succ first inductionHypothesis =>
      calc after next state inputs (second + first + 1)
          = after next (next state (inputs 0)) (fun index => inputs (index + 1))
              (second + first) := rfl
        _ = after next (after next (next state (inputs 0)) (fun index => inputs (index + 1)) first)
              (fun index => inputs (index + first + 1)) second := inductionHypothesis _ _

theorem after_succ_right (state : State) (inputs : Nat → Input) (count : Nat) :
    after next state inputs (count + 1) = next (after next state inputs count) (inputs count) := by
  rw [Nat.add_comm, after_add, after_succ, after_zero, Nat.zero_add]

theorem fair_shift {fair : (Nat → Input) → Prop}
    (fairTail : ∀ inputs, fair inputs → fair fun index => inputs (index + 1))
    {inputs : Nat → Input} (isFair : fair inputs) (count : Nat) :
    fair fun index => inputs (index + count) := by
  induction count with
  | zero => exact isFair
  | succ count inductionHypothesis =>
      have shifted := fairTail _ inductionHypothesis
      simpa only [Nat.add_right_comm, Nat.add_assoc] using shifted

/-- From a live state a fair run stays live until it reaches the goal, and does reach it. -/
theorem exists_after {live goal : State → Prop} {fair : (Nat → Input) → Prop}
    (measure : State → Nat)
    (fairTail : ∀ inputs, fair inputs → fair fun index => inputs (index + 1))
    (progress : ∀ state inputs, live state → fair inputs → ∃ count,
      (∀ index ≤ count, live (after next state inputs index)) ∧
      (goal (after next state inputs (count + 1)) ∨
        live (after next state inputs (count + 1)) ∧
          measure (after next state inputs (count + 1)) < measure state))
    {state : State} {inputs : Nat → Input} (isLive : live state) (isFair : fair inputs) :
    ∃ count, goal (after next state inputs count) ∧
      ∀ index < count, live (after next state inputs index) := by
  induction bound : measure state using Nat.strongRecOn generalizing state inputs with
  | ind bound inductionHypothesis =>
      obtain ⟨count, lives, reached | ⟨lower, smaller⟩⟩ := progress state inputs isLive isFair
      · exact ⟨count + 1, reached, fun index before => lives index (Nat.lt_succ_iff.mp before)⟩
      · obtain ⟨rest, reached, later⟩ := inductionHypothesis _ (bound ▸ smaller) lower
          (fair_shift fairTail isFair (count + 1)) rfl
        refine ⟨rest + (count + 1), by rwa [after_add], fun index before => ?_⟩
        rcases Nat.lt_or_ge index (count + 1) with early | late
        · exact lives index (Nat.lt_succ_iff.mp early)
        · have live := later (index - (count + 1)) (by omega)
          rwa [← after_add, Nat.sub_add_cancel late] at live

end Descent
