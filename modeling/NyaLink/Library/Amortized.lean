import NyaLink.Library.Machine
import Mathlib.Algebra.Order.Floor.Div
import Mathlib.Data.Nat.Log

/-!
# Amortised bounds

A potential that each step raises by no more than the step pays for: along a run it rises by no
more than the whole run has paid.  What is counted is part of the potential, what pays for it is
any quantity of the state.  A pause that doubles up to a limit pays with the doublings it has
left below a given length.
-/

universe u v

namespace Machine

variable {State : Type u} {Action : Type v} {machine : Machine State Action}

theorem Reachable.amortized (potential paid : State → Nat)
    (step : ∀ state action next, machine.Reachable state →
      machine.step state action = some next →
      potential next + paid state ≤ potential state + paid next)
    {state final : State} (reachable : machine.Reachable state) {schedule : List Action}
    (ran : machine.run state schedule = some final) :
    potential final + paid state ≤ potential state + paid final := by
  induction schedule generalizing state with
  | nil =>
      cases ran
      exact le_rfl
  | cons action rest inductionHypothesis =>
      obtain ⟨next, taken, remaining⟩ := Option.bind_eq_some_iff.mp ran
      have first := step state action next reachable taken
      have later := inductionHypothesis (.step reachable trivial taken) remaining
      omega

end Machine

/-! ## Pauses that double -/

/-- How often a pause must double to reach a length. -/
def doublings (length pause : Nat) : Nat := Nat.clog 2 (length ⌈/⌉ pause)

section

variable {length pause : Nat}

theorem doublings_le_iff (positive : 0 < pause) (count : Nat) :
    doublings length pause ≤ count ↔ length ≤ pause * 2 ^ count := by
  rw [doublings, Nat.clog_le_iff_le_pow Nat.one_lt_two, ceilDiv_le_iff_le_mul positive]

theorem doublings_eq_zero (positive : 0 < pause) (reached : length ≤ pause) :
    doublings length pause = 0 := by
  rw [← Nat.le_zero, doublings_le_iff positive, pow_zero, mul_one]
  exact reached

theorem doublings_antitone {longer : Nat} (positive : 0 < pause) (longerPause : pause ≤ longer) :
    doublings length longer ≤ doublings length pause := by
  have reached := (doublings_le_iff positive (doublings length pause)).mp le_rfl
  rw [doublings_le_iff (positive.trans_le longerPause)]
  exact reached.trans (Nat.mul_le_mul_right _ longerPause)

/-- Up to a limit that is not below the length, each doubling leaves one less. -/
theorem doublings_double {limit : Nat} (positive : 0 < pause) (short : pause < length)
    (within : length ≤ limit) :
    doublings length (min (pause * 2) limit) + 1 ≤ doublings length pause := by
  have reached := (doublings_le_iff positive (doublings length pause)).mp le_rfl
  cases left : doublings length pause with
  | zero =>
      rw [left, pow_zero, mul_one] at reached
      exact absurd reached (Nat.not_le.mpr short)
  | succ rest =>
      rw [left, pow_succ', ← mul_assoc] at reached
      refine Nat.succ_le_succ ?_
      rw [doublings_le_iff (by omega)]
      rcases Nat.le_total (pause * 2) limit with below | above
      · rw [Nat.min_eq_left below]
        exact reached
      · rw [Nat.min_eq_right above]
        exact within.trans (Nat.le_mul_of_pos_right limit (Nat.two_pow_pos rest))

end
