import Mathlib.Data.List.Basic

/-!
# Hold timers

A timer that is started by the first of several findings in a row and cleared by
the first miss.  It has run for the hold exactly if the findings have lasted for
it.  Histories have their newest entry first; a finding carries the time at which
it would start the timer.
-/

namespace HoldTimer

/-- The timer after a history: `some now` is a finding, `none` a miss. -/
def since : List (Option Nat) → Option Nat
  | [] => none
  | none :: _ => none
  | some now :: earlier => some ((since earlier).getD now)

@[simp]
theorem since_miss (earlier : List (Option Nat)) : since (none :: earlier) = none := rfl

theorem since_found (now : Nat) (earlier : List (Option Nat)) :
    since (some now :: earlier) = some ((since earlier).getD now) := rfl

/-- A history that ends with findings only, the oldest of them at `start`. -/
def EndsWith (history : List (Option Nat)) (start : Nat) : Prop :=
  ∃ recent before, history = recent ++ some start :: before ∧ none ∉ recent

def Ordered (history : List (Option Nat)) : Prop :=
  history.Pairwise fun newer older => ∀ late ∈ newer, ∀ soon ∈ older, soon ≤ late

theorem EndsWith.found {history : List (Option Nat)} {start now : Nat}
    (ends : EndsWith history start) : EndsWith (some now :: history) start := by
  obtain ⟨recent, before, rfl, found⟩ := ends
  refine ⟨some now :: recent, before, rfl, ?_⟩
  simp only [List.mem_cons, reduceCtorEq, false_or]
  exact found

theorem endsWith_since {history : List (Option Nat)} {start : Nat}
    (running : since history = some start) : EndsWith history start := by
  induction history generalizing start with
  | nil => cases running
  | cons entry earlier inductionHypothesis =>
      cases entry with
      | none => cases running
      | some now =>
          rw [since_found] at running
          cases before : since earlier with
          | none =>
              rw [before] at running
              cases running
              exact ⟨[], earlier, rfl, List.not_mem_nil⟩
          | some first =>
              rw [before] at running
              cases running
              exact (inductionHypothesis before).found

theorem since_le_of_endsWith {history : List (Option Nat)} (ordered : Ordered history)
    {start : Nat} (ends : EndsWith history start) :
    ∃ first, since history = some first ∧ first ≤ start := by
  induction history with
  | nil =>
      obtain ⟨recent, before, same, _⟩ := ends
      cases recent <;> cases same
  | cons entry earlier inductionHypothesis =>
      obtain ⟨later, rest⟩ := List.pairwise_cons.mp ordered
      obtain ⟨recent, before, same, found⟩ := ends
      cases recent with
      | nil =>
          cases same
          rw [since_found]
          cases running : since earlier with
          | none => exact ⟨start, rfl, Nat.le_refl start⟩
          | some first =>
              obtain ⟨recent, before, rfl, _⟩ := endsWith_since running
              refine ⟨first, rfl, later (some first) ?_ start rfl first rfl⟩
              exact List.mem_append_right _ (List.mem_cons_self ..)
      | cons newest recent =>
          cases same
          cases entry with
          | none => exact absurd (List.mem_cons_self ..) found
          | some now =>
              obtain ⟨first, running, early⟩ := inductionHypothesis rest
                ⟨recent, before, rfl, fun miss => found (List.mem_cons_of_mem _ miss)⟩
              rw [since_found, running]
              exact ⟨first, rfl, early⟩

/-- The timer has run for the hold exactly if findings, and nothing else, go back as far. -/
theorem held_iff {history : List (Option Nat)} (ordered : Ordered history) (hold now : Nat) :
    (∃ start, since history = some start ∧ start + hold ≤ now) ↔
      ∃ start, EndsWith history start ∧ start + hold ≤ now := by
  constructor
  · rintro ⟨start, running, held⟩
    exact ⟨start, endsWith_since running, held⟩
  · rintro ⟨start, ends, held⟩
    obtain ⟨first, running, early⟩ := since_le_of_endsWith ordered ends
    exact ⟨first, running, by omega⟩

end HoldTimer
