import Mathlib.Order.Defs.LinearOrder
import Mathlib.Algebra.Order.Group.Nat

/-!
# Amounts booked at times

A ledger lists amounts with the times at which they were booked.  `since` and `between` are
the totals of a half-line and of an interval.
-/

universe u

abbrev Ledger (Time : Type u) := List (Time × Nat)

namespace Ledger

variable {Time : Type u}

def total : Ledger Time → (Time → Bool) → Nat
  | [], _ => 0
  | (time, amount) :: rest, counts => (if counts time then amount else 0) + total rest counts

theorem total_cons (time : Time) (amount : Nat) (rest : Ledger Time) (counts : Time → Bool) :
    total ((time, amount) :: rest) counts =
      (if counts time then amount else 0) + rest.total counts := rfl

theorem total_append (first second : Ledger Time) (counts : Time → Bool) :
    total (first ++ second) counts = first.total counts + second.total counts := by
  induction first with
  | nil => exact (Nat.zero_add _).symm
  | cons entry rest inductionHypothesis =>
      obtain ⟨time, amount⟩ := entry
      rw [List.cons_append, total_cons, total_cons, inductionHypothesis, Nat.add_assoc]

theorem total_book (ledger : Ledger Time) (time : Time) (amount : Nat) (counts : Time → Bool) :
    total (ledger ++ [(time, amount)]) counts =
      ledger.total counts + if counts time then amount else 0 := by
  rw [total_append, total_cons]
  rfl

theorem total_mono {ledger : Ledger Time} {fewer more : Time → Bool}
    (counted : ∀ entry ∈ ledger, fewer entry.1 = true → more entry.1 = true) :
    ledger.total fewer ≤ ledger.total more := by
  induction ledger with
  | nil => exact Nat.le_refl _
  | cons entry rest inductionHypothesis =>
      obtain ⟨time, amount⟩ := entry
      have later := inductionHypothesis fun entry present =>
        counted entry (List.mem_cons_of_mem _ present)
      rw [total_cons, total_cons]
      by_cases inFewer : fewer time = true
      · rw [if_pos inFewer, if_pos (counted _ List.mem_cons_self inFewer)]
        exact Nat.add_le_add_left later amount
      · rw [if_neg inFewer, Nat.zero_add]
        exact later.trans (Nat.le_add_left _ _)

theorem total_le_book (ledger : Ledger Time) (time : Time) (amount : Nat)
    (counts : Time → Bool) :
    ledger.total counts ≤ total (ledger ++ [(time, amount)]) counts := by
  rw [total_book]
  exact Nat.le_add_right _ _

theorem total_sublist {part whole : Ledger Time} (sub : part.Sublist whole)
    (counts : Time → Bool) : part.total counts ≤ whole.total counts := by
  induction sub with
  | slnil => exact Nat.le_refl _
  | cons entry _ inductionHypothesis =>
      obtain ⟨time, amount⟩ := entry
      rw [total_cons]
      exact inductionHypothesis.trans (Nat.le_add_left _ _)
  | cons_cons entry _ inductionHypothesis =>
      obtain ⟨time, amount⟩ := entry
      rw [total_cons, total_cons]
      exact Nat.add_le_add_left inductionHypothesis _

variable [LinearOrder Time]

/-- Booked at `low` or later. -/
def since (ledger : Ledger Time) (low : Time) : Nat := ledger.total fun time => low ≤ time

/-- Booked from `low` to `high`. -/
def between (ledger : Ledger Time) (low high : Time) : Nat :=
  ledger.total fun time => decide (low ≤ time) && decide (time ≤ high)

theorem since_book (ledger : Ledger Time) {time low : Time} (amount : Nat) (later : low ≤ time) :
    since (ledger ++ [(time, amount)]) low = ledger.since low + amount := by
  rw [since, total_book, decide_eq_true later, if_pos rfl]
  rfl

theorem between_antitone (ledger : Ledger Time) {earlier later : Time} (order : earlier ≤ later)
    (high : Time) : ledger.between later high ≤ ledger.between earlier high := by
  refine total_mono fun entry _ inside => ?_
  simp only [Bool.and_eq_true, decide_eq_true_eq] at inside ⊢
  exact ⟨order.trans inside.1, inside.2⟩

theorem since_le_between {ledger : Ledger Time} {low high : Time}
    (past : ∀ entry ∈ ledger, entry.1 ≤ high) : ledger.since low ≤ ledger.between low high := by
  refine total_mono fun entry present inside => ?_
  simp only [Bool.and_eq_true, decide_eq_true_eq] at inside ⊢
  exact ⟨inside, past entry present⟩

end Ledger
