import Mathlib.Data.Finset.Card

/-!
# Maximal runs

A run is a half-open interval of naturals.  `MaximalRun member run` says that
the run lies in the set and that neither neighbour of it does.  A list of runs
that leave a gap between each other is the list of the maximal runs of what it
covers, so a set that is covered by such a list has no others.
-/

/-- All of `[run.1, run.2)` is in the set, and neither the position before nor the one after. -/
structure MaximalRun (member : Nat → Prop) (run : Nat × Nat) : Prop where
  nonempty : run.1 < run.2
  inside : ∀ position, run.1 ≤ position → position < run.2 → member position
  before : ∀ position, position + 1 = run.1 → ¬ member position
  after : ¬ member run.2

/-- A run holds the position. -/
def Holds (run : Nat × Nat) (position : Nat) : Prop := run.1 ≤ position ∧ position < run.2

instance (run : Nat × Nat) (position : Nat) : Decidable (Holds run position) :=
  inferInstanceAs (Decidable (_ ∧ _))

/-- Some run of the list holds the position. -/
def Covers (runs : List (Nat × Nat)) (position : Nat) : Prop := ∃ run ∈ runs, Holds run position

/-- Nonempty runs from the highest down, with a gap between any two. -/
structure Separated (runs : List (Nat × Nat)) : Prop where
  nonempty : ∀ run ∈ runs, run.1 < run.2
  gaps : runs.Pairwise fun high low => low.2 < high.1

namespace Separated

variable {runs : List (Nat × Nat)} {run other : Nat × Nat} {position : Nat}

theorem nil : Separated [] := ⟨fun _ inside => absurd inside List.not_mem_nil, List.Pairwise.nil⟩

theorem of_cons (separated : Separated (run :: runs)) : Separated runs :=
  ⟨fun other inside => separated.nonempty other (List.mem_cons_of_mem _ inside),
    (List.pairwise_cons.mp separated.gaps).2⟩

theorem cons (separated : Separated runs) (nonempty : run.1 < run.2)
    (above : ∀ low ∈ runs, low.2 < run.1) : Separated (run :: runs) where
  nonempty := by
    intro other inside
    rcases List.mem_cons.mp inside with rfl | inRuns
    · exact nonempty
    · exact separated.nonempty other inRuns
  gaps := List.pairwise_cons.mpr ⟨above, separated.gaps⟩

theorem apart (separated : Separated runs) (inside : run ∈ runs) (also : other ∈ runs) :
    run = other ∨ run.2 < other.1 ∨ other.2 < run.1 := by
  induction runs with
  | nil => cases inside
  | cons head rest inductionHypothesis =>
      have below := (List.pairwise_cons.mp separated.gaps).1
      rcases List.mem_cons.mp inside with rfl | inRest
      · rcases List.mem_cons.mp also with rfl | alsoInRest
        · exact .inl rfl
        · exact .inr (.inr (below other alsoInRest))
      · rcases List.mem_cons.mp also with rfl | alsoInRest
        · exact .inr (.inl (below run inRest))
        · exact inductionHypothesis separated.of_cons inRest alsoInRest

theorem eq_of_holds (separated : Separated runs) (inside : run ∈ runs) (also : other ∈ runs)
    (holds : Holds run position) (holdsToo : Holds other position) : run = other := by
  obtain ⟨low, high⟩ := holds
  obtain ⟨otherLow, otherHigh⟩ := holdsToo
  rcases separated.apart inside also with same | below | above
  · exact same
  · omega
  · omega

theorem nodup (separated : Separated runs) : runs.Nodup := by
  induction runs with
  | nil => exact List.nodup_nil
  | cons head rest inductionHypothesis =>
      refine List.nodup_cons.mpr ⟨fun again => ?_, inductionHypothesis separated.of_cons⟩
      have below := (List.pairwise_cons.mp separated.gaps).1 head again
      have nonempty := separated.nonempty head (List.mem_cons_self ..)
      omega

theorem maximalRun_of_mem (separated : Separated runs) (inside : run ∈ runs) :
    MaximalRun (Covers runs) run where
  nonempty := separated.nonempty run inside
  inside := fun _ low high => ⟨run, inside, low, high⟩
  before := by
    rintro position next ⟨other, also, low, high⟩
    have nonempty := separated.nonempty run inside
    rcases separated.apart inside also with rfl | below | above
    · omega
    · omega
    · omega
  after := by
    rintro ⟨other, also, low, high⟩
    have nonempty := separated.nonempty run inside
    rcases separated.apart inside also with rfl | below | above
    · omega
    · omega
    · omega

end Separated

namespace MaximalRun

variable {member : Nat → Prop} {first second : Nat × Nat} {position : Nat}

theorem start_le (maximal : MaximalRun member first) (other : MaximalRun member second)
    (holds : Holds first position) (holdsToo : Holds second position) : second.1 ≤ first.1 := by
  by_contra below
  have high := holds.2
  have low := holdsToo.1
  refine other.before (second.1 - 1) (by omega) (maximal.inside _ ?_ ?_)
  · omega
  · omega

theorem end_le (maximal : MaximalRun member first) (other : MaximalRun member second)
    (holds : Holds first position) (holdsToo : Holds second position) : first.2 ≤ second.2 := by
  by_contra beyond
  have low := holds.1
  have high := holdsToo.2
  refine other.after (maximal.inside _ ?_ ?_)
  · omega
  · omega

theorem eq_of_holds (maximal : MaximalRun member first) (other : MaximalRun member second)
    (holds : Holds first position) (holdsToo : Holds second position) : first = second := by
  have starts := Nat.le_antisymm (other.start_le maximal holdsToo holds)
    (maximal.start_le other holds holdsToo)
  have ends := Nat.le_antisymm (maximal.end_le other holds holdsToo)
    (other.end_le maximal holdsToo holds)
  exact Prod.ext starts ends

end MaximalRun

namespace Separated

variable {runs : List (Nat × Nat)} {member : Nat → Prop}

/-- The runs of a separated list are all maximal runs of the set it covers. -/
theorem mem_iff_maximalRun (separated : Separated runs)
    (covers : ∀ position, Covers runs position ↔ member position) (run : Nat × Nat) :
    run ∈ runs ↔ MaximalRun member run := by
  obtain rfl : Covers runs = member := funext fun position => propext (covers position)
  refine ⟨separated.maximalRun_of_mem, fun maximal => ?_⟩
  have holds : Holds run run.1 := ⟨Nat.le_refl _, maximal.nonempty⟩
  obtain ⟨other, inside, holdsToo⟩ := maximal.inside run.1 holds.1 holds.2
  rwa [maximal.eq_of_holds (separated.maximalRun_of_mem inside) holds holdsToo]

/-- There are as many maximal runs as the list has. -/
theorem card_toFinset (separated : Separated runs) : runs.toFinset.card = runs.length :=
  List.toFinset_card_of_nodup separated.nodup

theorem lt_of_mem_take (separated : Separated runs) {keep : Nat × Nat → Bool} {count : Nat}
    {high low : Nat × Nat} (taken : high ∈ (runs.filter keep).take count)
    (kept : low ∈ runs.filter keep) (left : low ∉ (runs.filter keep).take count) :
    low.2 < high.1 := by
  have gaps := separated.gaps.filter keep
  rw [← List.take_append_drop count (runs.filter keep)] at gaps kept
  have dropped := (List.mem_append.mp kept).resolve_left left
  exact (List.pairwise_append.mp gaps).2.2 high taken low dropped

end Separated
