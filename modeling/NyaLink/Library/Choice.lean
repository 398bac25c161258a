import Mathlib.Data.List.MinMax
import Mathlib.Data.List.Perm.Basic
import Mathlib.Data.Prod.Lex

/-!
# Choosing from a list

The moves of a layered choice.  `orIfEmpty` falls back to other candidates when
there are none, `filterOrAll` keeps the candidates with a property, or all of
them when none has it.  A scan that replaces its best candidate whenever a later
one is better ends at the least candidate; the key of that candidate does not
depend on the order of the list.
-/

universe u v

namespace Choice

variable {Alpha : Type u}

/-! ## Falling back -/

def orIfEmpty (cands fallback : List Alpha) : List Alpha :=
  if cands.isEmpty then fallback else cands

theorem orIfEmpty_of_mem {cands fallback : List Alpha} {value : Alpha}
    (membership : value ∈ cands) : orIfEmpty cands fallback = cands := by
  cases cands with
  | nil => cases membership
  | cons first rest => rfl

theorem mem_orIfEmpty_cases {cands fallback : List Alpha} {value : Alpha}
    (membership : value ∈ orIfEmpty cands fallback) :
    value ∈ cands ∨ cands = [] ∧ value ∈ fallback := by
  cases cands with
  | nil => exact .inr ⟨rfl, membership⟩
  | cons first rest => exact .inl membership

theorem orIfEmpty_eq_nil {cands fallback : List Alpha} :
    orIfEmpty cands fallback = [] ↔ cands = [] ∧ fallback = [] := by
  cases cands with
  | nil => exact (and_iff_right rfl).symm
  | cons first rest =>
      constructor
      · intro impossible
        cases impossible
      · rintro ⟨impossible, -⟩
        cases impossible

theorem orIfEmpty_perm {cands other fallback otherFallback : List Alpha}
    (permuted : cands.Perm other) (permutedFallback : fallback.Perm otherFallback) :
    (orIfEmpty cands fallback).Perm (orIfEmpty other otherFallback) := by
  unfold orIfEmpty
  rw [permuted.isEmpty_eq]
  split
  · exact permutedFallback
  · exact permuted

/-! ## Restricting to the candidates with a property -/

def filterOrAll (keep : Alpha → Bool) (cands : List Alpha) : List Alpha :=
  orIfEmpty (cands.filter keep) cands

theorem filterOrAll_eq_filter {keep : Alpha → Bool} {cands : List Alpha} {value : Alpha}
    (membership : value ∈ cands) (kept : keep value = true) :
    filterOrAll keep cands = cands.filter keep :=
  orIfEmpty_of_mem (List.mem_filter.mpr ⟨membership, kept⟩)

theorem mem_of_mem_filterOrAll {keep : Alpha → Bool} {cands : List Alpha} {value : Alpha}
    (membership : value ∈ filterOrAll keep cands) : value ∈ cands := by
  rcases mem_orIfEmpty_cases membership with filtered | ⟨-, fallback⟩
  · exact List.mem_of_mem_filter filtered
  · exact fallback

/-- When some candidate has the property, every one that is left has it. -/
theorem keep_of_mem_filterOrAll (keep : Alpha → Bool) {cands : List Alpha} {value other : Alpha}
    (membership : value ∈ filterOrAll keep cands) (present : other ∈ cands)
    (kept : keep other = true) : keep value = true := by
  rw [filterOrAll_eq_filter present kept] at membership
  exact (List.mem_filter.mp membership).2

theorem filterOrAll_eq_nil {keep : Alpha → Bool} {cands : List Alpha} :
    filterOrAll keep cands = [] ↔ cands = [] := by
  rw [filterOrAll, orIfEmpty_eq_nil]
  constructor
  · exact fun both => both.2
  · rintro rfl
    exact ⟨rfl, rfl⟩

theorem filterOrAll_perm {cands other : List Alpha} (keep : Alpha → Bool)
    (permuted : cands.Perm other) : (filterOrAll keep cands).Perm (filterOrAll keep other) :=
  orIfEmpty_perm (permuted.filter keep) permuted

/-! ## The least candidate -/

section Least

variable {Key : Type v} [LinearOrder Key] {key : Alpha → Key}

/-- A scan that keeps the better of two ends at the least candidate. -/
theorem argmin_cons_eq_foldl {better : Alpha → Alpha → Bool}
    (less : ∀ best candidate, better best candidate = true ↔ key candidate < key best)
    (first : Alpha) (rest : List Alpha) :
    (first :: rest).argmin key = some
      (rest.foldl (fun best candidate => if better best candidate then candidate else best)
        first) := by
  unfold List.argmin
  rw [List.foldl_cons]
  show rest.foldl _ (some first) = _
  induction rest generalizing first with
  | nil => rfl
  | cons candidate rest inductionHypothesis =>
      rw [List.foldl_cons, List.foldl_cons, ← inductionHypothesis]
      apply congrArg (rest.foldl _)
      by_cases replaced : better first candidate = true
      · rw [if_pos replaced]
        exact if_pos ((less first candidate).mp replaced)
      · rw [if_neg replaced]
        exact if_neg fun smaller => replaced ((less first candidate).mpr smaller)

/-- The least key is the same for every order of the candidates. -/
theorem argmin_key_perm (key : Alpha → Key) {cands other : List Alpha}
    (permuted : cands.Perm other) :
    (cands.argmin key).map key = (other.argmin key).map key := by
  cases least : cands.argmin key with
  | none =>
      rw [List.argmin_eq_none] at least
      rw [least] at permuted
      rw [← permuted.nil_eq]
      rfl
  | some value =>
      cases leastOther : other.argmin key with
      | none =>
          rw [List.argmin_eq_none] at leastOther
          rw [leastOther] at permuted
          rw [permuted.eq_nil] at least
          cases least
      | some otherValue =>
          have below : key value ≤ key otherValue :=
            List.le_of_mem_argmin (permuted.mem_iff.mpr (List.argmin_mem leastOther)) least
          have above : key otherValue ≤ key value :=
            List.le_of_mem_argmin (permuted.mem_iff.mp (List.argmin_mem least)) leastOther
          exact congrArg some (le_antisymm below above)

/-- So is the least element. -/
theorem min?_perm {values other : List Key} (permuted : values.Perm other) :
    values.min? = other.min? := by
  ext least
  rw [List.min?_eq_some_iff, List.min?_eq_some_iff, permuted.mem_iff]
  constructor
  · rintro ⟨membership, below⟩
    exact ⟨membership, fun value present => below value (permuted.mem_iff.mpr present)⟩
  · rintro ⟨membership, below⟩
    exact ⟨membership, fun value present => below value (permuted.mem_iff.mp present)⟩

end Least

end Choice
