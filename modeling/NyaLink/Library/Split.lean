import Mathlib.Data.List.Basic

/-!
# Splitting at the last separator

`rsplitOnce` splits a list where a separator occurs for the last time.  When the
first item of the separator occurs nowhere after it, that is the occurrence that
was put there.
-/

universe u

variable {Item : Type u} [DecidableEq Item]

/-- What is before the last occurrence of the separator and what is after it. -/
def rsplitOnce (separator : List Item) : List Item → Option (List Item × List Item)
  | [] => none
  | item :: rest =>
      match rsplitOnce separator rest with
      | some (before, after) => some (item :: before, after)
      | none =>
          if separator <+: item :: rest then some ([], (item :: rest).drop separator.length)
          else none

theorem eq_of_rsplitOnce {separator text before after : List Item}
    (split : rsplitOnce separator text = some (before, after)) :
    text = before ++ (separator ++ after) := by
  induction text generalizing before with
  | nil => cases split
  | cons item rest inductionHypothesis =>
      rw [rsplitOnce] at split
      cases later : rsplitOnce separator rest with
      | some parts =>
          rw [later] at split
          cases split
          rw [List.cons_append, ← inductionHypothesis later]
      | none =>
          rw [later] at split
          dsimp only at split
          split at split
          · rename_i starts
            cases split
            obtain ⟨after, whole⟩ := starts
            rw [List.nil_append, ← whole, List.drop_left]
          · cases split

theorem rsplitOnce_eq_none {first : Item} {more text : List Item} (absent : first ∉ text) :
    rsplitOnce (first :: more) text = none := by
  induction text with
  | nil => rfl
  | cons item rest inductionHypothesis =>
      rw [rsplitOnce, inductionHypothesis fun later => absent (List.mem_cons_of_mem item later)]
      refine if_neg fun starts => absent ?_
      have same : first = item := (List.cons_prefix_cons.mp starts).1
      rw [same]
      exact List.mem_cons_self ..

/-- The last occurrence is the one after which the separator does not begin again. -/
theorem rsplitOnce_append {first : Item} {more after : List Item} (before : List Item)
    (absent : first ∉ more ++ after) :
    rsplitOnce (first :: more) (before ++ (first :: more ++ after)) = some (before, after) := by
  induction before with
  | nil =>
      rw [List.nil_append, List.cons_append, rsplitOnce, rsplitOnce_eq_none absent]
      refine (if_pos ⟨after, rfl⟩).trans ?_
      rw [List.length_cons, List.drop_succ_cons, List.drop_left]
  | cons item rest inductionHypothesis =>
      rw [List.cons_append, rsplitOnce, inductionHypothesis]
