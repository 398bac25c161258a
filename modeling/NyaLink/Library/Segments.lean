import Mathlib.Data.List.Basic
import Mathlib.Data.List.TakeDrop

/-!
# Segments of a cut sequence

A sequence that was cut into chunks, and the two relations a transport needs:
`SegmentAt chunks offset chunk` says that `chunk` is the cut piece starting at
`offset`, and `CutAt chunks offset` that `offset` is a boundary between pieces.
A boundary never falls inside a piece, nonempty pieces are determined by their
offset, and appending pieces keeps the old ones in place.
-/

universe u

variable {Alpha : Type u}

/-- `chunk` is one of the chunks, and starts `offset` elements into the whole. -/
def SegmentAt (chunks : List (List Alpha)) (offset : Nat) (chunk : List Alpha) : Prop :=
  ∃ before after, chunks = before ++ chunk :: after ∧ offset = before.flatten.length

/-- `offset` lies on a boundary between chunks (or at either end). -/
def CutAt (chunks : List (List Alpha)) (offset : Nat) : Prop :=
  ∃ before after, chunks = before ++ after ∧ offset = before.flatten.length

theorem cutAt_zero (chunks : List (List Alpha)) : CutAt chunks 0 :=
  ⟨[], chunks, rfl, rfl⟩

theorem CutAt.append {chunks : List (List Alpha)} {offset : Nat} (cut : CutAt chunks offset)
    (more : List (List Alpha)) : CutAt (chunks ++ more) offset := by
  obtain ⟨before, after, rfl, rfl⟩ := cut
  exact ⟨before, after ++ more, List.append_assoc _ _ _, rfl⟩

theorem CutAt.le_length {chunks : List (List Alpha)} {offset : Nat}
    (cut : CutAt chunks offset) : offset ≤ chunks.flatten.length := by
  obtain ⟨before, after, rfl, rfl⟩ := cut
  simp

namespace SegmentAt

variable {chunks : List (List Alpha)} {offset : Nat} {chunk : List Alpha}

theorem append (segment : SegmentAt chunks offset chunk) (more : List (List Alpha)) :
    SegmentAt (chunks ++ more) offset chunk := by
  obtain ⟨before, after, rfl, rfl⟩ := segment
  exact ⟨before, after ++ more, by simp, rfl⟩

theorem last (chunks : List (List Alpha)) (chunk : List Alpha) :
    SegmentAt (chunks ++ [chunk]) chunks.flatten.length chunk :=
  ⟨chunks, [], rfl, rfl⟩

theorem cut (segment : SegmentAt chunks offset chunk) : CutAt chunks offset := by
  obtain ⟨before, after, rfl, rfl⟩ := segment
  exact ⟨before, chunk :: after, rfl, rfl⟩

theorem cut_end (segment : SegmentAt chunks offset chunk) :
    CutAt chunks (offset + chunk.length) := by
  obtain ⟨before, after, rfl, rfl⟩ := segment
  exact ⟨before ++ [chunk], after, by simp, by simp⟩

theorem end_le (segment : SegmentAt chunks offset chunk) :
    offset + chunk.length ≤ chunks.flatten.length :=
  segment.cut_end.le_length

theorem take_end (segment : SegmentAt chunks offset chunk) :
    chunks.flatten.take (offset + chunk.length) = chunks.flatten.take offset ++ chunk := by
  obtain ⟨before, after, rfl, rfl⟩ := segment
  simp [List.take_append]

theorem le_or_end_le_of_cut (segment : SegmentAt chunks offset chunk) {boundary : Nat}
    (cut : CutAt chunks boundary) : boundary ≤ offset ∨ offset + chunk.length ≤ boundary := by
  obtain ⟨before, after, rfl, rfl⟩ := segment
  obtain ⟨left, right, split, rfl⟩ := cut
  rcases List.append_eq_append_iff.mp split with ⟨middle, rfl, tail⟩ | ⟨middle, rfl, tail⟩
  · cases middle with
    | nil => exact .inl (by simp)
    | cons head rest =>
        obtain ⟨rfl, -⟩ := List.cons.inj tail
        refine .inr ?_
        simp only [List.flatten_append, List.flatten_cons, List.length_append]
        omega
  · exact .inl (by simp)

theorem eq_of_nonempty {other : List Alpha} (nonempty : ∀ piece ∈ chunks, piece ≠ [])
    (first : SegmentAt chunks offset chunk) (second : SegmentAt chunks offset other) :
    chunk = other := by
  obtain ⟨before, after, rfl, rfl⟩ := first
  obtain ⟨left, right, split, sameLength⟩ := second
  rcases List.append_eq_append_iff.mp split with ⟨middle, rfl, tail⟩ | ⟨middle, rfl, tail⟩
  · cases middle with
    | nil => exact (List.cons.inj tail).1
    | cons head rest =>
        obtain ⟨rfl, -⟩ := List.cons.inj tail
        have filled := List.length_pos_iff.mpr (nonempty chunk (by simp))
        simp only [List.flatten_append, List.flatten_cons, List.length_append] at sameLength
        omega
  · cases middle with
    | nil => exact (List.cons.inj tail).1.symm
    | cons head rest =>
        obtain ⟨rfl, -⟩ := List.cons.inj tail
        have filled := List.length_pos_iff.mpr (nonempty other (by simp))
        simp only [List.flatten_append, List.flatten_cons, List.length_append] at sameLength
        omega

end SegmentAt
