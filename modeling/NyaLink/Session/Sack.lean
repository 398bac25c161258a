import NyaLink.Library.Runs
import NyaLink.Session.Scheduler
import NyaLink.Stream.Conservation
import Mathlib.Algebra.Group.Nat.Defs

/-!
# What the SACK ranges say of the reorder buffer

`sack_ranges` describes the buffer by its maximal runs: the run of the newest
arrival, then the highest ones.  It computes the end of a piece in `u64`, and a
piece that takes the last byte of the offset space has no end there.
-/

namespace NyaLink.StreamState

/-- The byte at this offset waits in the reorder buffer. -/
def Buffered (st : StreamState) (position : Nat) : Prop := CoveredBy st.recvBuf.entries position

/-- The pieces of the reorder buffer, in order: none is empty, none reaches into a later one, and
each begins at a `u64`. -/
structure WellCut (st : StreamState) : Prop where
  nonempty : ∀ entry ∈ st.recvBuf.entries, entry.2 ≠ []
  apart : st.recvBuf.entries.Pairwise fun entry later => entry.1 + entry.2.length ≤ later.1
  begins : ∀ entry ∈ st.recvBuf.entries, entry.1 ≤ u64Max

/-- What an ACK should say of a set of buffered bytes, of which `newest` arrived last. -/
structure Describes (buffered : Nat → Prop) (newest : Nat) (ranges : List (Nat × Nat)) : Prop where
  maximal : ∀ range ∈ ranges, MaximalRun buffered range
  distinct : ranges.Nodup
  count : ∃ runs : Finset (Nat × Nat), (∀ run, run ∈ runs ↔ MaximalRun buffered run) ∧
    ranges.length = min maxSackRanges runs.card
  newestFirst : buffered newest → ∃ range, ranges.head? = some range ∧ Holds range newest
  highest : ∀ range ∈ ranges, ¬ Holds range newest → ∀ run, MaximalRun buffered run →
    run ∉ ranges → run.2 < range.1

/-- The end of a piece as a build without overflow checks computes it. -/
def pieceEnd (entry : Nat × Bytes) : Nat := (entry.1 + entry.2.length) % 2 ^ 64

def growRuns (runs : List (Nat × Nat)) (entry : Nat × Bytes) : List (Nat × Nat) :=
  match runs with
  | [] => [(entry.1, pieceEnd entry)]
  | last :: earlier =>
      if last.2 = entry.1 then (last.1, pieceEnd entry) :: earlier
      else (entry.1, pieceEnd entry) :: last :: earlier

/-- The runs `sack_ranges` finds, highest first. -/
def runs64 (st : StreamState) : List (Nat × Nat) := st.recvBuf.entries.foldl growRuns []

/-- The run of the newest arrival, then the highest runs. -/
def chooseRanges (runs : List (Nat × Nat)) (newest : Nat) : List (Nat × Nat) :=
  runs.foldl pushRange (runs.reverse.find? fun run =>
    decide (run.1 ≤ newest) && decide (newest < run.2)).toList

/-- `sack_ranges` in `u64`. -/
def sackRanges64 (st : StreamState) : List (Nat × Nat) :=
  chooseRanges st.runs64 st.lastHoleArrival

theorem chooseRanges_bufferedRuns (st : StreamState) :
    chooseRanges st.bufferedRuns st.lastHoleArrival = st.sackRanges := rfl

/-! ## The runs of the buffer -/

theorem covers_extendRuns {runs : List (Nat × Nat)} (separated : Separated runs)
    (entry : Nat × Bytes) (position : Nat) :
    Covers (extendRuns runs entry) position ↔
      Covers runs position ∨ entry.1 ≤ position ∧ position < entry.1 + entry.2.length := by
  cases runs with
  | nil => simp [extendRuns, Covers, Holds]
  | cons last earlier =>
      have nonempty := separated.nonempty last (List.mem_cons_self ..)
      simp only [extendRuns]
      split
      · rename_i touching
        simp only [Covers, Holds, List.mem_cons, exists_eq_or_imp]
        constructor
        · rintro (⟨low, high⟩ | inEarlier)
          · by_cases inLast : position < last.2
            · exact .inl (.inl ⟨low, inLast⟩)
            · exact .inr ⟨by omega, high⟩
          · exact .inl (.inr inEarlier)
        · rintro ((⟨low, high⟩ | inEarlier) | ⟨low, high⟩)
          · exact .inl ⟨low, by omega⟩
          · exact .inr inEarlier
          · exact .inl ⟨by omega, high⟩
      · simp only [Covers, Holds, List.mem_cons, exists_eq_or_imp]
        rw [or_comm]

theorem separated_extendRuns {runs : List (Nat × Nat)} (separated : Separated runs)
    {entry : Nat × Bytes} (nonempty : entry.2 ≠ []) (past : ∀ run ∈ runs, run.2 ≤ entry.1) :
    Separated (extendRuns runs entry) := by
  have long := List.length_pos_iff.mpr nonempty
  cases runs with
  | nil => exact separated.cons (by dsimp only; omega) fun _ inside => by cases inside
  | cons last earlier =>
      have lastBelow := past last (List.mem_cons_self ..)
      have lastNonempty := separated.nonempty last (List.mem_cons_self ..)
      have below := (List.pairwise_cons.mp separated.gaps).1
      simp only [extendRuns]
      split
      · exact separated.of_cons.cons (by dsimp only; omega) below
      · refine separated.cons (by dsimp only; omega) fun low inside => ?_
        rcases List.mem_cons.mp inside with rfl | inEarlier
        · dsimp only
          omega
        · have gap := below low inEarlier
          dsimp only
          omega

theorem end_le_extendRuns {runs : List (Nat × Nat)} {entry : Nat × Bytes} {bound : Nat}
    (past : ∀ run ∈ runs, run.2 ≤ entry.1) (fits : entry.1 + entry.2.length ≤ bound) :
    ∀ run ∈ extendRuns runs entry, run.2 ≤ bound := by
  have early : ∀ run ∈ runs, run.2 ≤ bound := fun run inside => by
    have le := past run inside
    omega
  intro run inside
  cases runs with
  | nil =>
      obtain rfl := List.mem_singleton.mp inside
      exact fits
  | cons last earlier =>
      simp only [extendRuns] at inside
      split at inside
      · rcases List.mem_cons.mp inside with rfl | inEarlier
        · exact fits
        · exact early run (List.mem_cons_of_mem _ inEarlier)
      · rcases List.mem_cons.mp inside with rfl | inRuns
        · exact fits
        · exact early run inRuns

/-- The induction is on the pieces: all runs so far end at or before the next piece. -/
theorem foldl_extendRuns_separated (entries : List (Nat × Bytes)) {runs : List (Nat × Nat)}
    (nonempty : ∀ entry ∈ entries, entry.2 ≠ [])
    (apart : entries.Pairwise fun entry later => entry.1 + entry.2.length ≤ later.1)
    (separated : Separated runs)
    (past : ∀ entry ∈ entries, ∀ run ∈ runs, run.2 ≤ entry.1) :
    Separated (entries.foldl extendRuns runs) ∧ ∀ position,
      Covers (entries.foldl extendRuns runs) position ↔
        Covers runs position ∨ CoveredBy entries position := by
  induction entries generalizing runs with
  | nil => exact ⟨separated, fun position => by simp [CoveredBy]⟩
  | cons entry rest inductionHypothesis =>
      obtain ⟨before, apartRest⟩ := List.pairwise_cons.mp apart
      have pastHere := past entry (List.mem_cons_self ..)
      have grown := separated_extendRuns separated (nonempty entry (List.mem_cons_self ..)) pastHere
      obtain ⟨whole, covers⟩ := inductionHypothesis
        (fun other inside => nonempty other (List.mem_cons_of_mem _ inside)) apartRest grown
        fun other inside => end_le_extendRuns pastHere (before other inside)
      refine ⟨whole, fun position => ?_⟩
      rw [List.foldl_cons, covers, covers_extendRuns separated]
      simp only [CoveredBy, List.mem_cons, exists_eq_or_imp, or_assoc]

theorem WellCut.separated {st : StreamState} (wellCut : st.WellCut) :
    Separated st.bufferedRuns :=
  (foldl_extendRuns_separated _ wellCut.nonempty wellCut.apart .nil
    fun _ _ _ inside => by cases inside).1

theorem WellCut.covers {st : StreamState} (wellCut : st.WellCut) (position : Nat) :
    Covers st.bufferedRuns position ↔ st.Buffered position := by
  have covers := (foldl_extendRuns_separated _ wellCut.nonempty wellCut.apart .nil
    fun _ _ _ inside => by cases inside).2
  refine (covers position).trans (or_iff_right ?_)
  rintro ⟨_, inside, _⟩
  cases inside

/-! ## The ranges that are sent -/

theorem foldl_pushRange_eq {runs : List (Nat × Nat)} (distinct : runs.Nodup)
    (out : List (Nat × Nat)) :
    runs.foldl pushRange out =
      out ++ (runs.filter fun run => run ∉ out).take (maxSackRanges - out.length) := by
  induction runs generalizing out with
  | nil => simp
  | cons head rest inductionHypothesis =>
      obtain ⟨fresh, distinctRest⟩ := List.nodup_cons.mp distinct
      rw [List.foldl_cons, inductionHypothesis distinctRest, pushRange]
      split
      · rename_i full
        rw [Nat.sub_eq_zero_of_le full, List.take_zero, List.take_zero]
      · rename_i space
        split
        · rename_i sent
          rw [List.filter_cons_of_neg (by simpa using sent)]
        · rename_i unsent
          have others : (rest.filter fun run => run ∉ out ++ [head]) =
              rest.filter fun run => run ∉ out := by
            refine List.filter_congr fun run inRest => ?_
            have different : run ≠ head := fun same => fresh (same ▸ inRest)
            simp [different]
          have left : maxSackRanges - out.length =
              maxSackRanges - (out ++ [head]).length + 1 := by
            rw [List.length_append, List.length_singleton]
            omega
          rw [List.filter_cons_of_pos (by simpa using unsent), others, left, List.take_succ_cons,
            List.append_assoc, List.singleton_append]

/-- `first` is what `sack_ranges` sends before the highest runs. -/
structure Newest (runs : List (Nat × Nat)) (newest : Nat) (first : List (Nat × Nat)) : Prop where
  short : first.length ≤ 1
  among : ∀ run ∈ first, run ∈ runs ∧ Holds run newest
  found : Covers runs newest → first ≠ []

theorem newest_find? (runs : List (Nat × Nat)) (newest : Nat) :
    Newest runs newest (runs.reverse.find? fun run =>
      decide (run.1 ≤ newest) && decide (newest < run.2)).toList := by
  cases found : runs.reverse.find? fun run =>
      decide (run.1 ≤ newest) && decide (newest < run.2) with
  | none =>
      refine ⟨Nat.zero_le _, fun _ inside => absurd inside List.not_mem_nil, ?_⟩
      rintro ⟨run, inside, low, high⟩
      have misses := List.find?_eq_none.mp found run (List.mem_reverse.mpr inside)
      simp only [low, high, decide_true, Bool.and_self, not_true_eq_false] at misses
  | some run =>
      refine ⟨Nat.le_refl _, fun other inside => ?_, fun _ => List.cons_ne_nil _ _⟩
      obtain rfl := List.mem_singleton.mp inside
      have holds := List.find?_some found
      rw [Bool.and_eq_true, decide_eq_true_iff, decide_eq_true_iff] at holds
      exact ⟨List.mem_reverse.mp (List.mem_of_find?_eq_some found), holds⟩

section

variable {runs first : List (Nat × Nat)} {newest : Nat}

theorem Newest.nodup (chosen : Newest runs newest first) : first.Nodup := by
  cases first with
  | nil => exact List.nodup_nil
  | cons run rest =>
      have short := chosen.short
      rw [List.length_cons] at short
      obtain rfl := List.length_eq_zero_iff.mp (by omega : rest.length = 0)
      exact List.nodup_singleton run

theorem Newest.length_others (chosen : Newest runs newest first) (distinct : runs.Nodup) :
    first.length + (runs.filter fun run => run ∉ first).length = runs.length := by
  have same : (runs.filter fun run => run ∈ first).Perm first := by
    refine (List.perm_ext_iff_of_nodup (distinct.filter _) chosen.nodup).mpr fun run => ?_
    simpa using fun inside => (chosen.among run inside).1
  rw [← same.length_eq, ← List.countP_eq_length_filter, ← List.countP_eq_length_filter]
  have total := List.length_eq_countP_add_countP (fun run => decide (run ∈ first)) (l := runs)
  rw [total]
  simp

end

theorem describes_chooseRanges {runs : List (Nat × Nat)} {buffered : Nat → Prop}
    (separated : Separated runs) (covers : ∀ position, Covers runs position ↔ buffered position)
    (newest : Nat) : Describes buffered newest (chooseRanges runs newest) := by
  have maximal := separated.mem_iff_maximalRun covers
  have chosen := newest_find? runs newest
  unfold chooseRanges
  generalize (runs.reverse.find? fun run =>
    decide (run.1 ≤ newest) && decide (newest < run.2)).toList = first at chosen ⊢
  rw [foldl_pushRange_eq separated.nodup]
  have among : ∀ range ∈ first ++ (runs.filter fun run => run ∉ first).take
      (maxSackRanges - first.length), range ∈ runs := by
    intro range sent
    rcases List.mem_append.mp sent with inFirst | inOthers
    · exact (chosen.among range inFirst).1
    · exact (List.mem_filter.mp (List.mem_of_mem_take inOthers)).1
  refine ⟨fun range sent => (maximal range).mp (among range sent), ?_, ?_, ?_, ?_⟩
  · refine List.nodup_append'.mpr ⟨chosen.nodup,
      (separated.nodup.filter _).sublist (List.take_sublist _ _), fun range inFirst inOthers => ?_⟩
    have unsent := (List.mem_filter.mp (List.mem_of_mem_take inOthers)).2
    exact of_decide_eq_true unsent inFirst
  · refine ⟨runs.toFinset, fun run => List.mem_toFinset.trans (maximal run), ?_⟩
    have total := chosen.length_others separated.nodup
    have short := chosen.short
    rw [separated.card_toFinset, List.length_append, List.length_take, ← total]
    unfold maxSackRanges
    omega
  · intro held
    obtain ⟨range, rest, rfl⟩ :=
      List.exists_cons_of_ne_nil (chosen.found ((covers newest).mpr held))
    exact ⟨range, rfl, (chosen.among range (List.mem_cons_self ..)).2⟩
  · intro range sent misses run maximalRun unsent
    have inRuns := (maximal run).mpr maximalRun
    simp only [List.mem_append, not_or] at sent unsent
    rcases sent with inFirst | inOthers
    · exact absurd (chosen.among range inFirst).2 misses
    · refine separated.lt_of_mem_take inOthers (List.mem_filter.mpr ⟨inRuns, ?_⟩) unsent.2
      exact decide_eq_true unsent.1

theorem WellCut.describes {st : StreamState} (wellCut : st.WellCut) :
    Describes st.Buffered st.lastHoleArrival st.sackRanges := by
  rw [← chooseRanges_bufferedRuns]
  exact describes_chooseRanges wellCut.separated wellCut.covers _

/-! ## Ends in `u64` -/

/-- The highest run with its end as a `u64`. -/
def wrapTop : List (Nat × Nat) → List (Nat × Nat)
  | [] => []
  | top :: rest => (top.1, top.2 % 2 ^ 64) :: rest

theorem growRuns_eq_wrapTop (runs : List (Nat × Nat)) (entry : Nat × Bytes) :
    growRuns runs entry = wrapTop (extendRuns runs entry) := by
  cases runs with
  | nil => rfl
  | cons last earlier =>
      simp only [growRuns, extendRuns]
      split
      · rfl
      · rfl

theorem foldl_growRuns_of_fits (entries : List (Nat × Bytes)) (runs : List (Nat × Nat))
    (fits : ∀ entry ∈ entries, entry.1 + entry.2.length ≤ u64Max) :
    entries.foldl growRuns runs = entries.foldl extendRuns runs := by
  refine List.foldl_ext _ _ _ fun runs entry inside => ?_
  have exactEnd : pieceEnd entry = entry.1 + entry.2.length :=
    Nat.mod_eq_of_lt (Nat.lt_of_le_of_lt (fits entry inside) (by decide))
  cases runs with
  | nil => simp only [growRuns, extendRuns, exactEnd]
  | cons last earlier => simp only [growRuns, extendRuns, exactEnd]

theorem WellCut.runs64_eq {st : StreamState} (wellCut : st.WellCut) :
    st.runs64 = wrapTop st.bufferedRuns := by
  have apart := wellCut.apart
  have begins := wellCut.begins
  unfold runs64 bufferedRuns
  rcases List.eq_nil_or_concat st.recvBuf.entries with none | ⟨before, last, same⟩
  · rw [none]
    rfl
  · rw [same, List.concat_eq_append] at apart begins ⊢
    have fits : ∀ entry ∈ before, entry.1 + entry.2.length ≤ u64Max := fun entry inside =>
      ((List.pairwise_append.mp apart).2.2 entry inside last (List.mem_singleton_self _)).trans
        (begins last (List.mem_append_right _ (List.mem_singleton_self _)))
    rw [List.foldl_append, List.foldl_append, foldl_growRuns_of_fits before [] fits]
    exact growRuns_eq_wrapTop _ last

theorem mem_foldl_pushRange {run : Nat × Nat} (runs : List (Nat × Nat)) {out : List (Nat × Nat)}
    (sent : run ∈ out) : run ∈ runs.foldl pushRange out := by
  induction runs generalizing out with
  | nil => exact sent
  | cons head rest inductionHypothesis =>
      apply inductionHypothesis
      unfold pushRange
      split
      · exact sent
      · split
        · exact sent
        · exact List.mem_append_left _ sent

theorem top_mem_chooseRanges (top : Nat × Nat) (rest : List (Nat × Nat)) (newest : Nat) :
    top ∈ chooseRanges (top :: rest) newest := by
  have short := (newest_find? (top :: rest) newest).short
  unfold chooseRanges
  rw [List.foldl_cons]
  apply mem_foldl_pushRange
  unfold pushRange
  split
  · rename_i full
    exact absurd (full.trans short) (by decide)
  · split
    · assumption
    · exact List.mem_append_right _ (List.mem_singleton_self _)

/-- SACK ranges describe the buffer exactly when every piece of it ends at a `u64`. -/
theorem sackRanges64_describes_iff {st : StreamState} (wellCut : st.WellCut) :
    Describes st.Buffered st.lastHoleArrival st.sackRanges64 ↔
      ∀ entry ∈ st.recvBuf.entries, entry.1 + entry.2.length ≤ u64Max := by
  constructor
  · intro describes entry held
    by_contra beyond
    have long := List.length_pos_iff.mpr (wellCut.nonempty entry held)
    have last : st.Buffered (entry.1 + entry.2.length - 1) :=
      ⟨entry, held, by omega, by omega⟩
    obtain ⟨run, inside, -, high⟩ := (wellCut.covers _).mpr last
    have same := wellCut.runs64_eq
    have maximal := wellCut.separated.mem_iff_maximalRun wellCut.covers
    have separated := wellCut.separated
    generalize st.bufferedRuns = runs at inside same maximal separated
    cases runs with
    | nil => cases inside
    | cons top rest =>
        have topBeyond : u64Max < top.2 := by
          rcases List.mem_cons.mp inside with rfl | below
          · omega
          · have gap := (List.pairwise_cons.mp separated.gaps).1 run below
            have nonempty := separated.nonempty top (List.mem_cons_self ..)
            omega
        have sent : (top.1, top.2 % 2 ^ 64) ∈ st.sackRanges64 := by
          unfold sackRanges64
          rw [same]
          exact top_mem_chooseRanges _ _ _
        have wrapped := describes.maximal _ sent
        have whole := (maximal top).mp (List.mem_cons_self ..)
        have small : top.2 % 2 ^ 64 < 2 ^ 64 := Nat.mod_lt _ (by decide)
        -- The wrapped end lies inside the run, where every byte is buffered.
        refine wrapped.after (whole.inside _ (Nat.le_of_lt wrapped.nonempty) ?_)
        unfold u64Max at topBeyond
        dsimp only
        omega
  · intro fits
    have same : st.runs64 = st.bufferedRuns := foldl_growRuns_of_fits _ [] fits
    unfold sackRanges64
    rw [same, chooseRanges_bufferedRuns]
    exact wellCut.describes

def twoRuns : StreamState :=
  (((new 1 65536 8).bufferChunk 5 [1, 2]).bufferChunk 20 [3]).bufferChunk 7 [4]

theorem sackRanges64_describes_two_runs :
    Describes twoRuns.Buffered twoRuns.lastHoleArrival twoRuns.sackRanges64 ∧
      twoRuns.sackRanges64 = [(5, 8), (20, 21)] := by
  have wellCut : twoRuns.WellCut := ⟨by decide, by decide, by decide⟩
  exact ⟨(sackRanges64_describes_iff wellCut).mpr (by decide), by decide⟩

def lastByte : StreamState := (new 1 65536 8).bufferChunk 18446744073709551615 [7]

/-- Its range ends before it begins. -/
theorem lastByte_not_described : lastByte.WellCut ∧
    (∀ entry ∈ lastByte.recvBuf.entries, lastByte.recvNext < entry.1) ∧
    lastByte.sackRanges64 = [(18446744073709551615, 0)] ∧
    ¬ Describes lastByte.Buffered lastByte.lastHoleArrival lastByte.sackRanges64 := by
  have ranges : lastByte.sackRanges64 = [(18446744073709551615, 0)] := by decide
  refine ⟨⟨by decide, by decide, by decide⟩, by decide, ranges, fun describes => ?_⟩
  have range := describes.maximal (18446744073709551615, 0) (by rw [ranges]; decide)
  exact absurd range.nonempty (by decide)

/-! ## Honest senders -/

/-- The pieces of a sender are apart and end below what it has sent. -/
theorem wellCut_of_flow {sender receiver : Endpoint} (flow : Flow sender receiver)
    (short : sender.st.sendNext ≤ u64Max) : receiver.st.WellCut ∧
      ∀ entry ∈ receiver.st.recvBuf.entries, entry.1 + entry.2.length ≤ u64Max := by
  have segment : ∀ entry ∈ receiver.st.recvBuf.entries,
      SegmentAt sender.pieces entry.1 entry.2 := fun entry inside =>
    (flow.receiving.buffered _ _ (OrdMap.get?_eq_some_iff.mpr inside)).2
  have fits : ∀ entry ∈ receiver.st.recvBuf.entries, entry.1 + entry.2.length ≤ u64Max :=
    fun entry inside => (flow.sent ▸ (segment entry inside).end_le).trans short
  refine ⟨⟨fun entry inside => ?_, ?_, fun entry inside => ?_⟩, fits⟩
  · obtain ⟨before, after, same, -⟩ := segment entry inside
    exact flow.nonempty _ (same ▸ List.mem_append_right before (List.mem_cons_self ..))
  · refine receiver.st.recvBuf.sorted.imp_of_mem fun {entry later} inside also below => ?_
    exact ((segment entry inside).le_or_end_le_of_cut (segment later also).cut).resolve_left
      (Nat.not_le.mpr below)
  · exact (Nat.le_add_right _ _).trans (fits entry inside)

/-- On a link with an honest sender every ACK describes the buffer. -/
theorem describes_of_reachable {link : Link} (reachable : Link.machine.Reachable link) (side : Side)
    (short : (link.endAt side).st.sendNext ≤ u64Max) :
    Describes (link.endAt side.other).st.Buffered (link.endAt side.other).st.lastHoleArrival
      (link.endAt side.other).st.sackRanges64 := by
  obtain ⟨wellCut, fits⟩ := wellCut_of_flow ((sound_of_reachable reachable).flows side) short
  exact (sackRanges64_describes_iff wellCut).mpr fits

end NyaLink.StreamState
