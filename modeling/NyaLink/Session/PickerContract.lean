import NyaLink.Session.Picker
import Mathlib.Data.List.Nodup

/-!
# What the pickers promise

Every picker is a least element of a list of candidates, under a key that ends in
the id.  So it finds a path when there is a candidate, the order of the table does
not matter, and ties go to the smallest id.
-/

namespace NyaLink

variable {cfg : PickConfig} {now : Nat}

/-! ## Keys -/

/-- A score, then a known RTT first, then the id. -/
def scoreKey (score : Nat × Bool × Nat) : Nat ×ₗ Bool ×ₗ Nat :=
  toLex (score.1, toLex (!score.2.1, score.2.2))

/-- A known RTT first, then the freshest receive, the score and the id. -/
def rxKey (cfg : SessionConfig) (now : Nat) (entry : Nat × Path) : Bool ×ₗ Nat ×ₗ Nat ×ₗ Nat :=
  toLex (!entry.2.rttKnown,
    toLex (entry.2.lastRxAgo now, toLex (pathScore cfg entry.2, entry.1)))

theorem betterScored_iff (best p : Nat × Bool × Nat) :
    betterScored best p = true ↔ scoreKey p < scoreKey best := by
  obtain ⟨bestScore, bestKnown, bestId⟩ := best
  obtain ⟨score, known, id⟩ := p
  simp only [betterScored, scoreKey, Prod.Lex.toLex_lt_toLex, Bool.or_eq_true, Bool.and_eq_true,
    decide_eq_true_eq, beq_iff_eq, Bool.not_eq_true', Bool.lt_iff, Bool.not_eq_false']
  cases known <;> cases bestKnown <;> simp

theorem betterRx_iff {cfg : SessionConfig} (best p : Nat × Path) :
    betterRx cfg now best p = true ↔ rxKey cfg now p < rxKey cfg now best := by
  simp only [betterRx, rxKey, Prod.Lex.toLex_lt_toLex, Bool.or_eq_true, Bool.and_eq_true,
    decide_eq_true_eq, beq_iff_eq, Bool.not_eq_true', Bool.lt_iff, Bool.not_eq_false']
  cases p.2.rttKnown <;> cases best.2.rttKnown <;> simp [or_assoc, and_assoc, and_or_left]

/-! ## The scans -/

theorem pathScorePref_le (pref : PickPref) (p : Path) : pathScorePref cfg pref p ≤ u64Max :=
  min_le_right _ _

theorem pickFromScored_eq (pref : PickPref) (cands : List (Nat × Path)) :
    pickFromScored cfg pref cands =
      ((cands.map (scored cfg pref)).argmin scoreKey).map fun best => best.2.2 := by
  cases cands with
  | nil => rfl
  | cons first rest =>
      rw [List.map_cons, Choice.argmin_cons_eq_foldl betterScored_iff, List.foldl_map]
      have begun : (if betterScored (u64Max, first.2.rttKnown, first.1) (scored cfg pref first)
          then scored cfg pref first else (u64Max, first.2.rttKnown, first.1)) =
          scored cfg pref first := by
        by_cases lower : pathScorePref cfg pref first.2 < u64Max
        · exact if_pos (by simp [betterScored, scored, lower])
        · have highest : pathScorePref cfg pref first.2 = u64Max :=
            le_antisymm (pathScorePref_le pref first.2) (not_lt.mp lower)
          rw [scored, highest]
          exact ite_self _
      simp only [pickFromScored, List.foldl_cons, begun, Option.map_some]

theorem pickMinRx_eq {cfg : SessionConfig} (cands : List (Nat × Path)) :
    pickMinRx cfg now cands = (cands.argmin (rxKey cfg now)).map Prod.fst := by
  cases cands with
  | nil => rfl
  | cons first rest =>
      rw [Choice.argmin_cons_eq_foldl betterRx_iff]
      rfl

theorem pickFromScored_isSome {pref : PickPref} {cands : List (Nat × Path)} :
    (pickFromScored cfg pref cands).isSome = true ↔ cands ≠ [] := by
  cases cands with
  | nil => simp [pickFromScored]
  | cons first rest => simp [pickFromScored]

theorem pickFromScored_least {pref : PickPref} {cands : List (Nat × Path)} {id : Nat}
    (picked : pickFromScored cfg pref cands = some id) :
    ∃ p, (id, p) ∈ cands ∧ ∀ entry ∈ cands,
      scoreKey (scored cfg pref (id, p)) ≤ scoreKey (scored cfg pref entry) := by
  rw [pickFromScored_eq, Option.map_eq_some_iff] at picked
  obtain ⟨best, least, rfl⟩ := picked
  obtain ⟨⟨id, p⟩, membership, rfl⟩ := List.mem_map.mp (List.argmin_mem least)
  exact ⟨p, membership, fun entry present =>
    List.le_of_mem_argmin (List.mem_map_of_mem present) least⟩

theorem pickMinRx_least {cfg : SessionConfig} {cands : List (Nat × Path)} {id : Nat}
    (picked : pickMinRx cfg now cands = some id) :
    ∃ p, (id, p) ∈ cands ∧ ∀ entry ∈ cands, rxKey cfg now (id, p) ≤ rxKey cfg now entry := by
  rw [pickMinRx_eq, Option.map_eq_some_iff] at picked
  obtain ⟨⟨best, p⟩, least, rfl⟩ := picked
  exact ⟨p, List.argmin_mem least, fun entry present => List.le_of_mem_argmin present least⟩

theorem pickFromScored_perm {cands other : List (Nat × Path)} (pref : PickPref)
    (permuted : cands.Perm other) :
    pickFromScored cfg pref cands = pickFromScored cfg pref other := by
  have keys := Choice.argmin_key_perm scoreKey (permuted.map (scored cfg pref))
  have ids := congrArg (Option.map fun key => (ofLex (ofLex key).2).2) keys
  simp only [Option.map_map] at ids
  rw [pickFromScored_eq, pickFromScored_eq]
  exact ids

theorem pickMinRx_perm {cfg : SessionConfig} {cands other : List (Nat × Path)}
    (permuted : cands.Perm other) : pickMinRx cfg now cands = pickMinRx cfg now other := by
  have keys := Choice.argmin_key_perm (rxKey cfg now) permuted
  have ids := congrArg (Option.map fun key => (ofLex (ofLex (ofLex key).2).2).2) keys
  simp only [Option.map_map] at ids
  rw [pickMinRx_eq, pickMinRx_eq]
  exact ids

/-! ## What the classes keep -/

theorem mem_classCandidates {paths : List (Nat × Path)} {entry : Nat × Path}
    (membership : entry ∈ classCandidates cfg paths) :
    entry ∈ paths ∧ entry.2.isAlive = true := by
  have fromAlive : entry ∈ paths.filter fun entry => entry.2.isAlive := by
    rcases Choice.mem_orIfEmpty_cases membership with usable | ⟨-, membership⟩
    · exact List.mem_of_mem_filter usable
    · rcases Choice.mem_orIfEmpty_cases membership with schedulable | ⟨-, membership⟩
      · exact List.mem_of_mem_filter schedulable
      · rcases Choice.mem_orIfEmpty_cases membership with up | ⟨-, alive⟩
        · exact List.mem_of_mem_filter up
        · exact alive
  exact List.mem_filter.mp fromAlive

theorem classCandidates_ne_nil {paths : List (Nat × Path)} {entry : Nat × Path}
    (membership : entry ∈ paths) (alive : entry.2.isAlive = true) :
    classCandidates cfg paths ≠ [] := by
  intro empty
  have noneAlive := (Choice.orIfEmpty_eq_nil.mp
    (Choice.orIfEmpty_eq_nil.mp (Choice.orIfEmpty_eq_nil.mp empty).2).2).2
  have present : entry ∈ paths.filter fun entry => entry.2.isAlive :=
    List.mem_filter.mpr ⟨membership, alive⟩
  rw [noneAlive] at present
  cases present

theorem schedulable_classCandidates {paths : List (Nat × Path)} {entry other : Nat × Path}
    (membership : entry ∈ classCandidates cfg paths) (present : other ∈ paths)
    (schedulable : other.2.isSchedulable = true) : entry.2.isSchedulable = true := by
  have alive := Path.isAlive_of_isSchedulable schedulable
  rcases Choice.mem_orIfEmpty_cases membership with usable | ⟨-, membership⟩
  · have kept := (List.mem_filter.mp usable).2
    simp only [isUsable, Bool.and_eq_true] at kept
    exact kept.1.1
  · rw [Choice.orIfEmpty_of_mem (List.mem_filter.mpr
      ⟨List.mem_filter.mpr ⟨present, alive⟩, schedulable⟩)] at membership
    exact (List.mem_filter.mp membership).2

theorem mem_fastestClassSet {paths : List (Nat × Path)} {entry : Nat × Path}
    (membership : entry ∈ fastestClassSet cfg paths) : entry ∈ classCandidates cfg paths := by
  simp only [fastestClassSet] at membership
  split at membership
  · exact membership
  · exact Choice.mem_of_mem_filterOrAll membership

theorem fastestClassSet_eq_nil {paths : List (Nat × Path)} :
    fastestClassSet cfg paths = [] ↔ classCandidates cfg paths = [] := by
  simp only [fastestClassSet]
  split
  · exact Iff.rfl
  · exact Choice.filterOrAll_eq_nil

theorem mem_classSet {pref : PickPref} {paths : List (Nat × Path)} {entry : Nat × Path}
    (membership : entry ∈ classSet cfg pref paths) : entry ∈ fastestClassSet cfg paths := by
  cases pref with
  | any => exact membership
  | interactive =>
      simp only [classSet, interactiveClassSet] at membership
      split at membership
      · exact membership
      · exact Choice.mem_of_mem_filterOrAll membership

theorem classSet_eq_nil {pref : PickPref} {paths : List (Nat × Path)} :
    classSet cfg pref paths = [] ↔ classCandidates cfg paths = [] := by
  rw [← fastestClassSet_eq_nil]
  cases pref with
  | any => exact Iff.rfl
  | interactive =>
      simp only [classSet, interactiveClassSet]
      split
      · exact Iff.rfl
      · exact Choice.filterOrAll_eq_nil

theorem classSet_ne_nil_iff {pref : PickPref} {paths : List (Nat × Path)} :
    classSet cfg pref paths ≠ [] ↔ ∃ entry ∈ paths, entry.2.isAlive = true := by
  constructor
  · intro inhabited
    obtain ⟨entry, membership⟩ := List.exists_mem_of_ne_nil _ inhabited
    exact ⟨entry, mem_classCandidates (mem_fastestClassSet (mem_classSet membership))⟩
  · rintro ⟨entry, membership, alive⟩ empty
    exact classCandidates_ne_nil membership alive (classSet_eq_nil.mp empty)

/-! ## The order of the table -/

theorem leastClassRtt_perm {paths other : List (Nat × Path)} (known : Path → Bool)
    (permuted : paths.Perm other) :
    leastClassRtt cfg known paths = leastClassRtt cfg known other :=
  Choice.min?_perm ((permuted.filter _).map _)

theorem minClassRtt_perm {paths other : List (Nat × Path)} (permuted : paths.Perm other) :
    minClassRtt cfg paths = minClassRtt cfg other := by
  simp only [minClassRtt, leastClassRtt_perm _ permuted]

theorem classCandidates_perm {paths other : List (Nat × Path)} (permuted : paths.Perm other) :
    (classCandidates cfg paths).Perm (classCandidates cfg other) := by
  have alive := permuted.filter fun entry : Nat × Path => entry.2.isAlive
  unfold classCandidates
  simp only [minClassRtt_perm alive]
  exact Choice.orIfEmpty_perm (alive.filter _)
    (Choice.orIfEmpty_perm (alive.filter _) (Choice.orIfEmpty_perm (alive.filter _) alive))

theorem fastestClassSet_perm {paths other : List (Nat × Path)} (permuted : paths.Perm other) :
    (fastestClassSet cfg paths).Perm (fastestClassSet cfg other) := by
  have cands : (classCandidates cfg paths).Perm (classCandidates cfg other) :=
    classCandidates_perm permuted
  unfold fastestClassSet
  simp only [bestClassRtt, leastClassRtt_perm _ cands]
  split
  · exact cands
  · exact Choice.filterOrAll_perm _ cands

theorem interactiveBest_perm {base other : List (Nat × Path)} (permuted : base.Perm other) :
    interactiveBest cfg base = interactiveBest cfg other := by
  have source := Choice.filterOrAll_perm
    (fun entry : Nat × Path =>
      !entry.2.classKnown || !classJump cfg entry.2.rttUs entry.2.classRtt) permuted
  unfold interactiveBest
  simp only [Choice.min?_perm (source.map fun entry => interactiveBestRtt cfg entry.2),
    Choice.min?_perm ((source.filter fun entry => entry.2.classKnown).map fun entry =>
      entry.2.classRtt)]

theorem classSet_perm {paths other : List (Nat × Path)} (pref : PickPref)
    (permuted : paths.Perm other) : (classSet cfg pref paths).Perm (classSet cfg pref other) := by
  have base : (fastestClassSet cfg paths).Perm (fastestClassSet cfg other) :=
    fastestClassSet_perm permuted
  cases pref with
  | any => exact base
  | interactive =>
      simp only [classSet, interactiveClassSet, interactiveBest_perm base]
      split
      · exact base
      · exact Choice.filterOrAll_perm _ base

section

variable (budgets : Nat → PathBudget) (poolRef : Option Nat) (hasInteractive : Nat → Bool)

theorem bulkCandidates_perm {paths other : List (Nat × Path)} (exclude : Option Nat)
    (permuted : paths.Perm other) :
    (bulkCandidates cfg now budgets poolRef hasInteractive exclude paths).Perm
      (bulkCandidates cfg now budgets poolRef hasInteractive exclude other) := by
  have members : (fastestClassSet cfg paths).Perm (fastestClassSet cfg other) :=
    fastestClassSet_perm permuted
  have schedulable := members.filter fun entry =>
    entry.2.isSchedulable && decide (some entry.1 ≠ exclude)
  have room := (Choice.filterOrAll_perm (quietFreshOf cfg now) schedulable).filter
    (hasRoomOf budgets)
  exact Choice.filterOrAll_perm _ (Choice.filterOrAll_perm _ room)

theorem overflowCandidates_perm {paths other : List (Nat × Path)} (sticky : Nat)
    (permuted : paths.Perm other) :
    (overflowCandidates cfg now budgets poolRef hasInteractive sticky paths).Perm
      (overflowCandidates cfg now budgets poolRef hasInteractive sticky other) := by
  have members : (fastestClassSet cfg paths).Perm (fastestClassSet cfg other) :=
    fastestClassSet_perm permuted
  have fit := members.filter fun entry =>
    decide (entry.1 ≠ sticky) && entry.2.isSchedulable && quietFreshOf cfg now entry &&
      loopFitOf cfg now budgets poolRef entry
  exact Choice.filterOrAll_perm _ (fit.filter (hasRoomOf budgets))

end

/-! ## The rungs of a retry -/

/-- The link a retry leaves first: the link of the path tried last. -/
def lastTriedLink (paths : List (Nat × Path)) (tried : List Nat) : Option String :=
  tried.getLast?.bind fun id =>
    (paths.find? fun entry => entry.1 = id).map fun entry => entry.2.link

def isUntried (tried : List Nat) (entry : Nat × Path) : Bool := !tried.contains entry.1

def isFreshUntried (cfg : SessionConfig) (now : Nat) (tried : List Nat) (entry : Nat × Path) :
    Bool :=
  isUntried tried entry && isLossFresh cfg now entry.2 && entry.2.isSchedulable

def isOtherThanLast (tried : List Nat) (entry : Nat × Path) : Bool :=
  entry.2.isAlive && tried.getLast?.all fun id => entry.1 ≠ id

def isOnOtherLink (avoidLink : Option String) (entry : Nat × Path) : Bool :=
  avoidLink.all fun link => entry.2.link ≠ link

/-- The candidates of the first rung that has any. -/
def retryCandidates (cfg : SessionConfig) (now : Nat) (paths : List (Nat × Path))
    (tried : List Nat) : List (Nat × Path) :=
  Choice.orIfEmpty
    (paths.filter fun entry => isFreshUntried cfg now tried entry &&
      isOnOtherLink (lastTriedLink paths tried) entry)
    (Choice.orIfEmpty (paths.filter (isFreshUntried cfg now tried))
      (Choice.orIfEmpty
        (paths.filter fun entry => isUntried tried entry && entry.2.isSchedulable)
        (Choice.orIfEmpty
          (paths.filter fun entry => isUntried tried entry && entry.2.isAlive)
          (paths.filter (isOtherThanLast tried)))))

theorem pickMinRx_orIfEmpty {cfg : SessionConfig} (cands fallback : List (Nat × Path)) :
    pickMinRx cfg now (Choice.orIfEmpty cands fallback) =
      (pickMinRx cfg now cands).or (pickMinRx cfg now fallback) := by
  cases cands with
  | nil => rfl
  | cons first rest => rfl

theorem pickRung_none {cfg : SessionConfig} (paths : List (Nat × Path))
    (eligible : Nat × Path → Bool) :
    pickRung cfg now paths none eligible = pickMinRx cfg now (paths.filter eligible) := by
  simp only [pickRung, Option.all_none, Bool.and_true]

theorem pickRetryPath_eq (cfg : SessionConfig) (now : Nat) (paths : List (Nat × Path))
    (tried : List Nat) :
    pickRetryPath cfg now paths tried = pickMinRx cfg now
      (retryCandidates cfg now paths tried) := by
  simp only [retryCandidates, pickMinRx_orIfEmpty, pickRetryPath, pickRung_none]
  simp only [← Option.or_assoc]
  rfl

/-- The rung a candidate comes from, and that the rungs before it were empty. -/
theorem mem_retryCandidates {cfg : SessionConfig} {paths : List (Nat × Path)} {tried : List Nat}
    {entry : Nat × Path} (membership : entry ∈ retryCandidates cfg now paths tried) :
    entry ∈ paths ∧
      (isFreshUntried cfg now tried entry = true ∧
          isOnOtherLink (lastTriedLink paths tried) entry = true ∨
        (∀ other ∈ paths, isFreshUntried cfg now tried other = true →
          isOnOtherLink (lastTriedLink paths tried) other = false) ∧
          (isUntried tried entry = true ∧ entry.2.isAlive = true ∨
            (∀ other ∈ paths, isUntried tried other = true → other.2.isAlive = false) ∧
              isOtherThanLast tried entry = true)) := by
  rcases Choice.mem_orIfEmpty_cases membership with fresh | ⟨noneFresh, membership⟩
  · rw [List.mem_filter, Bool.and_eq_true] at fresh
    exact ⟨fresh.1, .inl fresh.2⟩
  have elsewhere : ∀ other ∈ paths, isFreshUntried cfg now tried other = true →
      isOnOtherLink (lastTriedLink paths tried) other = false := by
    intro other present freshUntried
    have rejected := List.filter_eq_nil_iff.mp noneFresh other present
    rw [freshUntried, Bool.true_and] at rejected
    exact Bool.eq_false_of_not_eq_true rejected
  rcases Choice.mem_orIfEmpty_cases membership with fresh | ⟨-, membership⟩
  · rw [List.mem_filter, isFreshUntried, Bool.and_eq_true, Bool.and_eq_true] at fresh
    exact ⟨fresh.1, .inr ⟨elsewhere, .inl
      ⟨fresh.2.1.1, Path.isAlive_of_isSchedulable fresh.2.2⟩⟩⟩
  rcases Choice.mem_orIfEmpty_cases membership with schedulable | ⟨-, membership⟩
  · rw [List.mem_filter, Bool.and_eq_true] at schedulable
    exact ⟨schedulable.1, .inr ⟨elsewhere, .inl
      ⟨schedulable.2.1, Path.isAlive_of_isSchedulable schedulable.2.2⟩⟩⟩
  rcases Choice.mem_orIfEmpty_cases membership with alive | ⟨noneAlive, membership⟩
  · rw [List.mem_filter, Bool.and_eq_true] at alive
    exact ⟨alive.1, .inr ⟨elsewhere, .inl alive.2⟩⟩
  · rw [List.mem_filter] at membership
    refine ⟨membership.1, .inr ⟨elsewhere, .inr ⟨?_, membership.2⟩⟩⟩
    intro other present untried
    have rejected := List.filter_eq_nil_iff.mp noneAlive other present
    rw [untried, Bool.true_and] at rejected
    exact Bool.eq_false_of_not_eq_true rejected

theorem find?_eq_some_iff {paths : List (Nat × Path)} (distinct : (paths.map Prod.fst).Nodup)
    {id : Nat} {entry : Nat × Path} :
    (paths.find? fun entry => entry.1 = id) = some entry ↔ entry ∈ paths ∧ entry.1 = id := by
  constructor
  · intro found
    exact ⟨List.mem_of_find?_eq_some found, by simpa using List.find?_some found⟩
  · rintro ⟨membership, same⟩
    cases found : paths.find? fun entry => entry.1 = id with
    | none => exact absurd (decide_eq_true same) (List.find?_eq_none.mp found entry membership)
    | some first =>
        have sameFirst : first.1 = id := by simpa using List.find?_some found
        have unique := List.inj_on_of_nodup_map distinct (List.mem_of_find?_eq_some found)
          membership (sameFirst.trans same.symm)
        rw [unique]

theorem find?_perm {paths other : List (Nat × Path)} (id : Nat)
    (distinct : (paths.map Prod.fst).Nodup) (permuted : paths.Perm other) :
    (paths.find? fun entry => entry.1 = id) = other.find? fun entry => entry.1 = id := by
  have distinctOther : (other.map Prod.fst).Nodup := (permuted.map Prod.fst).nodup_iff.mp distinct
  ext entry
  rw [find?_eq_some_iff distinct, find?_eq_some_iff distinctOther, permuted.mem_iff]

theorem retryCandidates_perm {cfg : SessionConfig} {paths other : List (Nat × Path)}
    (tried : List Nat) (distinct : (paths.map Prod.fst).Nodup) (permuted : paths.Perm other) :
    (retryCandidates cfg now paths tried).Perm (retryCandidates cfg now other tried) := by
  have sameLink : lastTriedLink paths tried = lastTriedLink other tried := by
    simp only [lastTriedLink, find?_perm _ distinct permuted]
  unfold retryCandidates
  rw [sameLink]
  exact Choice.orIfEmpty_perm (permuted.filter _)
    (Choice.orIfEmpty_perm (permuted.filter _)
      (Choice.orIfEmpty_perm (permuted.filter _)
        (Choice.orIfEmpty_perm (permuted.filter _) (permuted.filter _))))

/-! ## Ties -/

theorem id_le_of_scoreKey_le {first second : Nat × Bool × Nat}
    (least : scoreKey first ≤ scoreKey second) (score : second.1 = first.1)
    (known : second.2.1 = first.2.1) : first.2.2 ≤ second.2.2 := by
  simp only [scoreKey, Prod.Lex.toLex_le_toLex, score, known, lt_self_iff_false, false_or,
    true_and] at least
  exact least

theorem id_le_of_rxKey_le {cfg : SessionConfig} {first second : Nat × Path}
    (least : rxKey cfg now first ≤ rxKey cfg now second)
    (known : second.2.rttKnown = first.2.rttKnown)
    (ago : second.2.lastRxAgo now = first.2.lastRxAgo now)
    (score : pathScore cfg second.2 = pathScore cfg first.2) : first.1 ≤ second.1 := by
  simp only [rxKey, Prod.Lex.toLex_le_toLex, score, known, ago, lt_self_iff_false, false_or,
    true_and] at least
  exact least

/-- Among the candidates with the picked path's score, measured or not like it, none has a
smaller id. -/
def SmallestOfScored (cfg : PickConfig) (pref : PickPref) (cands : List (Nat × Path))
    (picked : Option Nat) : Prop :=
  ∀ id, picked = some id → ∃ p, (id, p) ∈ cands ∧ ∀ entry ∈ cands,
    pathScorePref cfg pref entry.2 = pathScorePref cfg pref p →
    entry.2.rttKnown = p.rttKnown → id ≤ entry.1

/-- The same for the candidates that were also heard from as lately. -/
def SmallestOfRx (cfg : SessionConfig) (now : Nat) (cands : List (Nat × Path))
    (picked : Option Nat) : Prop :=
  ∀ id, picked = some id → ∃ p, (id, p) ∈ cands ∧ ∀ entry ∈ cands,
    pathScore cfg entry.2 = pathScore cfg p → entry.2.rttKnown = p.rttKnown →
    entry.2.lastRxAgo now = p.lastRxAgo now → id ≤ entry.1

theorem smallestOfScored (pref : PickPref) (cands : List (Nat × Path)) :
    SmallestOfScored cfg pref cands (pickFromScored cfg pref cands) := by
  intro id picked
  obtain ⟨p, membership, least⟩ := pickFromScored_least picked
  exact ⟨p, membership, fun entry present score known =>
    id_le_of_scoreKey_le (least entry present) score known⟩

theorem smallestOfRx {cfg : SessionConfig} (cands : List (Nat × Path)) :
    SmallestOfRx cfg now cands (pickMinRx cfg now cands) := by
  intro id picked
  obtain ⟨p, membership, least⟩ := pickMinRx_least picked
  exact ⟨p, membership, fun entry present score known ago =>
    id_le_of_rxKey_le (least entry present) known ago score⟩

/-! ## The contract -/

theorem pickPathPref_isSome {pref : PickPref} {paths : List (Nat × Path)} :
    (pickPathPref cfg now pref paths).isSome = true ↔ ∃ entry ∈ paths, entry.2.isAlive = true := by
  have inhabited : classSet cfg pref paths ≠ [] ↔ ∃ entry ∈ paths, entry.2.isAlive = true :=
    classSet_ne_nil_iff
  rw [pickPathPref, pickFrom, pickFromScored_isSome, lossFreshOrAll, Ne,
    Choice.filterOrAll_eq_nil]
  exact inhabited

/-- The picked path is one of the class, schedulable and fresh if one can be. -/
theorem pickPathPref_spec {pref : PickPref} {paths : List (Nat × Path)} {id : Nat}
    (picked : pickPathPref cfg now pref paths = some id) :
    ∃ p, (id, p) ∈ paths ∧ (id, p) ∈ classSet cfg pref paths ∧
      ((∃ entry ∈ paths, entry.2.isSchedulable = true) → p.isSchedulable = true) ∧
      ((∃ entry ∈ classSet cfg pref paths, isLossFresh cfg.toSessionConfig now entry.2 = true) →
        isLossFresh cfg.toSessionConfig now p = true) := by
  obtain ⟨p, membership, -⟩ := pickFromScored_least picked
  have inClass := Choice.mem_of_mem_filterOrAll membership
  have candidate := mem_fastestClassSet (mem_classSet inClass)
  refine ⟨p, (mem_classCandidates candidate).1, inClass, ?_, ?_⟩
  · rintro ⟨entry, present, schedulable⟩
    exact schedulable_classCandidates candidate present schedulable
  · rintro ⟨entry, present, fresh⟩
    exact Choice.keep_of_mem_filterOrAll (fun entry => isLossFresh cfg.toSessionConfig now entry.2)
      membership present fresh

theorem pickPathPref_perm {paths other : List (Nat × Path)} (pref : PickPref)
    (permuted : paths.Perm other) :
    pickPathPref cfg now pref paths = pickPathPref cfg now pref other :=
  pickFromScored_perm pref (Choice.filterOrAll_perm _ (classSet_perm pref permuted))

/-- Both tables give every picker the same path. -/
structure SamePicks (cfg : PickConfig) (now : Nat) (paths other : List (Nat × Path)) : Prop where
  pref : ∀ pref, pickPathPref cfg now pref paths = pickPathPref cfg now pref other
  retry : ∀ tried, pickRetryPath cfg.toSessionConfig now paths tried =
    pickRetryPath cfg.toSessionConfig now other tried
  minRx : pickMinRx cfg.toSessionConfig now paths = pickMinRx cfg.toSessionConfig now other
  bulk : ∀ budgets poolRef hasInteractive exclude,
    (pickBulk cfg now budgets poolRef hasInteractive exclude paths).1 =
      (pickBulk cfg now budgets poolRef hasInteractive exclude other).1
  overflow : ∀ budgets poolRef hasInteractive sticky,
    (bulkOverflowPick cfg now budgets poolRef hasInteractive sticky paths).1 =
      (bulkOverflowPick cfg now budgets poolRef hasInteractive sticky other).1

theorem samePicks_of_perm {paths other : List (Nat × Path)}
    (distinct : (paths.map Prod.fst).Nodup) (permuted : paths.Perm other) :
    SamePicks cfg now paths other where
  pref pref := pickPathPref_perm pref permuted
  retry tried := by
    rw [pickRetryPath_eq, pickRetryPath_eq]
    exact pickMinRx_perm (retryCandidates_perm tried distinct permuted)
  minRx := pickMinRx_perm permuted
  bulk budgets poolRef hasInteractive exclude :=
    pickFromScored_perm .any (bulkCandidates_perm budgets poolRef hasInteractive exclude permuted)
  overflow budgets poolRef hasInteractive sticky :=
    pickFromScored_perm .any
      (overflowCandidates_perm budgets poolRef hasInteractive sticky permuted)

/-- Every picker gives a full tie among its candidates to the smallest id. -/
structure TiesToSmallest (cfg : PickConfig) (now : Nat) (paths : List (Nat × Path)) : Prop where
  pref : ∀ pref, SmallestOfScored cfg pref (lossFreshOrAll cfg now (classSet cfg pref paths))
    (pickPathPref cfg now pref paths)
  retry : ∀ tried, SmallestOfRx cfg.toSessionConfig now
    (retryCandidates cfg.toSessionConfig now paths tried)
    (pickRetryPath cfg.toSessionConfig now paths tried)
  minRx : SmallestOfRx cfg.toSessionConfig now paths (pickMinRx cfg.toSessionConfig now paths)
  bulk : ∀ budgets poolRef hasInteractive exclude, SmallestOfScored cfg .any
    (bulkCandidates cfg now budgets poolRef hasInteractive exclude paths)
    (pickBulk cfg now budgets poolRef hasInteractive exclude paths).1
  overflow : ∀ budgets poolRef hasInteractive sticky, SmallestOfScored cfg .any
    (overflowCandidates cfg now budgets poolRef hasInteractive sticky paths)
    (bulkOverflowPick cfg now budgets poolRef hasInteractive sticky paths).1

theorem tiesToSmallest (paths : List (Nat × Path)) : TiesToSmallest cfg now paths where
  pref pref := smallestOfScored pref _
  retry tried := by
    rw [pickRetryPath_eq]
    exact smallestOfRx _
  minRx := smallestOfRx paths
  bulk budgets poolRef hasInteractive exclude := smallestOfScored .any _
  overflow budgets poolRef hasInteractive sticky := smallestOfScored .any _

/-- The picker finds an alive path, a schedulable and a fresh one when it can, whatever the
order of the table, and gives ties to the smallest id. -/
theorem picker_contract (cfg : PickConfig) (now : Nat) (paths : List (Nat × Path))
    (distinct : (paths.map Prod.fst).Nodup) :
    (∀ pref, ((pickPathPref cfg now pref paths).isSome = true ↔
        ∃ entry ∈ paths, entry.2.isAlive = true) ∧
      ∀ id, pickPathPref cfg now pref paths = some id →
        ∃ p, (id, p) ∈ paths ∧ (id, p) ∈ classSet cfg pref paths ∧
          ((∃ entry ∈ paths, entry.2.isSchedulable = true) → p.isSchedulable = true) ∧
          ((∃ entry ∈ classSet cfg pref paths,
              isLossFresh cfg.toSessionConfig now entry.2 = true) →
            isLossFresh cfg.toSessionConfig now p = true)) ∧
    (∀ other, paths.Perm other → SamePicks cfg now paths other) ∧
    TiesToSmallest cfg now paths :=
  ⟨fun _ => ⟨pickPathPref_isSome, fun _ picked => pickPathPref_spec picked⟩,
    fun _ permuted => samePicks_of_perm distinct permuted, tiesToSmallest paths⟩

theorem picker_contract_twins :
    pickPathPref .standard 0 .interactive
        [(2, BudgetedPath.steadyPath), (1, BudgetedPath.steadyPath)] =
      pickPathPref .standard 0 .interactive
        [(1, BudgetedPath.steadyPath), (2, BudgetedPath.steadyPath)] ∧
    (pickPathPref .standard 0 .interactive
        [(2, BudgetedPath.steadyPath), (1, BudgetedPath.steadyPath)]).isSome = true := by
  obtain ⟨picks, samePicks, -⟩ := picker_contract .standard 0
    [(2, BudgetedPath.steadyPath), (1, BudgetedPath.steadyPath)] (by decide)
  constructor
  · exact (samePicks _ (List.Perm.swap _ _ _)).pref .interactive
  · exact (picks .interactive).1.mpr ⟨(2, BudgetedPath.steadyPath), List.mem_cons_self, rfl⟩

/-! ## Paths without a measured round trip -/

theorem filter_alive_schedulable (paths : List (Nat × Path)) :
    ((paths.filter fun entry => entry.2.isAlive).filter fun entry => entry.2.isSchedulable) =
      paths.filter fun entry => entry.2.isSchedulable := by
  rw [List.filter_filter]
  apply List.filter_congr
  intro entry _
  cases schedulable : entry.2.isSchedulable with
  | true => rw [Path.isAlive_of_isSchedulable schedulable, Bool.true_and]
  | false => exact Bool.false_and _

def aliveOf (paths : List (Nat × Path)) : List (Nat × Path) :=
  paths.filter fun entry => entry.2.isAlive

def schedulableOf (paths : List (Nat × Path)) : List (Nat × Path) :=
  paths.filter fun entry => entry.2.isSchedulable

theorem classCandidates_of_usable {paths : List (Nat × Path)} {usable : Nat × Path}
    (present : usable ∈ paths)
    (kept : isUsable cfg (minClassRtt cfg (aliveOf paths)) usable.2 = true) :
    classCandidates cfg paths =
      (aliveOf paths).filter fun entry =>
        isUsable cfg (minClassRtt cfg (aliveOf paths)) entry.2 := by
  have schedulable := kept
  simp only [isUsable, Bool.and_eq_true] at schedulable
  have alive := Path.isAlive_of_isSchedulable schedulable.1.1
  exact Choice.orIfEmpty_of_mem
    (List.mem_filter.mpr ⟨List.mem_filter.mpr ⟨present, alive⟩, kept⟩)

theorem classCandidates_of_none_usable {paths : List (Nat × Path)} {schedulable : Nat × Path}
    (present : schedulable ∈ paths) (eligible : schedulable.2.isSchedulable = true)
    (unusable : ∀ entry ∈ paths,
      isUsable cfg (minClassRtt cfg (aliveOf paths)) entry.2 = false) :
    classCandidates cfg paths = schedulableOf paths := by
  have noneUsable : ((paths.filter fun entry => entry.2.isAlive).filter fun entry =>
      isUsable cfg (minClassRtt cfg (paths.filter fun entry => entry.2.isAlive)) entry.2) = [] := by
    rw [List.filter_eq_nil_iff]
    intro entry membership
    exact Bool.eq_false_iff.mp (unusable entry (List.mem_of_mem_filter membership))
  unfold classCandidates
  simp only [noneUsable, filter_alive_schedulable]
  exact Choice.orIfEmpty_of_mem (List.mem_filter.mpr ⟨present, eligible⟩)

theorem leastClassRtt_mem {known : Path → Bool} {cands : List (Nat × Path)} {best : Nat}
    (least : leastClassRtt cfg known cands = some best) :
    ∃ entry ∈ cands, known entry.2 = true ∧ effectiveClassRtt cfg entry.2 = best := by
  obtain ⟨entry, membership, same⟩ := List.mem_map.mp (List.min?_mem least)
  rw [List.mem_filter] at membership
  exact ⟨entry, membership.1, membership.2, same⟩

theorem leastClassRtt_isSome {known : Path → Bool} {cands : List (Nat × Path)}
    {entry : Nat × Path} (membership : entry ∈ cands) (measured : known entry.2 = true) :
    (leastClassRtt cfg known cands).isSome = true := by
  rw [leastClassRtt, List.isSome_min?_iff]
  intro empty
  rw [List.map_eq_nil_iff, List.filter_eq_nil_iff] at empty
  exact empty entry membership measured

theorem memberRtt_of_unclassed {p : Path} (unclassed : p.classKnown = false) :
    memberRtt cfg p = effectiveClassRtt cfg p := by
  have zero : p.rttClassUs = 0 := by simpa [Path.classKnown] using unclassed
  simp [memberRtt, effectiveClassRtt, unclassed, Path.classRtt, zero]

theorem bestClassRtt_member {cands : List (Nat × Path)} {best : Nat}
    (least : bestClassRtt cfg cands = some best) :
    ∃ entry ∈ cands, memberRtt cfg entry.2 = best := by
  have sameRtt : ∀ p : Path, memberRtt cfg p = effectiveClassRtt cfg p := by
    intro p
    cases classed : p.classKnown with
    | true => exact if_pos classed
    | false => exact memberRtt_of_unclassed classed
  rw [bestClassRtt, Option.or_eq_some_iff] at least
  rcases least with classed | ⟨-, measured⟩
  · obtain ⟨entry, membership, -, same⟩ := leastClassRtt_mem classed
    exact ⟨entry, membership, (sameRtt entry.2).trans same⟩
  · obtain ⟨entry, membership, -, same⟩ := leastClassRtt_mem measured
    exact ⟨entry, membership, (sameRtt entry.2).trans same⟩

theorem shouldFailback_self (rtt : Nat) : shouldFailback cfg rtt rtt = false :=
  if_pos (le_refl rtt)

/-- The fastest class leaves out exactly the candidates that fail back to the best class. -/
theorem mem_fastestClassSet_iff {paths : List (Nat × Path)} {best : Nat}
    (least : bestClassRtt cfg (classCandidates cfg paths) = some best) (entry : Nat × Path) :
    entry ∈ fastestClassSet cfg paths ↔
      entry ∈ classCandidates cfg paths ∧
        shouldFailback cfg (memberRtt cfg entry.2) best = false := by
  obtain ⟨member, membership, same⟩ := bestClassRtt_member least
  have kept : (!shouldFailback cfg (memberRtt cfg member.2) best) = true := by
    rw [same, shouldFailback_self]
    rfl
  simp only [fastestClassSet, least]
  rw [Choice.filterOrAll_eq_filter membership kept, List.mem_filter, Bool.not_eq_true']

/-- Every path of the class has a measured round trip. -/
def ClassMeasured (cfg : PickConfig) (pref : PickPref) (paths : List (Nat × Path)) : Prop :=
  ∀ entry ∈ classSet cfg pref paths, entry.2.rttKnown = true

theorem classMeasured_interactive {pref : PickPref} {paths : List (Nat × Path)}
    (measured : ClassMeasured cfg .any paths) : ClassMeasured cfg pref paths :=
  fun entry membership => measured entry (mem_classSet membership)

/-- Some schedulable measured path is no backup to the fastest alive one, or every schedulable
unmeasured path fails back to the best class of the schedulable paths. -/
def MeasuredHold (cfg : PickConfig) (paths : List (Nat × Path)) : Prop :=
  (∃ entry ∈ paths, isUsable cfg (minClassRtt cfg (aliveOf paths)) entry.2 = true) ∨
    ∀ best, bestClassRtt cfg (schedulableOf paths) = some best →
      ∀ entry ∈ schedulableOf paths, entry.2.rttKnown = false →
        shouldFailback cfg (memberRtt cfg entry.2) best = true

/-- With a schedulable measured path the fastest class holds no unmeasured one just in case
the measured ones hold it. -/
theorem classMeasured_iff {paths : List (Nat × Path)} {known : Nat × Path}
    (present : known ∈ paths) (schedulable : known.2.isSchedulable = true)
    (measured : known.2.rttKnown = true) :
    ClassMeasured cfg .any paths ↔ MeasuredHold cfg paths := by
  by_cases usable : ∃ entry ∈ paths,
      isUsable cfg (minClassRtt cfg (aliveOf paths)) entry.2 = true
  · refine iff_of_true ?_ (.inl usable)
    obtain ⟨entry, inTable, kept⟩ := usable
    intro member membership
    have candidate := mem_fastestClassSet membership
    rw [classCandidates_of_usable inTable kept, List.mem_filter, isUsable] at candidate
    simp only [Bool.and_eq_true] at candidate
    exact candidate.2.1.2
  · have unusable : ∀ entry ∈ paths,
        isUsable cfg (minClassRtt cfg (aliveOf paths)) entry.2 = false := by
      intro entry membership
      exact Bool.eq_false_of_not_eq_true fun kept => usable ⟨entry, membership, kept⟩
    have cands := classCandidates_of_none_usable present schedulable unusable
    have eligible : known ∈ schedulableOf paths := List.mem_filter.mpr ⟨present, schedulable⟩
    have some : (bestClassRtt cfg (schedulableOf paths)).isSome = true := by
      rw [bestClassRtt, Option.isSome_or, leastClassRtt_isSome eligible measured, Bool.or_true]
    obtain ⟨best, least⟩ := Option.isSome_iff_exists.mp some
    have members := mem_fastestClassSet_iff (cands.symm ▸ least)
    constructor
    · intro allMeasured
      refine .inr fun other leastOther entry membership unknown => ?_
      obtain rfl : best = other := Option.some.inj (least.symm.trans leastOther)
      by_contra stays
      have inClass := (members entry).mpr
        ⟨cands.symm ▸ membership, Bool.eq_false_of_not_eq_true stays⟩
      have known := allMeasured entry inClass
      rw [unknown] at known
      cases known
    · rintro (kept | leaves) entry membership
      · exact absurd kept usable
      · by_contra unknown
        obtain ⟨candidate, stays⟩ := (members entry).mp membership
        have leaving := leaves best least entry (cands ▸ candidate)
          (Bool.eq_false_of_not_eq_true unknown)
        rw [stays] at leaving
        cases leaving

/-- The classes and the picks stay with measured paths, as long as one is schedulable, just in
case the measured ones hold the fastest class. -/
theorem measured_preferred_iff (cfg : PickConfig) (now : Nat) {paths : List (Nat × Path)}
    {known : Nat × Path} (present : known ∈ paths) (schedulable : known.2.isSchedulable = true)
    (measured : known.2.rttKnown = true) :
    (∀ pref, ClassMeasured cfg pref paths ∧
      ∀ id, pickPathPref cfg now pref paths = some id →
        ∃ p, (id, p) ∈ paths ∧ p.rttKnown = true) ↔ MeasuredHold cfg paths := by
  rw [← classMeasured_iff present schedulable measured]
  constructor
  · exact fun all => (all .any).1
  · intro inClass pref
    refine ⟨classMeasured_interactive inClass, fun id picked => ?_⟩
    obtain ⟨p, membership, member, -, -⟩ := pickPathPref_spec picked
    exact ⟨p, membership, classMeasured_interactive inClass _ member⟩

/-- A path 180 milliseconds away. -/
def farPath : Path :=
  { BudgetedPath.steadyPath with rttEwmaUs := 180000, rttStableUs := 180000, rttClassUs := 180000 }

def newPath : Path :=
  { BudgetedPath.steadyPath with rttEwmaUs := 0, rttStableUs := 0, rttClassUs := 0 }

/-- A far path, a near one and one that just joined. -/
def mixedTable : List (Nat × Path) := [(1, farPath), (2, BudgetedPath.steadyPath), (3, newPath)]

theorem measured_preferred_far :
    newPath.isSchedulable = true ∧ newPath.rttKnown = false ∧
      pickPathPref .standard 0 .any mixedTable = some 2 ∧
      ∃ p, (2, p) ∈ mixedTable ∧ p.rttKnown = true := by
  have hold : MeasuredHold .standard mixedTable :=
    .inl ⟨(2, BudgetedPath.steadyPath), by simp [mixedTable], by decide⟩
  have picked : pickPathPref .standard 0 .any mixedTable = some 2 := by decide
  have present : (1, farPath) ∈ mixedTable := List.mem_cons_self
  refine ⟨by decide, by decide, picked, ?_⟩
  exact ((measured_preferred_iff .standard 0 present rfl rfl).mpr hold .any).2 2 picked

/-- While the fast path is degraded, the far one is a backup to it and the new one takes the
pick. -/
theorem unmeasured_preferred :
    let paths := [(1, { BudgetedPath.steadyPath with status := .degraded }), (2, farPath),
      (3, newPath)]
    (∃ entry ∈ paths, entry.2.isSchedulable = true ∧ entry.2.rttKnown = true) ∧
      (3, newPath) ∈ fastestClassSet .standard paths ∧
      (3, newPath) ∈ interactiveClassSet .standard paths ∧ newPath.rttKnown = false ∧
      pickPathPref .standard 0 .any paths = some 3 ∧
      pickPathPref .standard 0 .interactive paths = some 3 := by
  decide

end NyaLink
