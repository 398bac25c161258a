import Mathlib.Order.Defs.LinearOrder
import Mathlib.Algebra.BigOperators.Group.List.Basic
import Mathlib.Tactic.Ring

/-!
# Ordered maps

A finite map kept as a strictly increasing association list: the meaning of a
B-tree map, iterated in key order.  `total` adds up a weight over the entries;
its rules say how an update changes the sum, which is what accounting
invariants need.
-/

universe u v

/-- A finite map whose entries are listed by strictly increasing key. -/
structure OrdMap (Key : Type u) (Value : Type v) [LT Key] where
  entries : List (Key × Value)
  sorted : entries.Pairwise fun first second => first.1 < second.1

namespace OrdMap

variable {Key : Type u} {Value : Type v} [LinearOrder Key]

instance [DecidableEq Value] : DecidableEq (OrdMap Key Value) := fun first second =>
  decidable_of_iff (first.entries = second.entries) <| by
    cases first
    cases second
    simp

def empty : OrdMap Key Value := ⟨[], List.Pairwise.nil⟩

def size (m : OrdMap Key Value) : Nat := m.entries.length

/-- Value of the first entry with the given key. -/
def lookupEntry (key : Key) : List (Key × Value) → Option Value
  | [] => none
  | entry :: rest => if entry.1 = key then some entry.2 else lookupEntry key rest

def get? (m : OrdMap Key Value) (key : Key) : Option Value :=
  lookupEntry key m.entries

/-- Put an entry at its place, replacing the one with the same key. -/
def insertEntry (key : Key) (value : Value) : List (Key × Value) → List (Key × Value)
  | [] => [(key, value)]
  | entry :: rest =>
      if key < entry.1 then (key, value) :: entry :: rest
      else if entry.1 < key then entry :: insertEntry key value rest
      else (key, value) :: rest

theorem mem_insertEntry {key : Key} {value : Value} {entries : List (Key × Value)}
    {entry : Key × Value} (membership : entry ∈ insertEntry key value entries) :
    entry = (key, value) ∨ entry ∈ entries := by
  induction entries with
  | nil => exact .inl (by simpa [insertEntry] using membership)
  | cons head rest inductionHypothesis =>
      simp only [insertEntry] at membership
      split at membership
      · simpa using membership
      · split at membership
        · rcases List.mem_cons.mp membership with rfl | inRest
          · exact .inr (by simp)
          · exact (inductionHypothesis inRest).imp id (List.mem_cons_of_mem _)
        · rcases List.mem_cons.mp membership with rfl | inRest
          · exact .inl rfl
          · exact .inr (List.mem_cons_of_mem _ inRest)

theorem insertEntry_sorted (key : Key) (value : Value) {entries : List (Key × Value)}
    (sorted : entries.Pairwise fun first second => first.1 < second.1) :
    (insertEntry key value entries).Pairwise fun first second => first.1 < second.1 := by
  induction entries with
  | nil => simp [insertEntry]
  | cons head rest inductionHypothesis =>
      have headBelow := (List.pairwise_cons.mp sorted).1
      have restSorted := (List.pairwise_cons.mp sorted).2
      simp only [insertEntry]
      split
      · rename_i before
        refine List.pairwise_cons.mpr ⟨?_, sorted⟩
        intro entry membership
        rcases List.mem_cons.mp membership with rfl | inRest
        · exact before
        · exact lt_trans before (headBelow entry inRest)
      · split
        · rename_i after
          refine List.pairwise_cons.mpr ⟨?_, inductionHypothesis restSorted⟩
          intro entry membership
          rcases mem_insertEntry membership with rfl | inRest
          · exact after
          · exact headBelow entry inRest
        · rename_i notBefore notAfter
          have same : head.1 = key := le_antisymm (not_lt.mp notBefore) (not_lt.mp notAfter)
          exact List.pairwise_cons.mpr ⟨fun entry inRest => same ▸ headBelow entry inRest,
            restSorted⟩

def insert (m : OrdMap Key Value) (key : Key) (value : Value) : OrdMap Key Value :=
  ⟨insertEntry key value m.entries, insertEntry_sorted key value m.sorted⟩

def filter (keep : Key → Value → Bool) (m : OrdMap Key Value) : OrdMap Key Value :=
  ⟨m.entries.filter fun entry => keep entry.1 entry.2, m.sorted.filter _⟩

def erase (m : OrdMap Key Value) (key : Key) : OrdMap Key Value :=
  m.filter fun other _ => decide (other ≠ key)

/-- Change every value, keeping the keys. -/
def mapValues (change : Key → Value → Value) (m : OrdMap Key Value) : OrdMap Key Value :=
  ⟨m.entries.map fun entry => (entry.1, change entry.1 entry.2),
    List.pairwise_map.mpr m.sorted⟩

/-- Change the value under one key, if there is one. -/
def modify (m : OrdMap Key Value) (key : Key) (change : Value → Value) : OrdMap Key Value :=
  m.mapValues fun other value => if other = key then change value else value

/-- The map with every value seen through a projection. -/
def view {Seen : Type v} (seen : Value → Seen) (m : OrdMap Key Value) : OrdMap Key Seen :=
  ⟨m.entries.map fun entry => (entry.1, seen entry.2), List.pairwise_map.mpr m.sorted⟩

/-- Sum of a weight over all entries. -/
def total (weight : Key → Value → Nat) (m : OrdMap Key Value) : Nat :=
  (m.entries.map fun entry => weight entry.1 entry.2).sum

/-! ## Lookup -/

theorem lookupEntry_eq_none {key : Key} {entries : List (Key × Value)}
    (absent : ∀ entry ∈ entries, entry.1 ≠ key) : lookupEntry key entries = none := by
  induction entries with
  | nil => rfl
  | cons head rest inductionHypothesis =>
      rw [lookupEntry, if_neg (absent head (by simp))]
      exact inductionHypothesis fun entry inRest => absent entry (by simp [inRest])

theorem lookupEntry_eq_some_iff {key : Key} {value : Value} {entries : List (Key × Value)}
    (sorted : entries.Pairwise fun first second => first.1 < second.1) :
    lookupEntry key entries = some value ↔ (key, value) ∈ entries := by
  induction entries with
  | nil => simp [lookupEntry]
  | cons head rest inductionHypothesis =>
      have headBelow := (List.pairwise_cons.mp sorted).1
      have restSorted := (List.pairwise_cons.mp sorted).2
      by_cases same : head.1 = key
      · subst same
        have fresh : (head.1, value) ∉ rest := fun inRest =>
          lt_irrefl head.1 (headBelow (head.1, value) inRest)
        simp only [lookupEntry, if_true, Option.some.injEq, List.mem_cons, fresh, or_false]
        exact ⟨fun equal => by rw [← equal], fun equal => (congrArg Prod.snd equal).symm⟩
      · have different : (key, value) ≠ head := fun equal => same (by rw [← equal])
        simp [lookupEntry, same, different, inductionHypothesis restSorted]

theorem get?_eq_some_iff {m : OrdMap Key Value} {key : Key} {value : Value} :
    m.get? key = some value ↔ (key, value) ∈ m.entries :=
  lookupEntry_eq_some_iff m.sorted

theorem get?_eq_none_iff {m : OrdMap Key Value} {key : Key} :
    m.get? key = none ↔ ∀ entry ∈ m.entries, entry.1 ≠ key := by
  constructor
  · rintro missing ⟨other, value⟩ membership rfl
    rw [get?_eq_some_iff.mpr membership] at missing
    cases missing
  · exact lookupEntry_eq_none

@[simp]
theorem get?_empty (key : Key) : (empty : OrdMap Key Value).get? key = none := rfl

@[simp]
theorem entries_empty : (empty : OrdMap Key Value).entries = [] := rfl

theorem lookupEntry_insertEntry (key other : Key) (value : Value)
    (entries : List (Key × Value))
    (sorted : entries.Pairwise fun first second => first.1 < second.1) :
    lookupEntry other (insertEntry key value entries) =
      if other = key then some value else lookupEntry other entries := by
  induction entries with
  | nil =>
      by_cases same : other = key
      · simp [insertEntry, lookupEntry, same]
      · simp [insertEntry, lookupEntry, same, Ne.symm same]
  | cons head rest inductionHypothesis =>
      have restSorted := (List.pairwise_cons.mp sorted).2
      have rule := inductionHypothesis restSorted
      by_cases same : other = key
      · subst same
        rw [if_pos rfl]
        refine (lookupEntry_eq_some_iff (insertEntry_sorted other value sorted)).mpr ?_
        simp only [insertEntry]
        split
        · simp
        · split
          · refine List.mem_cons_of_mem _ ?_
            rw [if_pos rfl] at rule
            exact (lookupEntry_eq_some_iff (insertEntry_sorted other value restSorted)).mp rule
          · simp
      · rw [if_neg same] at rule ⊢
        simp only [insertEntry]
        split
        · simp [lookupEntry, Ne.symm same]
        · split
          · simp only [lookupEntry, rule]
          · rename_i notBefore notAfter
            have equal : head.1 = key := le_antisymm (not_lt.mp notBefore) (not_lt.mp notAfter)
            simp [lookupEntry, equal, Ne.symm same]

theorem get?_insert (m : OrdMap Key Value) (key other : Key) (value : Value) :
    (m.insert key value).get? other = if other = key then some value else m.get? other :=
  lookupEntry_insertEntry key other value m.entries m.sorted

@[simp]
theorem get?_insert_self (m : OrdMap Key Value) (key : Key) (value : Value) :
    (m.insert key value).get? key = some value := by
  rw [get?_insert, if_pos rfl]

theorem get?_insert_of_ne (m : OrdMap Key Value) {key other : Key} (value : Value)
    (different : other ≠ key) : (m.insert key value).get? other = m.get? other := by
  rw [get?_insert, if_neg different]

/-- What is found after an insert is the value inserted or was there before. -/
theorem get?_insert_cases {m : OrdMap Key Value} {key other : Key} {value stored : Value}
    (found : (m.insert key value).get? other = some stored) :
    other = key ∧ stored = value ∨ m.get? other = some stored := by
  rw [get?_insert] at found
  split at found
  · rename_i same
    exact .inl ⟨same, (Option.some.inj found).symm⟩
  · exact .inr found

theorem get?_filter_eq_some_iff {keep : Key → Value → Bool} {m : OrdMap Key Value}
    {key : Key} {value : Value} :
    (m.filter keep).get? key = some value ↔
      m.get? key = some value ∧ keep key value = true := by
  rw [get?_eq_some_iff, get?_eq_some_iff]
  exact List.mem_filter

theorem get?_erase (m : OrdMap Key Value) (key other : Key) :
    (m.erase key).get? other = if other = key then none else m.get? other := by
  by_cases same : other = key
  · subst same
    rw [if_pos rfl, get?_eq_none_iff]
    intro entry membership
    simpa using (List.mem_filter.mp membership).2
  · rw [if_neg same]
    refine Option.ext fun value => ?_
    rw [erase, get?_filter_eq_some_iff]
    simp [same]

@[simp]
theorem get?_erase_self (m : OrdMap Key Value) (key : Key) :
    (m.erase key).get? key = none := by
  rw [get?_erase, if_pos rfl]

theorem get?_erase_of_ne (m : OrdMap Key Value) {key other : Key}
    (different : other ≠ key) : (m.erase key).get? other = m.get? other := by
  rw [get?_erase, if_neg different]

theorem get?_erase_eq_some_iff {m : OrdMap Key Value} {key other : Key} {value : Value} :
    (m.erase key).get? other = some value ↔ other ≠ key ∧ m.get? other = some value := by
  rw [get?_erase]
  split
  · rename_i same
    exact iff_of_false (by simp) fun kept => kept.1 same
  · rename_i different
    exact (and_iff_right different).symm

@[simp]
theorem get?_mapValues (change : Key → Value → Value) (m : OrdMap Key Value) (key : Key) :
    (m.mapValues change).get? key = (m.get? key).map (change key) := by
  obtain ⟨entries, sorted⟩ := m
  simp only [get?, mapValues]
  clear sorted
  induction entries with
  | nil => rfl
  | cons head rest inductionHypothesis =>
      by_cases same : head.1 = key
      · subst same
        simp [lookupEntry]
      · simp [lookupEntry, same, inductionHypothesis]

theorem get?_view {Seen : Type v} (seen : Value → Seen) (m : OrdMap Key Value) (key : Key) :
    (m.view seen).get? key = (m.get? key).map seen := by
  obtain ⟨entries, sorted⟩ := m
  simp only [get?, view]
  clear sorted
  induction entries with
  | nil => rfl
  | cons head rest inductionHypothesis =>
      by_cases same : head.1 = key
      · simp [lookupEntry, same]
      · simp [lookupEntry, same, inductionHypothesis]

theorem get?_modify (m : OrdMap Key Value) (key other : Key) (change : Value → Value) :
    (m.modify key change).get? other =
      if other = key then (m.get? other).map change else m.get? other := by
  rw [modify, get?_mapValues]
  by_cases same : other = key
  · simp [same]
  · simp [same]

@[simp]
theorem get?_modify_self (m : OrdMap Key Value) (key : Key) (change : Value → Value) :
    (m.modify key change).get? key = (m.get? key).map change := by
  rw [get?_modify, if_pos rfl]

theorem get?_modify_of_ne (m : OrdMap Key Value) {key other : Key} (change : Value → Value)
    (different : other ≠ key) : (m.modify key change).get? other = m.get? other := by
  rw [get?_modify, if_neg different]

/-- What is found after a change is the value changed or was there before. -/
theorem get?_modify_cases {m : OrdMap Key Value} {key other : Key} {change : Value → Value}
    {stored : Value} (found : (m.modify key change).get? other = some stored) :
    (other = key ∧ ∃ old, m.get? other = some old ∧ stored = change old) ∨
      (other ≠ key ∧ m.get? other = some stored) := by
  rw [get?_modify] at found
  split at found
  · rename_i same
    obtain ⟨old, before, rfl⟩ := Option.map_eq_some_iff.mp found
    exact .inl ⟨same, old, before, rfl⟩
  · rename_i different
    exact .inr ⟨different, found⟩

theorem nodup_keys (m : OrdMap Key Value) : (m.entries.map Prod.fst).Nodup :=
  List.pairwise_map.mpr (m.sorted.imp fun below => ne_of_lt below)

/-- Maps with the same lookups are equal. -/
theorem ext_get? {first second : OrdMap Key Value}
    (same : ∀ key, first.get? key = second.get? key) : first = second := by
  obtain ⟨left, leftSorted⟩ := first
  obtain ⟨right, rightSorted⟩ := second
  have members : ∀ entry, entry ∈ left ↔ entry ∈ right := fun entry => by
    have lookups := same entry.1
    have inLeft := @get?_eq_some_iff _ _ _ ⟨left, leftSorted⟩ entry.1 entry.2
    have inRight := @get?_eq_some_iff _ _ _ ⟨right, rightSorted⟩ entry.1 entry.2
    rw [← inLeft, ← inRight, lookups]
  have permuted : left.Perm right :=
    (List.perm_ext_iff_of_nodup (leftSorted.imp fun below equal => below.ne (by rw [equal]))
      (rightSorted.imp fun below equal => below.ne (by rw [equal]))).mpr members
  have equal : left = right := permuted.eq_of_pairwise
    (fun first second _ _ below above => absurd below above.not_gt) leftSorted rightSorted
  simp [equal]

theorem insert_erase_of_some {m : OrdMap Key Value} {key : Key} {value : Value}
    (found : m.get? key = some value) : (m.erase key).insert key value = m := by
  refine ext_get? fun other => ?_
  rw [get?_insert, get?_erase]
  by_cases same : other = key
  · rw [if_pos same, same, found]
  · rw [if_neg same, if_neg same]

theorem insert_eq_self {m : OrdMap Key Value} {key : Key} {value : Value}
    (found : m.get? key = some value) : m.insert key value = m := by
  refine ext_get? fun other => ?_
  rw [get?_insert]
  by_cases same : other = key
  · rw [if_pos same, same, found]
  · rw [if_neg same]

/-! ## Sums over the entries -/

@[simp]
theorem total_empty (weight : Key → Value → Nat) :
    (empty : OrdMap Key Value).total weight = 0 := rfl

theorem total_filter_add (weight : Key → Value → Nat) (keep : Key → Value → Bool)
    (m : OrdMap Key Value) :
    (m.filter keep).total weight + (m.filter fun key value => !keep key value).total weight =
      m.total weight := by
  obtain ⟨entries, sorted⟩ := m
  simp only [total, filter]
  clear sorted
  induction entries with
  | nil => rfl
  | cons head rest inductionHypothesis =>
      by_cases kept : keep head.1 head.2 = true
      · simp [kept, ← inductionHypothesis]
        omega
      · simp [kept, ← inductionHypothesis]
        omega

theorem erase_eq_self {m : OrdMap Key Value} {key : Key} (missing : m.get? key = none) :
    m.erase key = m := by
  obtain ⟨entries, sorted⟩ := m
  have absent := get?_eq_none_iff.mp missing
  simp only [erase, filter, mk.injEq]
  exact List.filter_eq_self.mpr fun entry membership => by simpa using absent entry membership

theorem size_eq_total (m : OrdMap Key Value) : m.size = m.total fun _ _ => 1 := by
  simp [size, total]

theorem total_erase_of_some {m : OrdMap Key Value} {key : Key} {value : Value}
    (weight : Key → Value → Nat) (found : m.get? key = some value) :
    (m.erase key).total weight + weight key value = m.total weight := by
  obtain ⟨entries, sorted⟩ := m
  simp only [get?] at found
  simp only [total, erase, filter]
  induction entries with
  | nil => simp [lookupEntry] at found
  | cons head rest inductionHypothesis =>
      have headBelow := (List.pairwise_cons.mp sorted).1
      have restSorted := (List.pairwise_cons.mp sorted).2
      by_cases same : head.1 = key
      · subst same
        have restKept : rest.filter (fun entry => decide (entry.1 ≠ head.1)) = rest :=
          List.filter_eq_self.mpr fun entry inRest => by
            simpa using (headBelow entry inRest).ne'
        simp only [lookupEntry, if_true, Option.some.injEq] at found
        subst found
        simp only [ne_eq, not_true_eq_false, decide_false, Bool.false_eq_true,
          not_false_eq_true, List.filter_cons_of_neg, List.map_cons, List.sum_cons] at restKept ⊢
        rw [restKept]
        omega
      · simp only [lookupEntry, if_neg same] at found
        have rule := inductionHypothesis restSorted found
        simp only [ne_eq, same, not_false_eq_true, decide_true, List.filter_cons_of_pos,
          List.map_cons, List.sum_cons] at rule ⊢
        omega

theorem erase_insert (m : OrdMap Key Value) (key : Key) (value : Value) :
    (m.insert key value).erase key = m.erase key := by
  obtain ⟨entries, sorted⟩ := m
  simp only [insert, erase, filter, mk.injEq]
  induction entries with
  | nil => simp [insertEntry]
  | cons head rest inductionHypothesis =>
      have restSorted := (List.pairwise_cons.mp sorted).2
      simp only [insertEntry]
      split
      · simp
      · split
        · rename_i after
          simp only [ne_eq, after.ne, not_false_eq_true, decide_true, List.filter_cons_of_pos]
          rw [inductionHypothesis restSorted]
        · rename_i notBefore notAfter
          have equal : head.1 = key := le_antisymm (not_lt.mp notBefore) (not_lt.mp notAfter)
          simp [equal]

theorem total_insert (weight : Key → Value → Nat) (m : OrdMap Key Value) (key : Key)
    (value : Value) :
    (m.insert key value).total weight = (m.erase key).total weight + weight key value := by
  rw [← total_erase_of_some weight (get?_insert_self m key value), erase_insert]

theorem total_insert_of_none {m : OrdMap Key Value} {key : Key}
    (weight : Key → Value → Nat) (value : Value) (missing : m.get? key = none) :
    (m.insert key value).total weight = m.total weight + weight key value := by
  rw [total_insert, erase_eq_self missing]

theorem modify_eq_insert {m : OrdMap Key Value} {key : Key} {value : Value}
    (change : Value → Value) (found : m.get? key = some value) :
    m.modify key change = m.insert key (change value) := by
  obtain ⟨entries, sorted⟩ := m
  simp only [get?] at found
  simp only [modify, mapValues, insert, mk.injEq]
  induction entries with
  | nil => simp [lookupEntry] at found
  | cons head rest inductionHypothesis =>
      have headBelow := (List.pairwise_cons.mp sorted).1
      have restSorted := (List.pairwise_cons.mp sorted).2
      by_cases same : head.1 = key
      · subst same
        simp only [lookupEntry, if_true, Option.some.injEq] at found
        subst found
        simp only [insertEntry, lt_irrefl, if_false, List.map_cons, if_true,
          List.cons.injEq, true_and]
        refine (List.map_congr_left fun entry inRest => ?_).trans (List.map_id _)
        rw [if_neg (headBelow entry inRest).ne']
        rfl
      · simp only [lookupEntry, if_neg same] at found
        have inRest := (lookupEntry_eq_some_iff restSorted).mp found
        have after : head.1 < key := headBelow _ inRest
        simp only [insertEntry, after.not_gt, if_false, after, if_true, List.map_cons, same]
        rw [inductionHypothesis restSorted found]

theorem modify_eq_self {m : OrdMap Key Value} {key : Key} (change : Value → Value)
    (missing : m.get? key = none) : m.modify key change = m := by
  obtain ⟨entries, sorted⟩ := m
  have absent := get?_eq_none_iff.mp missing
  simp only [modify, mapValues, mk.injEq]
  refine (List.map_congr_left fun entry membership => ?_).trans (List.map_id _)
  rw [if_neg (absent entry membership)]
  rfl

theorem total_modify_of_some {m : OrdMap Key Value} {key : Key} {value : Value}
    (weight : Key → Value → Nat) (change : Value → Value) (found : m.get? key = some value) :
    (m.modify key change).total weight + weight key value =
      m.total weight + weight key (change value) := by
  have erased := total_erase_of_some weight found
  rw [modify_eq_insert change found, total_insert]
  omega

theorem size_erase_of_some {m : OrdMap Key Value} {key : Key} {value : Value}
    (found : m.get? key = some value) : (m.erase key).size + 1 = m.size := by
  rw [size_eq_total, size_eq_total]
  exact total_erase_of_some (fun _ _ => 1) found

theorem size_erase_le (m : OrdMap Key Value) (key : Key) : (m.erase key).size ≤ m.size :=
  List.length_filter_le _ _

theorem size_insert_le (m : OrdMap Key Value) (key : Key) (value : Value) :
    (m.insert key value).size ≤ m.size + 1 := by
  have erased := size_erase_le m key
  rw [size_eq_total, size_eq_total] at erased
  rw [size_eq_total, size_eq_total, total_insert]
  omega

theorem size_pos_of_some {m : OrdMap Key Value} {key : Key} {value : Value}
    (found : m.get? key = some value) : 0 < m.size := by
  have erased := size_erase_of_some found
  omega

theorem weight_le_total {m : OrdMap Key Value} {key : Key} {value : Value}
    (weight : Key → Value → Nat) (found : m.get? key = some value) :
    weight key value ≤ m.total weight := by
  have erased := total_erase_of_some weight found
  omega

theorem total_congr {m : OrdMap Key Value} {first second : Key → Value → Nat}
    (same : ∀ key value, m.get? key = some value → first key value = second key value) :
    m.total first = m.total second := by
  simp only [total]
  refine congrArg List.sum (List.map_congr_left fun entry membership => ?_)
  exact same entry.1 entry.2 (get?_eq_some_iff.mpr membership)

theorem total_eq_zero {m : OrdMap Key Value} {weight : Key → Value → Nat}
    (zero : ∀ key value, m.get? key = some value → weight key value = 0) :
    m.total weight = 0 := by
  rw [total_congr zero]
  simp [total]

theorem total_le_total {m : OrdMap Key Value} {first second : Key → Value → Nat}
    (below : ∀ key value, m.get? key = some value → first key value ≤ second key value) :
    m.total first ≤ m.total second := by
  have pointwise : ∀ entry ∈ m.entries, first entry.1 entry.2 ≤ second entry.1 entry.2 :=
    fun entry membership => below entry.1 entry.2 (get?_eq_some_iff.mpr membership)
  simp only [total]
  generalize m.entries = entries at pointwise
  induction entries with
  | nil => exact le_rfl
  | cons head rest inductionHypothesis =>
      have atHead := pointwise head List.mem_cons_self
      have inRest := inductionHypothesis fun entry membership =>
        pointwise entry (List.mem_cons_of_mem head membership)
      simp only [List.map_cons, List.sum_cons]
      omega

theorem total_mul_left (m : OrdMap Key Value) (factor : Nat) (weight : Key → Value → Nat) :
    (m.total fun key value => factor * weight key value) = factor * m.total weight := by
  simp only [total]
  induction m.entries with
  | nil => rfl
  | cons head rest inductionHypothesis =>
      simp only [List.map_cons, List.sum_cons, inductionHypothesis, Nat.mul_add]

theorem total_lt_total {m : OrdMap Key Value} {first second : Key → Value → Nat}
    (below : ∀ key value, m.get? key = some value → first key value ≤ second key value)
    {key : Key} {value : Value} (found : m.get? key = some value)
    (strict : first key value < second key value) : m.total first < m.total second := by
  have others : (m.erase key).total first ≤ (m.erase key).total second :=
    total_le_total fun other stored kept => below other stored (get?_erase_eq_some_iff.mp kept).2
  have byFirst := total_erase_of_some first found
  have bySecond := total_erase_of_some second found
  omega

@[simp]
theorem total_mapValues (weight : Key → Value → Nat) (change : Key → Value → Value)
    (m : OrdMap Key Value) :
    (m.mapValues change).total weight = m.total fun key value => weight key (change key value) := by
  simp [total, mapValues, Function.comp_def]

theorem total_view {Seen : Type v} (weight : Key → Seen → Nat) (seen : Value → Seen)
    (m : OrdMap Key Value) :
    (m.view seen).total weight = m.total fun key value => weight key (seen value) := by
  simp [total, view, Function.comp_def]

/-- Maps whose values look alike under every key have the same sum of what is seen. -/
theorem total_of_view {Seen : Type v} {seen : Value → Seen} {first second : OrdMap Key Value}
    (same : ∀ key, (first.get? key).map seen = (second.get? key).map seen)
    (weight : Key → Seen → Nat) :
    (first.total fun key value => weight key (seen value)) =
      second.total fun key value => weight key (seen value) := by
  have views : first.view seen = second.view seen := by
    apply ext_get?
    intro key
    rw [get?_view, get?_view]
    exact same key
  rw [← total_view, views, total_view]

end OrdMap
