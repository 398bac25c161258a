import NyaLink.Session.Budget

/-!
# What a windowed filter forgets

A read tests the age of slot 2.  It forgets only what is old as long as slot 2
holds the newest sample, and a sample below all three slots reaches it only when
the window, its half or its quarter has passed.
-/

namespace NyaLink

/-- `MinMax3` or `WindowedMin`. -/
inductive Extreme where
  | max
  | min
  deriving DecidableEq, Repr

def Extreme.stored (kind : Extreme) (v : Nat) : Nat :=
  match kind with
  | .max => v
  | .min => u64Max - v

namespace MinMax3

/-- What a read reports: `0` is the answer of `MinMax3::get` for no sample. -/
def read (m : MinMax3) (kind : Extreme) (now win : Nat) : Option Nat :=
  match kind with
  | .max => if m.get now win = 0 then none else some (m.get now win)
  | .min => m.getMin now win

def insert (m : MinMax3) (kind : Extreme) (v t win : Nat) : MinMax3 :=
  match kind with
  | .max => m.update v t win
  | .min => m.updateMin v t win

theorem insert_eq_update (m : MinMax3) (kind : Extreme) (v t win : Nat) :
    m.insert kind v t win = m.update (kind.stored v) t win := by
  cases kind with
  | max => rfl
  | min => rfl

def slides (m : MinMax3) (now win : Nat) : Bool :=
  decide (win < now - m.best.t) ||
    (decide (m.second.t = m.best.t) && decide (win / 4 < now - m.best.t)) ||
    (decide (m.third.t = m.second.t) && decide (win / 2 < now - m.best.t))

def misses (m : MinMax3) (v t win : Nat) : Bool :=
  let t := max t 1
  !m.stale t win && decide (v < m.third.v) && decide (m.third.t < t) && !m.slides t win

def blanks (m : MinMax3) (v t win : Nat) : Bool :=
  let t := max t 1
  decide (v = 0) && (decide (m.best.v = 0) || m.stale t win ||
    (decide (win < t - m.best.t) &&
      (decide (m.second.v = 0) || (decide (m.third.v = 0) && decide (win < t - m.second.t)))))

/-! ## The slots -/

/-- The slots in order, the first at a time that is not 0 unless the filter is new. -/
structure Ordered (m : MinMax3) : Prop where
  second_le : m.second.v ≤ m.best.v
  third_le : m.third.v ≤ m.second.v
  best_before : m.best.t ≤ m.second.t
  second_before : m.second.t ≤ m.third.t

theorem ordered_new : MinMax3.new.Ordered :=
  ⟨Nat.le_refl _, Nat.le_refl _, Nat.le_refl _, Nat.le_refl _⟩

theorem ordered_reset (v t : Nat) : (reset v t).Ordered :=
  ⟨Nat.le_refl _, Nat.le_refl _, Nat.le_refl _, Nat.le_refl _⟩

theorem Ordered.expire {m : MinMax3} (ordered : m.Ordered) {fresh : Slot} (win : Nat)
    (least : fresh.v ≤ m.third.v) (newest : m.third.t ≤ fresh.t) :
    (m.expire fresh win).Ordered := by
  obtain ⟨second_le, third_le, best_before, second_before⟩ := ordered
  simp only [MinMax3.expire]
  split_ifs
  · exact ⟨least, Nat.le_refl _, newest, Nat.le_refl _⟩
  · exact ⟨third_le, least, second_before, newest⟩
  · exact ⟨by dsimp only; omega, Nat.le_refl _, by dsimp only; omega, Nat.le_refl _⟩
  · exact ⟨second_le, by dsimp only; omega, best_before, by dsimp only; omega⟩
  · exact ⟨second_le, third_le, best_before, second_before⟩

theorem Ordered.update {m : MinMax3} (ordered : m.Ordered) {v t : Nat} (win : Nat)
    (newest : m.third.t ≤ max t 1) : (m.update v t win).Ordered := by
  obtain ⟨second_le, third_le, best_before, second_before⟩ := ordered
  simp only [MinMax3.update]
  split_ifs with resets challenges follows
  · exact ordered_reset _ _
  · simp only [Bool.or_eq_true, decide_eq_true_eq, not_or] at resets
    have challenged : Ordered ⟨m.best, ⟨v, max t 1⟩, ⟨v, max t 1⟩⟩ :=
      ⟨by dsimp only; omega, Nat.le_refl _, by dsimp only; omega, Nat.le_refl _⟩
    exact challenged.expire win (Nat.le_refl _) (Nat.le_refl _)
  · have followed : Ordered { m with third := ⟨v, max t 1⟩ } :=
      ⟨second_le, by dsimp only; omega, best_before, by dsimp only; omega⟩
    exact followed.expire win (Nat.le_refl _) (Nat.le_refl _)
  · exact Ordered.expire ⟨second_le, third_le, best_before, second_before⟩ win
      (by dsimp only; omega) newest

theorem third_expire (m : MinMax3) (fresh : Slot) (win : Nat) :
    (m.expire fresh win).third = if m.slides fresh.t win then fresh else m.third := by
  simp only [expire, slides, Bool.or_eq_true, Bool.and_eq_true, decide_eq_true_eq]
  by_cases aged : win < fresh.t - m.best.t
  · simp only [aged, if_true, true_or]
    split_ifs <;> rfl
  by_cases quarter : m.second.t = m.best.t ∧ win / 4 < fresh.t - m.best.t
  · rw [if_neg aged, if_pos quarter, if_pos (.inl (.inr quarter))]
  by_cases half : m.third.t = m.second.t ∧ win / 2 < fresh.t - m.best.t
  · rw [if_neg aged, if_neg quarter, if_pos half, if_pos (.inr half)]
  · rw [if_neg aged, if_neg quarter, if_neg half]
    simp only [aged, quarter, half, or_self, if_false]

theorem best_expire (m : MinMax3) (fresh : Slot) (win : Nat) :
    (m.expire fresh win).best =
      if win < fresh.t - m.best.t then
        if win < fresh.t - m.second.t then m.third else m.second
      else m.best := by
  simp only [expire]
  split_ifs <;> rfl

theorem third_update_t {m : MinMax3} {v t : Nat} (win : Nat) (ordered : m.Ordered)
    (newest : m.third.t ≤ max t 1) :
    (m.update v t win).third.t = if m.misses v t win then m.third.t else max t 1 := by
  obtain ⟨second_le, third_le, -, -⟩ := ordered
  simp only [update, misses, Bool.and_eq_true, Bool.not_eq_true', decide_eq_true_eq]
  generalize max t 1 = now at newest ⊢
  split_ifs with resets missed challenges missed follows missed missed
  · simp only [Bool.or_eq_true, decide_eq_true_eq, missed.1.1.1, Bool.false_eq_true,
      or_false] at resets
    omega
  · rfl
  · omega
  · simp only [third_expire, ite_self]
  · omega
  · simp only [third_expire, ite_self]
  · rw [third_expire, missed.2]
    rfl
  · simp only [Bool.or_eq_true, decide_eq_true_eq, not_or, Bool.not_eq_true] at resets
    rw [third_expire]
    by_cases slid : m.slides now win = true
    · rw [if_pos slid]
    · have sameTime : ¬ m.third.t < now := fun later =>
        missed ⟨⟨⟨resets.2, by omega⟩, later⟩, by simpa using slid⟩
      rw [if_neg slid]
      omega

theorem best_update_eq_zero_iff {m : MinMax3} {v t : Nat} (win : Nat) (ordered : m.Ordered) :
    (m.update v t win).best.v = 0 ↔ m.blanks v t win = true := by
  obtain ⟨second_le, third_le, best_before, second_before⟩ := ordered
  simp only [update, blanks, Bool.and_eq_true, Bool.or_eq_true, decide_eq_true_eq]
  generalize max t 1 = now
  split_ifs with resets challenges follows
  · simp only [reset]
    constructor
    · intro nothing
      exact ⟨nothing, .inl (resets.imp_left fun record => by omega)⟩
    · exact And.left
  all_goals
    simp only [not_or, Bool.not_eq_true] at resets
    simp only [resets.2, Bool.false_eq_true, or_false, best_expire, Nat.sub_self, Nat.not_lt_zero,
      if_false]
  · split_ifs with aged <;> simp only [aged, true_and, false_and, or_false] <;> omega
  · split_ifs with aged older <;> simp only [aged, true_and, false_and, or_false] <;> omega
  · split_ifs with aged older <;> simp only [aged, true_and, false_and, or_false] <;> omega

theorem best_update_t_ne_zero {m : MinMax3} {v t : Nat} (win : Nat) (ordered : m.Ordered) :
    (m.update v t win).best.t ≠ 0 := by
  obtain ⟨-, -, best_before, second_before⟩ := ordered
  simp only [update]
  split_ifs with resets challenges follows
  · simp only [reset]
    omega
  all_goals
    simp only [stale, Bool.or_eq_true, decide_eq_true_eq, not_or] at resets
    simp only [best_expire]
    split_ifs <;> simp only [ne_eq] <;> omega

theorem read_max_eq_none_iff (m : MinMax3) (now win : Nat) :
    m.read .max now win = none ↔ m.get now win = 0 := by
  simp only [read]
  by_cases nothing : m.get now win = 0
  · simp only [nothing, if_true]
  · simp only [nothing, if_false, reduceCtorEq]

theorem read_eq_none_iff (m : MinMax3) (kind : Extreme) (now win : Nat) :
    m.read kind now win = none ↔ m.stale now win = true ∨ kind = .max ∧ m.best.v = 0 := by
  cases kind with
  | max =>
      rw [read_max_eq_none_iff, get]
      by_cases stale : m.stale now win = true
      · simp only [stale, if_true, true_or]
      · simp only [stale, if_false, Bool.false_eq_true, false_or, true_and]
  | min =>
      simp only [read, getMin, ite_eq_left_iff, reduceCtorEq, imp_false, Decidable.not_not,
        false_and, or_false]

end MinMax3

/-! ## A filter and what it was fed -/

structure Sample where
  v : Nat
  t : Nat
  deriving DecidableEq, Repr

/-- A filter with the times of its updates, as history, and the latest of them. -/
structure Fed where
  filter : MinMax3
  times : List Nat
  last : Nat
  deriving DecidableEq, Repr

namespace Fed

def new : Fed := ⟨.new, [], 0⟩

def feed (f : Fed) (kind : Extreme) (win : Nat) (s : Sample) : Fed :=
  ⟨f.filter.insert kind s.v s.t win, s.t :: f.times, s.t⟩

def machine (kind : Extreme) (win : Nat) : Machine Fed Sample where
  initial f := f = .new
  step f s := if f.last ≤ s.t ∧ s.v ≤ u64Max then some (f.feed kind win s) else none

/-- A read from now on reports no sample only a whole window after every update. -/
def ForgetsOld (f : Fed) (kind : Extreme) (win : Nat) : Prop :=
  ∀ now, f.last ≤ now → f.filter.read kind now win = none → ∀ t ∈ f.times, win < now - t

def records (f : Fed) (kind : Extreme) (win : Nat) (s : Sample) : Bool :=
  !f.filter.misses (kind.stored s.v) s.t win &&
    !(decide (kind = .max) && f.filter.blanks (kind.stored s.v) s.t win)

structure Sound (f : Fed) : Prop where
  ordered : f.filter.Ordered
  third_le : f.filter.third.t ≤ max f.last 1
  times_le : ∀ t ∈ f.times, t ≤ f.last

theorem sound_new : Fed.new.Sound :=
  ⟨MinMax3.ordered_new, Nat.zero_le _, fun _ mem => by cases mem⟩

theorem Sound.feed {f : Fed} (sound : f.Sound) (kind : Extreme) (win : Nat) {s : Sample}
    (later : f.last ≤ s.t) : (f.feed kind win s).Sound := by
  have newest : f.filter.third.t ≤ max s.t 1 := sound.third_le.trans (by omega)
  simp only [Fed.feed, MinMax3.insert_eq_update]
  refine ⟨sound.ordered.update win newest, ?_, ?_⟩
  · dsimp only
    rw [MinMax3.third_update_t win sound.ordered newest]
    split_ifs
    · exact newest
    · exact Nat.le_refl _
  · intro t mem
    rcases List.mem_cons.mp mem with rfl | earlier
    · exact Nat.le_refl _
    · exact (sound.times_le t earlier).trans later

theorem forgetsOld_feed_iff {f : Fed} (sound : f.Sound) (kind : Extreme) (win : Nat) {s : Sample}
    (later : f.last ≤ s.t) :
    (f.feed kind win s).ForgetsOld kind win ↔ f.records kind win s = true := by
  have newest : f.filter.third.t ≤ max s.t 1 := sound.third_le.trans (by omega)
  have third := MinMax3.third_update_t (v := kind.stored s.v) win sound.ordered newest
  have held := MinMax3.best_update_t_ne_zero (v := kind.stored s.v) (t := s.t) win sound.ordered
  simp only [ForgetsOld, Fed.feed, MinMax3.insert_eq_update, MinMax3.read_eq_none_iff,
    MinMax3.best_update_eq_zero_iff win sound.ordered, records, Bool.and_eq_true,
    Bool.not_eq_true', Bool.and_eq_false_iff, decide_eq_false_iff_not]
  constructor
  · intro forgets
    refine ⟨Bool.eq_false_iff.mpr fun missed => ?_, ?_⟩
    · -- Slot 2 is older than the sample, so it ages out first.
      rw [if_pos missed] at third
      obtain ⟨-, -, best_before, second_before⟩ := sound.ordered
      simp only [MinMax3.misses, MinMax3.stale, Bool.and_eq_true, Bool.not_eq_true',
        Bool.or_eq_false_iff, decide_eq_true_eq, decide_eq_false_iff_not] at missed
      have stale : ((f.filter.update (kind.stored s.v) s.t win).stale (s.t + win) win) = true := by
        simp only [MinMax3.stale, third, Bool.or_eq_true, decide_eq_true_eq]
        omega
      have old := forgets (s.t + win) (Nat.le_add_right _ _) (.inl stale) s.t
        (List.mem_cons_self ..)
      omega
    · by_cases most : kind = .max
      · refine .inr (Bool.eq_false_iff.mpr fun blanked => ?_)
        have old := forgets s.t (Nat.le_refl _) (.inr ⟨most, blanked⟩) s.t (List.mem_cons_self ..)
        omega
      · exact .inl most
  · rintro ⟨taken, kept⟩ now after nothing t mem
    rw [if_neg (Bool.eq_false_iff.mp taken)] at third
    rcases nothing with stale | ⟨most, blanked⟩
    · simp only [MinMax3.stale, third, held, decide_false, Bool.false_or,
        decide_eq_true_eq] at stale
      have before : t ≤ s.t := by
        rcases List.mem_cons.mp mem with rfl | earlier
        · exact Nat.le_refl _
        · exact (sound.times_le t earlier).trans later
      omega
    · rcases kept with least | notBlanked
      · exact absurd most least
      · rw [notBlanked] at blanked
        cases blanked

theorem sound_of_reachable {kind : Extreme} {win : Nat} {f : Fed}
    (reachable : (machine kind win).Reachable f) : f.Sound := by
  refine Machine.Reachable.invariant Sound ?_ ?_ reachable
  · rintro f rfl
    exact sound_new
  · intro f s next sound taken
    simp only [machine, Option.ite_none_right_eq_some, Option.some.injEq] at taken
    obtain ⟨⟨later, -⟩, rfl⟩ := taken
    exact sound.feed kind win later

end Fed

/-! ## The filter of a path -/

/-- `note_bw_sample` restarts the budget from its floor. -/
def PathBudget.restartsIdle (b : PathBudget) (p : Path) (now : Nat) : Bool :=
  decide (b.bwFilter.get now p.bwWindowUs = 0)

theorem PathBudget.noteBwSample_of_restartsIdle {b : PathBudget} {p : Path} {now : Nat}
    (idle : b.restartsIdle p now = true) (bytesS mono : Nat) :
    b.noteBwSample p bytesS now mono =
      { b with bwFilter := b.bwFilter.update bytesS now p.bwWindowUs }.restart now := by
  simp only [PathBudget.restartsIdle, decide_eq_true_eq] at idle
  simp only [PathBudget.noteBwSample, idle, if_true]

namespace PathBudget

@[simp]
theorem bwFilter_allow (b : PathBudget) (r : Round) : (b.allow r).bwFilter = b.bwFilter := by
  simp only [allow]
  split_ifs <;> rfl

@[simp]
theorem bwFilter_closeRound (b : PathBudget) (r : Round) :
    (b.closeRound r).bwFilter = b.bwFilter := by
  simp only [closeRound]
  split_ifs <;> simp only [bwFilter_allow]

theorem bwFilter_noteBwSample (b : PathBudget) (p : Path) (bytesS now mono : Nat) :
    (b.noteBwSample p bytesS now mono).bwFilter = b.bwFilter.update bytesS now p.bwWindowUs := by
  simp only [noteBwSample]
  split_ifs
  · rfl
  · rfl
  · simp only [endBudgetRound, bwFilter_closeRound]
    rfl

end PathBudget

/-- `note_bw_sample` with its rate, its time, and what its own clock reads. -/
structure BwNote where
  bytesS : Nat
  now : Nat
  mono : Nat
  deriving DecidableEq, Repr

def BwNote.sample (n : BwNote) : Sample := ⟨n.bytesS, n.now⟩

/-- The budget of a path, with the history of its bandwidth filter. -/
structure BwPath where
  budget : PathBudget
  times : List Nat
  last : Nat
  deriving DecidableEq, Repr

namespace BwPath

def new (b : PathBudget) : BwPath := ⟨{ b with bwFilter := .new }, [], 0⟩

def fed (s : BwPath) : Fed := ⟨s.budget.bwFilter, s.times, s.last⟩

def note (s : BwPath) (p : Path) (n : BwNote) : BwPath :=
  ⟨s.budget.noteBwSample p n.bytesS n.now n.mono, n.now :: s.times, n.now⟩

/-- Calls of `note_bw_sample` while the path keeps one window. -/
def machine (p : Path) : Machine BwPath BwNote where
  initial s := ∃ b, s = .new b
  step s n := if s.last ≤ n.now ∧ n.bytesS ≤ u64Max then some (s.note p n) else none

/-- A call from now on restarts the budget only a whole window after every sample. -/
def RestartsOldOnly (s : BwPath) (p : Path) : Prop :=
  ∀ now, s.last ≤ now → s.budget.restartsIdle p now = true →
    ∀ t ∈ s.times, p.bwWindowUs < now - t

theorem fed_note (s : BwPath) (p : Path) (n : BwNote) :
    (s.note p n).fed = s.fed.feed .max p.bwWindowUs n.sample := by
  simp only [fed, note, Fed.feed, PathBudget.bwFilter_noteBwSample]
  rfl

theorem restartsOldOnly_iff (s : BwPath) (p : Path) :
    s.RestartsOldOnly p ↔ s.fed.ForgetsOld .max p.bwWindowUs := by
  simp only [RestartsOldOnly, Fed.ForgetsOld, fed, PathBudget.restartsIdle, decide_eq_true_eq,
    MinMax3.read_max_eq_none_iff]

theorem sound_of_reachable {p : Path} {s : BwPath} (reachable : (machine p).Reachable s) :
    s.fed.Sound := by
  refine Machine.Reachable.invariant (fun s => s.fed.Sound) ?_ ?_ reachable
  · rintro s ⟨b, rfl⟩
    exact Fed.sound_new
  · intro s n next sound taken
    simp only [machine, Option.ite_none_right_eq_some, Option.some.injEq] at taken
    obtain ⟨⟨later, -⟩, rfl⟩ := taken
    rw [fed_note]
    exact sound.feed .max p.bwWindowUs later

end BwPath

/-- A filter forgets only what is old exactly when every update reaches slot 2 and none passes
for no sample, and then only a whole idle window restarts a budget. -/
theorem forgetsOld_iff_records (kind : Extreme) (win : Nat) (samples : List Sample) (p : Path)
    (b : PathBudget) (notes : List BwNote) :
    ((Fed.machine kind win).Throughout (fun _ _ next => next.ForgetsOld kind win) .new samples ↔
      (Fed.machine kind win).Throughout (fun f s _ => f.records kind win s = true) .new samples) ∧
    ((BwPath.machine p).Throughout (fun _ _ next => next.RestartsOldOnly p) (.new b) notes ↔
      (BwPath.machine p).Throughout
        (fun s n _ => s.fed.records .max p.bwWindowUs n.sample = true) (.new b) notes) := by
  constructor
  · have begins : (Fed.machine kind win).Reachable .new := .start rfl
    refine begins.throughout_iff (fun f s next reachable taken => ?_) samples
    simp only [Fed.machine, Option.ite_none_right_eq_some, Option.some.injEq] at taken
    obtain ⟨⟨later, -⟩, rfl⟩ := taken
    exact Fed.forgetsOld_feed_iff (Fed.sound_of_reachable reachable) kind win later
  · have begins : (BwPath.machine p).Reachable (.new b) := .start ⟨b, rfl⟩
    refine begins.throughout_iff (fun s n next reachable taken => ?_) notes
    simp only [BwPath.machine, Option.ite_none_right_eq_some, Option.some.injEq] at taken
    obtain ⟨⟨later, -⟩, rfl⟩ := taken
    rw [BwPath.restartsOldOnly_iff, BwPath.fed_note]
    exact Fed.forgetsOld_feed_iff (BwPath.sound_of_reachable reachable) .max _ later

def afterTheLargest : List Sample := [⟨100, 1⟩, ⟨1, 200001⟩]

/-- It is 0.9 windows old, and the filter reports no sample. -/
theorem forgets_recent_sample : ∃ f, (Fed.machine .max 1000000).run .new afterTheLargest = some f ∧
    f.filter.read .max 1100001 1000000 = none ∧ 200001 ∈ f.times ∧ 1100001 - 200001 ≤ 1000000 ∧
    ¬ (Fed.machine .max 1000000).Throughout (fun _ _ next => next.ForgetsOld .max 1000000) .new
      afterTheLargest := by
  refine ⟨_, rfl, by decide, by decide, by decide, ?_⟩
  intro forgets
  obtain ⟨-, later⟩ := forgets _ rfl
  have old := (later _ rfl).1 1100001 (by decide) (by decide) 200001 (by decide)
  omega

end NyaLink
