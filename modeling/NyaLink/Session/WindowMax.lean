import NyaLink.Session.Windowed

/-!
# A maximum over a window

What `update` returns, the value of slot 0, is that of a sample of the window, is
not below the newest sample, and not below a sample that was the maximum when it
came as long as the window holds that one.  A sample at time 0 is kept as one at
time 1, because 0 marks an empty filter.
-/

namespace NyaLink

def Sample.slot (s : Sample) : Slot := ⟨s.v, max s.t 1⟩

namespace MinMax3

def Has (m : MinMax3) (slot : Slot) : Prop := slot = m.best ∨ slot = m.second ∨ slot = m.third

theorem has_expire {m : MinMax3} {fresh slot : Slot} {win : Nat}
    (has : (m.expire fresh win).Has slot) : slot = fresh ∨ m.Has slot := by
  revert has
  simp only [Has, expire]
  split_ifs <;> grind

theorem has_update {m : MinMax3} {s : Sample} {slot : Slot} {win : Nat}
    (has : (m.update s.v s.t win).Has slot) : slot = s.slot ∨ m.best.t ≠ 0 ∧ m.Has slot := by
  revert has
  simp only [update]
  split_ifs with resets
  · rintro (rfl | rfl | rfl) <;> exact .inl rfl
  all_goals
    intro has
    simp only [stale, Bool.or_eq_true, decide_eq_true_eq, not_or] at resets
  · rcases has_expire has with fresh | first | rest | rest
    · exact .inl fresh
    · exact .inr ⟨resets.2.1, .inl first⟩
    · exact .inl rest
    · exact .inl rest
  · rcases has_expire has with fresh | first | middle | last
    · exact .inl fresh
    · exact .inr ⟨resets.2.1, .inl first⟩
    · exact .inr ⟨resets.2.1, .inr (.inl middle)⟩
    · exact .inl last
  · exact (has_expire has).imp_right fun kept => ⟨resets.2.1, kept⟩

/-- The sample becomes the maximum if it is none below, or if the maximum is too old; otherwise
a sample above it is kept that the window still holds, the maximum itself for as long as it
does. -/
theorem best_update_cases {m : MinMax3} (ordered : m.Ordered) {s : Sample} {win : Nat}
    (newest : m.third.t ≤ s.slot.t) :
    (m.update s.v s.t win).best = s.slot ∧
        (m.best.v ≤ s.v ∨ m.best.t = 0 ∨ win < s.slot.t - m.best.t) ∨
      s.v < (m.update s.v s.t win).best.v ∧
        s.slot.t - (m.update s.v s.t win).best.t ≤ win ∧
        ((m.update s.v s.t win).best = m.best ∨ win < s.slot.t - m.best.t) := by
  obtain ⟨second_le, third_le, best_before, second_before⟩ := ordered
  generalize kept : (m.update s.v s.t win).best = best
  simp only [update] at kept
  simp only [Sample.slot] at newest ⊢
  generalize max s.t 1 = now at kept newest ⊢
  split_ifs at kept with resets
  · simp only [stale, Bool.or_eq_true, decide_eq_true_eq] at resets
    exact .inl ⟨kept.symm, by omega⟩
  all_goals
    simp only [stale, Bool.or_eq_true, decide_eq_true_eq, not_or] at resets
    simp only [best_expire] at kept
    subst kept
  · rw [ite_self]
    split_ifs with aged
    · exact .inl ⟨rfl, .inr (.inr aged)⟩
    · exact .inr ⟨by omega, by omega, .inl rfl⟩
  · split_ifs with aged older
    · exact .inl ⟨rfl, .inr (.inr aged)⟩
    · exact .inr ⟨by omega, by omega, .inr aged⟩
    · exact .inr ⟨by omega, by omega, .inl rfl⟩
  · split_ifs with aged older
    · exact .inr ⟨by omega, by omega, .inr aged⟩
    · exact .inr ⟨by omega, by omega, .inr aged⟩
    · exact .inr ⟨by omega, by omega, .inl rfl⟩

end MinMax3

/-- A filter with everything it was fed, and with the samples that were the maximum when they
came; the newest are first. -/
structure Filtered where
  filter : MinMax3
  samples : List Sample
  tops : List Sample
  deriving DecidableEq, Repr

namespace Filtered

def new : Filtered := ⟨.new, [], []⟩

/-- `update` returns the value of slot 0. -/
def feed (f : Filtered) (win : Nat) (s : Sample) : Filtered :=
  let filter := f.filter.update s.v s.t win
  ⟨filter, s :: f.samples, if filter.best.v = s.v then s :: f.tops else f.tops⟩

def machine (win : Nat) : Machine Filtered Sample where
  initial f := f = .new
  step f s := if f.samples.head?.all (fun newest => decide (newest.t ≤ s.t)) then
    some (f.feed win s) else none

/-- What the slots are to the samples, while `newest` is the last of these. -/
structure Current (f : Filtered) (win : Nat) (newest : Sample) : Prop where
  third_le : f.filter.third.t ≤ newest.slot.t
  newest_le : newest.v ≤ f.filter.best.v
  recent : newest.slot.t - f.filter.best.t ≤ win
  tops : ∀ x ∈ f.tops, newest.slot.t - x.slot.t ≤ win →
    x.v ≤ f.filter.best.v ∧ x.slot.t ≤ f.filter.best.t

structure Sound (f : Filtered) (win : Nat) : Prop where
  ordered : f.filter.Ordered
  held : f.samples ≠ [] → ∀ slot, f.filter.Has slot → ∃ x ∈ f.samples, slot = x.slot
  unfed : f.samples = [] → f.filter.third.t = 0 ∧ f.tops = []
  current : ∀ newest, f.samples.head? = some newest → f.Current win newest

theorem sound_new (win : Nat) : new.Sound win :=
  ⟨MinMax3.ordered_new, fun held => absurd rfl held, fun _ => ⟨rfl, rfl⟩,
    fun _ none => by cases none⟩

/-- A sample the window still holds stays below the maximum, whatever is fed next. -/
theorem bounds_update {m : MinMax3} (ordered : m.Ordered) {s x : Sample} {win : Nat}
    (newest : m.third.t ≤ s.slot.t) (bounded : x.v ≤ m.best.v ∧ x.slot.t ≤ m.best.t)
    (within : s.slot.t - x.slot.t ≤ win) :
    x.v ≤ (m.update s.v s.t win).best.v ∧ x.slot.t ≤ (m.update s.v s.t win).best.t := by
  have positive : 1 ≤ x.slot.t := le_max_right _ _
  obtain ⟨low, early⟩ := bounded
  have before := ordered.best_before
  have after := ordered.second_before
  rcases @MinMax3.best_update_cases m ordered s win newest with
    ⟨same, record | empty | aged⟩ | ⟨-, -, same | aged⟩
  · rw [same]
    exact ⟨low.trans record, by omega⟩
  · omega
  · omega
  · rw [same]
    exact ⟨low, early⟩
  · omega

theorem Sound.current_feed {f : Filtered} {win : Nat} {s : Sample} (sound : f.Sound win)
    (newest : f.filter.third.t ≤ s.slot.t)
    (later : ∀ last, f.samples.head? = some last → last.slot.t ≤ s.slot.t) :
    (f.feed win s).Current win s := by
  have cases_of := @MinMax3.best_update_cases f.filter sound.ordered s win newest
  refine ⟨?_, ?_, ?_, fun x top within => ?_⟩
  · have third := MinMax3.third_update_t (v := s.v) (t := s.t) win sound.ordered newest
    simp only [Filtered.feed, third]
    split_ifs
    · exact newest
    · exact Nat.le_refl _
  · rcases cases_of with ⟨same, -⟩ | ⟨above, -⟩
    · exact Nat.le_of_eq (congrArg Slot.v same).symm
    · exact Nat.le_of_lt above
  · rcases cases_of with ⟨same, -⟩ | ⟨-, recent, -⟩
    · simp only [Filtered.feed, same, Nat.sub_self, Nat.zero_le]
    · exact recent
  · have old : x ∈ f.tops → x.v ≤ (f.feed win s).filter.best.v ∧
        x.slot.t ≤ (f.feed win s).filter.best.t := by
      intro earlier
      cases fed : f.samples with
      | nil =>
          rw [(sound.unfed fed).2] at earlier
          cases earlier
      | cons last rest =>
          have head : f.samples.head? = some last := by rw [fed]; rfl
          have passed := later last head
          refine bounds_update sound.ordered newest ?_ within
          exact (sound.current last head).tops x earlier (by omega)
    simp only [Filtered.feed] at top
    split_ifs at top with record
    · rcases List.mem_cons.mp top with rfl | earlier
      · rcases cases_of with ⟨same, -⟩ | ⟨above, -⟩
        · simp only [Filtered.feed, same]
          exact ⟨Nat.le_refl _, Nat.le_refl _⟩
        · exact absurd record.symm above.ne
      · exact old earlier
    · exact old top

theorem Sound.feed {f : Filtered} {win : Nat} {s : Sample} (sound : f.Sound win)
    (later : f.samples.head?.all (fun newest => decide (newest.t ≤ s.t)) = true) :
    (f.feed win s).Sound win := by
  have passed : ∀ last, f.samples.head? = some last → last.slot.t ≤ s.slot.t := by
    intro last head
    rw [head, Option.all_some, decide_eq_true_eq] at later
    simp only [Sample.slot]
    omega
  have newest : f.filter.third.t ≤ s.slot.t := by
    cases head : f.samples.head? with
    | none => exact (sound.unfed (List.head?_eq_none_iff.mp head)).1 ▸ Nat.zero_le _
    | some last => exact (sound.current last head).third_le.trans (passed last head)
  refine ⟨sound.ordered.update win newest, fun _ slot has => ?_,
    fun none => absurd none (List.cons_ne_nil _ _), ?_⟩
  · rcases MinMax3.has_update has with rfl | ⟨kept, had⟩
    · exact ⟨s, List.mem_cons_self .., rfl⟩
    · have fed : f.samples ≠ [] := fun none => by
        have unfed := (sound.unfed none).1
        have before := sound.ordered.best_before
        have after := sound.ordered.second_before
        omega
      obtain ⟨x, inside, same⟩ := sound.held fed slot had
      exact ⟨x, List.mem_cons_of_mem _ inside, same⟩
  · intro last head
    obtain rfl : s = last := Option.some.inj head
    exact sound.current_feed newest passed

theorem sound_of_reachable {win : Nat} {f : Filtered} (reachable : (machine win).Reachable f) :
    f.Sound win := by
  refine reachable.invariant (fun f => f.Sound win) ?_ ?_
  · rintro _ rfl
    exact sound_new win
  · intro f s next sound taken
    simp only [machine, Option.ite_none_right_eq_some, Option.some.injEq] at taken
    obtain ⟨later, rfl⟩ := taken
    exact sound.feed later

/-- The slots are in order, and their maximum is a sample of the window, no lower than the newest
sample, nor than any that was the maximum when it came and is of the window still. -/
theorem windowed_maximum {win : Nat} {f : Filtered} (reachable : (machine win).Reachable f) :
    f.filter.Ordered ∧ ∀ newest, f.samples.head? = some newest →
      (∃ x ∈ f.samples, x.v = f.filter.best.v ∧ newest.slot.t - x.slot.t ≤ win) ∧
        newest.v ≤ f.filter.best.v ∧
        ∀ x ∈ f.tops, newest.slot.t - x.slot.t ≤ win → x.v ≤ f.filter.best.v := by
  have sound := sound_of_reachable reachable
  refine ⟨sound.ordered, fun newest head => ?_⟩
  have current := sound.current newest head
  refine ⟨?_, current.newest_le, fun x top within => (current.tops x top within).1⟩
  have fed : f.samples ≠ [] := fun none => by rw [none] at head; cases head
  obtain ⟨x, inside, same⟩ := sound.held fed f.filter.best (.inl rfl)
  have recent := current.recent
  rw [same] at recent
  exact ⟨x, inside, (congrArg Slot.v same).symm, recent⟩

def fallingSamples : List Sample := [⟨100, 1⟩, ⟨50, 300000⟩, ⟨40, 600000⟩, ⟨30, 1100000⟩]

theorem windowed_maximum_falling : ∃ f, (machine 1000000).run new fallingSamples = some f ∧
    f.filter.best.v = 50 ∧ f.tops = [⟨100, 1⟩] ∧
    (∃ x ∈ f.samples, x.v = f.filter.best.v ∧ 1100000 - x.slot.t ≤ 1000000) ∧
    30 ≤ f.filter.best.v := by
  have replayed : ∃ f, (machine 1000000).run new fallingSamples = some f ∧
      f.filter.best.v = 50 ∧ f.tops = [⟨100, 1⟩] ∧ f.samples.head? = some ⟨30, 1100000⟩ :=
    ⟨_, rfl, rfl, rfl, rfl⟩
  obtain ⟨f, replay, best, tops, head⟩ := replayed
  have begins : (machine 1000000).Reachable new := .start rfl
  obtain ⟨-, current⟩ := windowed_maximum (begins.run replay)
  obtain ⟨recent, least, -⟩ := current _ head
  exact ⟨f, replay, best, tops, recent, least⟩

/-- A sample at time 0 is the maximum one microsecond longer than the window. -/
theorem zero_time_outlives : ∃ f, (machine 10).run new [⟨5, 0⟩, ⟨3, 11⟩] = some f ∧
    f.filter.best.v = 5 ∧ ¬ ∃ x ∈ f.samples, x.v = f.filter.best.v ∧ 11 - x.t ≤ 10 :=
  ⟨_, rfl, rfl, by decide⟩

end Filtered

end NyaLink
