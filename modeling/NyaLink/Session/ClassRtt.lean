import NyaLink.Library.Machine
import NyaLink.Library.Descent
import NyaLink.Session.Picker

/-!
# The class RTT

`update_class` freezes the class at the eighth fast RTT.  From then on a fast RTT
far above the class raises it, and one far below it, or just below while the
unwind permit is set, lowers it, each time by an eighth of the distance and after
a hold.  The average rounds down, so a descent closes the last gap of one.
-/

namespace NyaLink

def stableRaiseMult : Nat := 2

def stableRaiseAddUs : Nat := 15000

/-- The `kind` of a store of the class. -/
inductive ClassStore where
  | init
  | raise
  | drop
  deriving DecidableEq, Repr

/-- A call of `update_class`: the fast RTT, and the two readings of the clock it may take, of
which `later` is the one behind `elapsed`. -/
structure ClassCall where
  fast : Nat
  now : Nat
  later : Nat
  deriving DecidableEq, Repr

/-- What `update_class` reads and writes of a path. -/
structure ClassRtt where
  rttClassUs : Nat
  classInitN : Nat
  classHighSince : Option Nat
  classLowSince : Option Nat
  classLowAccum : Nat
  classUnwindPermit : Bool
  classKnownSince : Option Nat
  stableUpHold : Nat
  deriving DecidableEq, Repr

namespace ClassRtt

def new (stableUpHold : Nat) : ClassRtt := ⟨0, 0, none, none, 0, false, none, stableUpHold⟩

def stepTo (cOld fast : Nat) : Nat := (cOld * 7 + fast) / 8

def raises (cOld fast : Nat) : Bool :=
  decide (satMul cOld stableRaiseMult < fast) && decide (cOld + stableRaiseAddUs < fast)

def drops (p : ClassRtt) (fast : Nat) : Bool :=
  classShouldDrop .standard p.rttClassUs fast ||
    (p.classUnwindPermit && decide (fast < p.rttClassUs))

def updateInit (p : ClassRtt) (call : ClassCall) : ClassRtt × Option ClassStore :=
  if 8 ≤ p.classInitN + 1 then
    ({ p with
        classInitN := p.classInitN + 1, rttClassUs := call.fast
        classKnownSince := some call.now, classUnwindPermit := true }, some .init)
  else ({ p with classInitN := p.classInitN + 1 }, none)

def updateRaise (p : ClassRtt) (call : ClassCall) : ClassRtt × Option ClassStore :=
  let start := p.classHighSince.getD call.now
  if p.stableUpHold ≤ call.later - start then
    ({ p with
        rttClassUs := stepTo p.rttClassUs call.fast, classHighSince := none, classLowSince := none
        classLowAccum := 0, classUnwindPermit := true }, some .raise)
  else ({ p with classHighSince := some start, classLowSince := none, classLowAccum := 0 }, none)

def updateDrop (p : ClassRtt) (call : ClassCall) : ClassRtt × Option ClassStore :=
  let start := p.classLowSince.getD call.now
  if p.stableUpHold ≤ call.later - start + p.classLowAccum then
    ({ p with
        rttClassUs := stepTo p.rttClassUs call.fast, classHighSince := none, classLowSince := none
        classLowAccum := 0
        classUnwindPermit := if stepTo p.rttClassUs call.fast ≤ call.fast then false
          else p.classUnwindPermit }, some .drop)
  else ({ p with classHighSince := none, classLowSince := some start }, none)

def pauseLow (p : ClassRtt) (call : ClassCall) : ClassRtt :=
  { p with
    classHighSince := none, classLowSince := none
    classLowAccum := p.classLowSince.elim p.classLowAccum (p.classLowAccum + (call.later - ·)) }

/-- `update_class`, with the store it logs. -/
def updateClass (p : ClassRtt) (call : ClassCall) : ClassRtt × Option ClassStore :=
  if p.rttClassUs = 0 then p.updateInit call
  else if raises p.rttClassUs call.fast then p.updateRaise call
  else if p.drops call.fast then p.updateDrop call
  else (p.pauseLow call, none)

/-! ## What a call does -/

variable {p : ClassRtt} {call : ClassCall}

theorem lt_of_raises {cOld fast : Nat} (raised : raises cOld fast = true) :
    cOld + stableRaiseAddUs < fast := by
  simp only [raises, Bool.and_eq_true, decide_eq_true_eq] at raised
  exact raised.2

theorem lt_of_drops {fast : Nat} (dropped : p.drops fast = true) : fast < p.rttClassUs := by
  simp only [drops, Bool.or_eq_true, Bool.and_eq_true, decide_eq_true_eq] at dropped
  rcases dropped with far | ⟨-, below⟩
  · have need : max 8000 (p.rttClassUs / 4) ≤ p.rttClassUs - fast := of_decide_eq_true far
    omega
  · exact below

theorem lt_stepTo {cOld fast : Nat} (far : cOld + stableRaiseAddUs < fast) :
    cOld < stepTo cOld fast ∧ stepTo cOld fast ≤ fast := by
  simp only [stepTo, stableRaiseAddUs] at *
  omega

theorem stepTo_lt {cOld fast : Nat} (below : fast < cOld) :
    fast ≤ stepTo cOld fast ∧ stepTo cOld fast < cOld := by
  simp only [stepTo]
  omega

/-- What a call can do to the class, the permit and the freeze. -/
inductive Effect (p : ClassRtt) (call : ClassCall) (next : ClassRtt) :
    Option ClassStore → Prop where
  | kept : next.rttClassUs = p.rttClassUs → next.classUnwindPermit = p.classUnwindPermit →
      next.classKnownSince = p.classKnownSince → Effect p call next none
  | init : p.rttClassUs = 0 → next.rttClassUs = call.fast → next.classUnwindPermit = true →
      next.classKnownSince = some call.now → Effect p call next (some .init)
  | raise : p.rttClassUs ≠ 0 → p.rttClassUs + stableRaiseAddUs < call.fast →
      next.rttClassUs = stepTo p.rttClassUs call.fast → next.classUnwindPermit = true →
      next.classKnownSince = p.classKnownSince → Effect p call next (some .raise)
  | drop : call.fast < p.rttClassUs → next.rttClassUs = stepTo p.rttClassUs call.fast →
      next.classKnownSince = p.classKnownSince → Effect p call next (some .drop)

theorem effect_updateClass (p : ClassRtt) (call : ClassCall) :
    Effect p call (p.updateClass call).1 (p.updateClass call).2 := by
  simp only [updateClass]
  split_ifs with unknown raised dropped
  · simp only [updateInit]
    split_ifs
    · exact .init unknown rfl rfl rfl
    · exact .kept rfl rfl rfl
  · simp only [updateRaise]
    split_ifs
    · exact .raise unknown (lt_of_raises raised) rfl rfl rfl
    · exact .kept rfl rfl rfl
  · simp only [updateDrop]
    split_ifs
    · exact .drop (lt_of_drops dropped) rfl rfl
    · exact .drop (lt_of_drops dropped) rfl rfl
    · exact .kept rfl rfl rfl
  · exact .kept rfl rfl rfl

/-- A raise ends above the class and not above the fast RTT, a drop below the class and not below
the fast RTT; without a store the class stays. -/
theorem store_updateClass (p : ClassRtt) (call : ClassCall) :
    match (p.updateClass call).2 with
    | none => (p.updateClass call).1.rttClassUs = p.rttClassUs
    | some .init => p.rttClassUs = 0 ∧ (p.updateClass call).1.rttClassUs = call.fast
    | some .raise => p.rttClassUs < (p.updateClass call).1.rttClassUs ∧
        (p.updateClass call).1.rttClassUs ≤ call.fast
    | some .drop => call.fast ≤ (p.updateClass call).1.rttClassUs ∧
        (p.updateClass call).1.rttClassUs < p.rttClassUs := by
  have effect := effect_updateClass p call
  generalize p.updateClass call = result at effect ⊢
  obtain ⟨next, store⟩ := result
  cases effect with
  | kept same => exact same
  | init unknown stored => exact ⟨unknown, stored⟩
  | raise _ far stored =>
      show p.rttClassUs < next.rttClassUs ∧ next.rttClassUs ≤ call.fast
      rw [stored]
      exact lt_stepTo far
  | drop below stored =>
      show call.fast ≤ next.rttClassUs ∧ next.rttClassUs < p.rttClassUs
      rw [stored]
      exact stepTo_lt below

end ClassRtt

/-! ## Between the extremes -/

/-- The class with the fast RTTs since the last freeze, that of the freeze included; the newest
are first. -/
structure ClassFed where
  rtt : ClassRtt
  seen : List Nat
  deriving DecidableEq, Repr

namespace ClassFed

def new (stableUpHold : Nat) : ClassFed := ⟨.new stableUpHold, []⟩

def feed (s : ClassFed) (call : ClassCall) : ClassFed :=
  let (rtt, store) := s.rtt.updateClass call
  ⟨rtt, if store = some .init then [call.fast]
    else if rtt.classKnownSince.isSome then call.fast :: s.seen else []⟩

def machine : Machine ClassFed ClassCall where
  initial s := ∃ stableUpHold, s = .new stableUpHold
  step s call := some (s.feed call)

structure Between (s : ClassFed) : Prop where
  unknown : s.rtt.classKnownSince = none → s.rtt.rttClassUs = 0
  known : s.rtt.classKnownSince.isSome → ∃ low ∈ s.seen, ∃ high ∈ s.seen,
    low ≤ s.rtt.rttClassUs ∧ s.rtt.rttClassUs ≤ high

theorem Between.feed {s : ClassFed} (between : s.Between) (call : ClassCall) :
    (s.feed call).Between := by
  have effect := ClassRtt.effect_updateClass s.rtt call
  simp only [ClassFed.feed]
  generalize s.rtt.updateClass call = result at effect ⊢
  obtain ⟨next, store⟩ := result
  cases effect with
  | kept same _ frozen =>
      refine ⟨fun none => same.trans (between.unknown (frozen ▸ none)), fun known => ?_⟩
      obtain ⟨low, lowSeen, high, highSeen, bounds⟩ := between.known (frozen ▸ known)
      refine ⟨low, ?_, high, ?_, same ▸ bounds⟩
      all_goals
        simp only [reduceCtorEq, if_false, if_pos known]
        exact List.mem_cons_of_mem _ ‹_›
  | init _ stored _ frozen =>
      refine ⟨fun none => absurd (frozen.symm.trans none) (by simp), fun _ => ?_⟩
      exact ⟨call.fast, List.mem_singleton_self _, call.fast, List.mem_singleton_self _,
        stored.ge, stored.le⟩
  | raise nonzero far stored _ frozen =>
      refine ⟨fun none => absurd (between.unknown (frozen ▸ none)) nonzero, fun known => ?_⟩
      obtain ⟨low, lowSeen, -, -, below, -⟩ := between.known (frozen ▸ known)
      have bounds := ClassRtt.lt_stepTo far
      rw [← stored] at bounds
      simp only [reduceCtorEq, Option.some.injEq, if_false, if_pos known]
      exact ⟨low, List.mem_cons_of_mem _ lowSeen, call.fast, List.mem_cons_self,
        below.trans bounds.1.le, bounds.2⟩
  | drop far stored frozen =>
      refine ⟨fun none => ?_, fun known => ?_⟩
      · have unknown := between.unknown (frozen ▸ none)
        omega
      obtain ⟨-, -, high, highSeen, -, above⟩ := between.known (frozen ▸ known)
      have bounds := ClassRtt.stepTo_lt far
      rw [← stored] at bounds
      simp only [reduceCtorEq, Option.some.injEq, if_false, if_pos known]
      exact ⟨call.fast, List.mem_cons_self, high, List.mem_cons_of_mem _ highSeen,
        bounds.1, bounds.2.le.trans above⟩

theorem between_of_reachable {s : ClassFed} (reachable : machine.Reachable s) : s.Between := by
  refine reachable.invariant Between ?_ ?_
  · rintro _ ⟨stableUpHold, rfl⟩
    exact ⟨fun _ => rfl, fun known => by cases known⟩
  · intro s call next between taken
    obtain rfl := Option.some.inj taken
    exact between.feed call

theorem sums_fit {s : ClassFed} {call : ClassCall} (reachable : machine.Reachable s)
    (small : ∀ fast ∈ call.fast :: s.seen, fast ≤ u64Max / 8) :
    s.rtt.rttClassUs * 7 + call.fast ≤ u64Max ∧
      s.rtt.rttClassUs + stableRaiseAddUs ≤ u64Max := by
  have between := between_of_reachable reachable
  have fast := small call.fast List.mem_cons_self
  have bound : s.rtt.rttClassUs ≤ u64Max / 8 := by
    cases known : s.rtt.classKnownSince with
    | none => exact between.unknown known ▸ Nat.zero_le _
    | some since =>
        obtain ⟨-, -, high, highSeen, -, above⟩ := between.known (known ▸ rfl)
        exact above.trans (small high (List.mem_cons_of_mem _ highSeen))
  simp only [u64Max, stableRaiseAddUs] at *
  omega

theorem extremes_around {values : List Nat} {value low high : Nat} (lowSeen : low ∈ values)
    (highSeen : high ∈ values) (below : low ≤ value) (above : value ≤ high) :
    ∃ least greatest, values.min? = some least ∧ values.max? = some greatest ∧
      least ≤ value ∧ value ≤ greatest := by
  obtain ⟨least, isLeast⟩ := Option.isSome_iff_exists.mp (List.isSome_min?_of_mem lowSeen)
  obtain ⟨greatest, isGreatest⟩ := Option.isSome_iff_exists.mp (List.isSome_max?_of_mem highSeen)
  exact ⟨least, greatest, isLeast, isGreatest,
    ((List.min?_eq_some_iff.mp isLeast).2 low lowSeen).trans below,
    above.trans ((List.max?_eq_some_iff.mp isGreatest).2 high highSeen)⟩

end ClassFed

/-! ## The descent -/

namespace ClassRtt

variable {p : ClassRtt} {calls : Nat → ClassCall} {fast : Nat}

def next (p : ClassRtt) (call : ClassCall) : ClassRtt := (p.updateClass call).1

/-- The permit is set and the class still above the fast RTT. -/
def Unwinding (fast : Nat) (p : ClassRtt) : Prop :=
  p.classUnwindPermit = true ∧ fast < p.rttClassUs

def Unwound (fast : Nat) (p : ClassRtt) : Prop :=
  p.rttClassUs = fast ∧ p.classUnwindPermit = false

/-- Calls with one fast RTT that go on for as long as one likes. -/
structure Steady (fast : Nat) (calls : Nat → ClassCall) : Prop where
  fast_eq : ∀ index, (calls index).fast = fast
  endless : ∀ time, ∃ index, time ≤ (calls index).later

theorem Steady.tail (steady : Steady fast calls) : Steady fast fun index => calls (index + 1) := by
  refine ⟨fun index => steady.fast_eq (index + 1), fun time => ?_⟩
  obtain ⟨index, late⟩ := steady.endless (max time ((calls 0).later + 1))
  cases index with
  | zero => omega
  | succ index => exact ⟨index, (le_max_left _ _).trans late⟩

theorem updateClass_of_unwinding {call : ClassCall} (unwinding : Unwinding call.fast p) :
    p.updateClass call = p.updateDrop call := by
  obtain ⟨permit, below⟩ := unwinding
  have low : ¬ raises p.rttClassUs call.fast = true := fun raised => by
    have far := lt_of_raises raised
    omega
  have dropped : p.drops call.fast = true := by
    simp only [drops, permit, below, decide_true, Bool.and_self, Bool.or_true]
  simp only [updateClass]
  rw [if_neg (by omega), if_neg low, if_pos dropped]

@[simp]
theorem next_stableUpHold (p : ClassRtt) (call : ClassCall) :
    (p.next call).stableUpHold = p.stableUpHold := by
  simp only [next, updateClass, updateInit, updateRaise, updateDrop, pauseLow]
  split_ifs <;> rfl

theorem next_of_unwinding {call : ClassCall} (unwinding : Unwinding call.fast p) :
    (p.updateClass call).2 = some .drop ∧
        p.stableUpHold ≤ call.later - p.classLowSince.getD call.now + p.classLowAccum ∧
        (p.next call).rttClassUs = stepTo p.rttClassUs call.fast ∧
        (p.next call).classUnwindPermit = !decide (stepTo p.rttClassUs call.fast ≤ call.fast) ∧
        (p.next call).classLowSince = none ∧ (p.next call).classLowAccum = 0 ∨
      (p.updateClass call).2 = none ∧
        call.later - p.classLowSince.getD call.now + p.classLowAccum < p.stableUpHold ∧
        (p.next call).rttClassUs = p.rttClassUs ∧ (p.next call).classUnwindPermit = true ∧
        (p.next call).classLowSince = some (p.classLowSince.getD call.now) ∧
        (p.next call).classLowAccum = p.classLowAccum := by
  simp only [next, updateClass_of_unwinding unwinding, updateDrop]
  split_ifs with held met
  · exact .inl ⟨rfl, held, rfl, by simp [met], rfl, rfl⟩
  · exact .inl ⟨rfl, held, rfl, by simp [met, unwinding.1], rfl, rfl⟩
  · exact .inr ⟨rfl, Nat.lt_of_not_le held, rfl, unwinding.1, rfl, rfl⟩

/-- The next store of the descent comes: at the latest with the call at which the hold is over. -/
theorem exists_store {due : Nat} (steady : Steady fast calls) (unwinding : Unwinding fast p)
    (elapses : p.classLowSince.getD (calls 0).now + p.stableUpHold ≤ (calls due).later) :
    ∃ count, (∀ index ≤ count, Unwinding fast (Descent.after next p calls index)) ∧
      (Unwound fast (Descent.after next p calls (count + 1)) ∨
        Unwinding fast (Descent.after next p calls (count + 1)) ∧
          (Descent.after next p calls (count + 1)).rttClassUs < p.rttClassUs) := by
  induction due using Nat.strongRecOn generalizing p calls with
  | ind due inductionHypothesis =>
      have first : Unwinding (calls 0).fast p := (steady.fast_eq 0).symm ▸ unwinding
      have bounds := stepTo_lt unwinding.2
      rcases next_of_unwinding first with
        ⟨-, -, stored, permit, -⟩ | ⟨-, early, same, permit, begun, -⟩
      · rw [steady.fast_eq 0] at stored permit
        refine ⟨0, fun index upTo => ?_, ?_⟩
        · obtain rfl := Nat.le_zero.mp upTo
          exact unwinding
        · rw [Descent.after_succ, Descent.after_zero, stored]
          by_cases met : stepTo p.rttClassUs fast ≤ fast
          · rw [decide_eq_true met] at permit
            exact .inl ⟨stored.trans (met.antisymm bounds.1), permit⟩
          · rw [decide_eq_false met] at permit
            exact .inr ⟨⟨permit, stored ▸ Nat.lt_of_not_le met⟩, bounds.2⟩
      · -- Nothing was stored, so the call at which the hold is over is a later one.
        have later : due ≠ 0 := by
          rintro rfl
          omega
        obtain ⟨earlier, rfl⟩ := Nat.exists_eq_succ_of_ne_zero later
        have waiting : Unwinding fast (p.next (calls 0)) := ⟨permit, same.symm ▸ unwinding.2⟩
        obtain ⟨count, lives, ends⟩ := inductionHypothesis earlier (Nat.lt_succ_self _)
          steady.tail waiting (by rwa [begun, next_stableUpHold, Option.getD_some])
        refine ⟨count + 1, fun index upTo => ?_, ?_⟩
        · cases index with
          | zero => exact unwinding
          | succ index => exact lives index (Nat.le_of_succ_le_succ upTo)
        · rwa [same] at ends

theorem exists_unwound (steady : Steady fast calls) (unwinding : Unwinding fast p) :
    ∃ count, Unwound fast (Descent.after next p calls count) ∧
      ∀ index < count, Unwinding fast (Descent.after next p calls index) := by
  refine Descent.exists_after (fun p => p.rttClassUs) (fun _ => Steady.tail) ?_ unwinding steady
  intro p calls unwinding steady
  obtain ⟨due, late⟩ := steady.endless (p.classLowSince.getD (calls 0).now + p.stableUpHold)
  exact exists_store steady unwinding late

/-! ## The spacing of its stores -/

theorem after_stableUpHold (p : ClassRtt) (calls : Nat → ClassCall) (count : Nat) :
    (Descent.after next p calls count).stableUpHold = p.stableUpHold := by
  induction count generalizing p calls with
  | zero => rfl
  | succ count inductionHypothesis =>
      rw [Descent.after_succ, inductionHypothesis, next_stableUpHold]

def storeAt (p : ClassRtt) (calls : Nat → ClassCall) (index : Nat) : Option ClassStore :=
  ((Descent.after next p calls index).updateClass (calls index)).2

theorem held_of_storeAt {start last : Nat} (steady : Steady fast calls)
    (lives : ∀ index ≤ last, Unwinding fast (Descent.after next p calls index))
    (fresh : p.classLowAccum = 0) (begun : p.classLowSince.getD (calls 0).now = start)
    (waits : ∀ index < last, storeAt p calls index = none)
    (stores : storeAt p calls last = some .drop) :
    p.stableUpHold ≤ (calls last).later - start := by
  have first : Unwinding (calls 0).fast p := (steady.fast_eq 0).symm ▸ lives 0 (Nat.zero_le _)
  induction last generalizing p calls with
  | zero =>
      rcases next_of_unwinding first with ⟨-, held, -⟩ | ⟨none, -⟩
      · rwa [begun, fresh, Nat.add_zero] at held
      · exact absurd (none.symm.trans stores) (by simp)
  | succ last inductionHypothesis =>
      have waited : (p.updateClass (calls 0)).2 = none := waits 0 (Nat.succ_pos _)
      rcases next_of_unwinding first with ⟨drop, -⟩ | ⟨-, -, -, -, low, accum⟩
      · exact absurd (drop.symm.trans waited) (by simp)
      have lower := inductionHypothesis steady.tail
        (fun index upTo => lives (index + 1) (Nat.succ_le_succ upTo)) (accum.trans fresh)
        (by rw [low, Option.getD_some, begun])
        (fun index before => waits (index + 1) (Nat.succ_lt_succ before)) stores
        ((steady.fast_eq 1).symm ▸ lives 1 (Nat.le_add_left ..))
      rwa [next_stableUpHold] at lower

theorem spaced_of_unwinding {first last : Nat} (steady : Steady fast calls)
    (lives : ∀ index ≤ last, Unwinding fast (Descent.after next p calls index))
    (before : first < last) (dropped : storeAt p calls first = some .drop)
    (waits : ∀ index, first < index → index < last → storeAt p calls index = none)
    (stores : storeAt p calls last = some .drop) :
    p.stableUpHold ≤ (calls last).later - (calls (first + 1)).now := by
  obtain ⟨rest, rfl⟩ := Nat.exists_eq_add_of_le' before
  have unwinding : Unwinding (calls first).fast (Descent.after next p calls first) :=
    (steady.fast_eq first).symm ▸ lives first (by omega)
  obtain ⟨low, accum⟩ : (Descent.after next p calls (first + 1)).classLowSince = none ∧
      (Descent.after next p calls (first + 1)).classLowAccum = 0 := by
    rw [Descent.after_succ_right]
    rcases next_of_unwinding unwinding with ⟨-, -, -, -, reset⟩ | ⟨none, -⟩
    · exact reset
    · exact absurd (none.symm.trans dropped) (by simp)
  have shifted : ∀ index,
      storeAt (Descent.after next p calls (first + 1)) (fun index => calls (index + (first + 1)))
        index = storeAt p calls (index + (first + 1)) := fun index => by
    simp only [storeAt, Descent.after_add]
  have lower : ∀ index ≤ rest, Unwinding fast (Descent.after next
      (Descent.after next p calls (first + 1)) (fun index => calls (index + (first + 1))) index) :=
    fun index upTo => by
      rw [← Descent.after_add]
      exact lives _ (Nat.add_le_add_right upTo _)
  have held := held_of_storeAt (Descent.fair_shift (fun _ => Steady.tail) steady (first + 1)) lower
    accum rfl (fun index early => by
      rw [shifted]
      exact waits _ (by omega) (by omega))
    (by rwa [shifted])
  rwa [after_stableUpHold, low, Option.getD_none, Nat.zero_add] at held

end ClassRtt

/-- The class stays between the extremes of what was seen since the freeze, moves only towards the
fast RTT, and from any state with the unwind permit reaches a fast RTT that stays below it, with
drops a hold apart, the last of which clears the permit. -/
theorem ClassFed.class_honest_and_unwinds :
    (∀ s : ClassFed, machine.Reachable s → s.rtt.classKnownSince.isSome →
      ∃ least greatest, s.seen.min? = some least ∧ s.seen.max? = some greatest ∧
        least ≤ s.rtt.rttClassUs ∧ s.rtt.rttClassUs ≤ greatest) ∧
    (∀ (p : ClassRtt) (call : ClassCall), match (p.updateClass call).2 with
      | none => (p.updateClass call).1.rttClassUs = p.rttClassUs
      | some .init => p.rttClassUs = 0 ∧ (p.updateClass call).1.rttClassUs = call.fast
      | some .raise => p.rttClassUs < (p.updateClass call).1.rttClassUs ∧
          (p.updateClass call).1.rttClassUs ≤ call.fast
      | some .drop => call.fast ≤ (p.updateClass call).1.rttClassUs ∧
          (p.updateClass call).1.rttClassUs < p.rttClassUs) ∧
    ∀ (p : ClassRtt) (fast : Nat) (calls : Nat → ClassCall), p.classUnwindPermit = true →
      fast < p.rttClassUs → ClassRtt.Steady fast calls →
      ∃ count, (Descent.after ClassRtt.next p calls count).rttClassUs = fast ∧
        (Descent.after ClassRtt.next p calls count).classUnwindPermit = false ∧
        (∀ index < count,
          (Descent.after ClassRtt.next p calls index).classUnwindPermit = true ∧
          fast < (Descent.after ClassRtt.next p calls index).rttClassUs) ∧
        ∀ first last, first < last → last < count →
          ClassRtt.storeAt p calls first = some .drop →
          ClassRtt.storeAt p calls last = some .drop →
          (∀ index, first < index → index < last → ClassRtt.storeAt p calls index = none) →
          p.stableUpHold ≤ (calls last).later - (calls (first + 1)).now := by
  refine ⟨fun s reachable known => ?_, ClassRtt.store_updateClass,
    fun p fast calls permit below steady => ?_⟩
  · obtain ⟨low, lowSeen, high, highSeen, above, under⟩ :=
      (between_of_reachable reachable).known known
    exact extremes_around lowSeen highSeen above under
  · obtain ⟨count, ⟨reached, cleared⟩, lives⟩ := ClassRtt.exists_unwound steady ⟨permit, below⟩
    refine ⟨count, reached, cleared, lives, fun first last before early dropped stores waits => ?_⟩
    exact ClassRtt.spaced_of_unwinding steady (fun index upTo => lives index (by omega)) before
      dropped waits stores

def ClassFed.spike : List ClassCall :=
  List.replicate 8 ⟨20000, 0, 0⟩ ++ [⟨100000, 5, 6⟩, ⟨100000, 7, 1000005⟩]

def ClassFed.spiked : ClassFed :=
  ⟨⟨30000, 8, none, none, 0, true, some 0, 1000000⟩, [100000, 100000, 20000]⟩

theorem ClassFed.class_honest_and_unwinds_spiked :
    (∃ least greatest, spiked.seen.min? = some least ∧ spiked.seen.max? = some greatest ∧
      least ≤ spiked.rtt.rttClassUs ∧ spiked.rtt.rttClassUs ≤ greatest) ∧
    ∃ count, (Descent.after ClassRtt.next spiked.rtt
      (fun index => ⟨25000, index * 400000, index * 400000⟩) count).rttClassUs = 25000 := by
  obtain ⟨honest, -, unwinds⟩ := class_honest_and_unwinds
  have reachable : machine.Reachable spiked :=
    Machine.Reachable.run (.start ⟨1000000, rfl⟩)
      (show machine.run (.new 1000000) spike = some spiked by decide)
  refine ⟨honest spiked reachable rfl, ?_⟩
  obtain ⟨count, reached, -⟩ := unwinds spiked.rtt 25000
    (fun index => ⟨25000, index * 400000, index * 400000⟩) rfl (by decide)
    ⟨fun _ => rfl, fun time => ⟨time, Nat.le_mul_of_pos_right time (by decide)⟩⟩
  exact ⟨count, reached⟩

end NyaLink
