import NyaLink.Library.Machine

/-!
# The death of a session

Any task may call `mark_dead`; the one that sets the flag finishes the streams it finds in the
table and then notifies the tasks in `wait_dead`, which test the flag before they create their
`Notified`.  Streams come and go on other tasks all the while.  What was collected, what was
finished, the streams opened after the collection and the waiters that were between test and
`Notified` at the notification are history.
-/

namespace NyaLink

/-- Where the call of `mark_dead` is that has set the flag. -/
inductive Closer where
  | collecting
  | finishing (ids : List Nat)
  | notifying
  | done
  deriving DecidableEq

inductive DeathWait where
  | testing
  /-- The session was alive; the `Notified` does not exist yet. -/
  | arming
  | armed
  | returned
  /-- Another branch of its `select!` has won. -/
  | dropped
  deriving DecidableEq

structure DeathWaiter where
  phase : DeathWait
  woken : Bool
  missed : Bool
  deriving DecidableEq

structure DyingSession where
  dead : Bool
  closer : Option Closer
  streams : List Nat
  sessionsLive : Nat
  sessionsDead : Nat
  waiters : List DeathWaiter
  collected : List Nat
  finished : List Nat
  late : List Nat
  deriving DecidableEq

inductive DeathAction where
  | markDead
  | close
  /-- `open_stream` or `accept_remote_stream`. -/
  | alloc (id : Nat)
  /-- `finish_stream` or `reap_stream` on another task. -/
  | finish (id : Nat)
  | waitDead
  | test (waiter : Nat)
  | arm (waiter : Nat)
  | resume (waiter : Nat)
  | cancel (waiter : Nat)
  deriving DecidableEq

namespace DeathWaiter

def new : DeathWaiter := ⟨.testing, false, false⟩

/-- `notify_waiters` wakes the `Notified`s there are and leaves nothing for later ones. -/
def notify (w : DeathWaiter) : DeathWaiter :=
  match w.phase with
  | .armed => { w with woken := true }
  | .arming => { w with missed := true }
  | _ => w

def test (w : DeathWaiter) (dead : Bool) : Option DeathWaiter :=
  match w.phase with
  | .testing => some { w with phase := if dead then .returned else .arming }
  | _ => none

def arm (w : DeathWaiter) : Option DeathWaiter :=
  match w.phase with
  | .arming => some { w with phase := .armed, woken := false }
  | _ => none

def resume (w : DeathWaiter) : Option DeathWaiter :=
  match w.phase, w.woken with
  | .armed, true => some { w with phase := .testing, woken := false }
  | _, _ => none

def cancel (w : DeathWaiter) : DeathWaiter :=
  match w.phase with
  | .returned => w
  | _ => { w with phase := .dropped }

end DeathWaiter

namespace DyingSession

def removeStream (s : DyingSession) (id : Nat) : DyingSession :=
  if id ∈ s.streams then
    { s with streams := s.streams.filter (· ≠ id), finished := id :: s.finished }
  else s

/-- The compare-and-exchange lets one call through. -/
def markDead (s : DyingSession) : DyingSession :=
  if s.dead then s
  else
    { s with
      dead := true
      closer := some .collecting
      sessionsLive := s.sessionsLive - 1
      sessionsDead := s.sessionsDead + 1 }

/-- The next step of the call that was let through. -/
def close (s : DyingSession) : Option DyingSession :=
  match s.closer with
  | some .collecting =>
      some { s with closer := some (.finishing s.streams), collected := s.streams, late := [] }
  | some (.finishing (id :: rest)) =>
      some { s.removeStream id with closer := some (.finishing rest) }
  | some (.finishing []) => some { s with closer := some .notifying }
  | some .notifying =>
      some { s with closer := some .done, waiters := s.waiters.map DeathWaiter.notify }
  | _ => none

def changeWaiter (s : DyingSession) (waiter : Nat) (change : DeathWaiter → Option DeathWaiter) :
    Option DyingSession := do
  let w ← s.waiters[waiter]?
  let changed ← change w
  some { s with waiters := s.waiters.set waiter changed }

def step (s : DyingSession) : DeathAction → Option DyingSession
  | .markDead => some s.markDead
  | .close => s.close
  | .alloc id =>
      if id ∈ s.streams then none
      else some { s with streams := s.streams ++ [id], late := s.late ++ [id] }
  | .finish id => some (s.removeStream id)
  | .waitDead => some { s with waiters := s.waiters ++ [.new] }
  | .test waiter => s.changeWaiter waiter (·.test s.dead)
  | .arm waiter => s.changeWaiter waiter DeathWaiter.arm
  | .resume waiter => s.changeWaiter waiter DeathWaiter.resume
  | .cancel waiter => s.changeWaiter waiter fun w => some w.cancel

/-- A session without streams, one of those counted as live. -/
def Initial (s : DyingSession) : Prop :=
  ∃ others, s = ⟨false, none, [], others + 1, 0, [], [], [], []⟩

def machine : Machine DyingSession DeathAction := ⟨Initial, step⟩

/-! ## What every run keeps -/

end DyingSession

namespace DeathWaiter

variable {w changed : DeathWaiter}

/-- Nothing will wake the waiter, not even once it sleeps. -/
def Stuck (w : DeathWaiter) : Prop :=
  w.missed = true ∧ (w.phase = .arming ∨ w.phase = .armed ∧ w.woken = false ∨ w.phase = .dropped)

/-- Before the notification nobody is woken or has missed it; after it, those who are neither
woken nor testing are stuck. -/
def Sound (w : DeathWaiter) (notified : Bool) : Prop :=
  if notified then
    w.Stuck ∨ w.missed = false ∧ w.phase ≠ .arming ∧ (w.phase = .armed → w.woken = true)
  else w.missed = false ∧ w.woken = false

theorem sound_new (notified : Bool) : new.Sound notified := by
  cases notified with
  | false => exact ⟨rfl, rfl⟩
  | true => exact .inr ⟨rfl, by simp [new], by simp [new]⟩

theorem Sound.notify (sound : w.Sound false) : w.notify.Sound true := by
  obtain ⟨missed, woken⟩ := sound
  unfold DeathWaiter.notify
  cases phase : w.phase with
  | testing => exact .inr ⟨missed, by simp [phase], by simp [phase]⟩
  | arming => exact .inl ⟨rfl, .inl rfl⟩
  | armed => exact .inr ⟨missed, by simp, fun _ => rfl⟩
  | returned => exact .inr ⟨missed, by simp [phase], by simp [phase]⟩
  | dropped => exact .inr ⟨missed, by simp [phase], by simp [phase]⟩

theorem Sound.test {notified dead : Bool} (sound : w.Sound notified)
    (flag : notified = true → dead = true) (taken : w.test dead = some changed) :
    changed.Sound notified := by
  unfold DeathWaiter.test at taken
  split at taken
  · rename_i testing
    cases taken
    cases notified with
    | false => exact sound
    | true =>
        rcases sound with ⟨-, impossible⟩ | ⟨missed, -⟩
        · simp [testing] at impossible
        · exact .inr ⟨missed, by simp [flag rfl], by simp [flag rfl]⟩
  · cases taken

theorem Sound.arm {notified : Bool} (sound : w.Sound notified) (taken : w.arm = some changed) :
    changed.Sound notified := by
  unfold DeathWaiter.arm at taken
  split at taken
  · rename_i arming
    cases taken
    cases notified with
    | false => exact ⟨sound.1, rfl⟩
    | true =>
        rcases sound with ⟨missed, -⟩ | ⟨-, impossible, -⟩
        · exact .inl ⟨missed, .inr (.inl ⟨rfl, rfl⟩)⟩
        · exact absurd arming impossible
  · cases taken

theorem Sound.resume {notified : Bool} (sound : w.Sound notified)
    (taken : w.resume = some changed) : changed.Sound notified := by
  unfold DeathWaiter.resume at taken
  split at taken
  · rename_i armed woken
    cases taken
    cases notified with
    | false => exact ⟨sound.1, rfl⟩
    | true =>
        rcases sound with ⟨-, impossible⟩ | ⟨missed, -, -⟩
        · simp [armed, woken] at impossible
        · exact .inr ⟨missed, by simp, by simp⟩
  · cases taken

theorem Sound.cancel {notified : Bool} (sound : w.Sound notified) : w.cancel.Sound notified := by
  unfold DeathWaiter.cancel
  split
  · exact sound
  · cases notified with
    | false => exact sound
    | true =>
        rcases sound with ⟨missed, -⟩ | ⟨missed, -⟩
        · exact .inl ⟨missed, .inr (.inr rfl)⟩
        · exact .inr ⟨missed, by simp, by simp⟩

theorem missed_notify (missed : w.missed = true) : w.notify.missed = true := by
  unfold notify
  split
  · exact missed
  · rfl
  · exact missed

theorem missed_test {dead : Bool} (taken : w.test dead = some changed) :
    changed.missed = w.missed := by
  unfold test at taken
  split at taken
  · cases taken
    rfl
  · cases taken

theorem missed_arm (taken : w.arm = some changed) : changed.missed = w.missed := by
  unfold arm at taken
  split at taken
  · cases taken
    rfl
  · cases taken

theorem missed_resume (taken : w.resume = some changed) : changed.missed = w.missed := by
  unfold resume at taken
  split at taken
  · cases taken
    rfl
  · cases taken

theorem missed_cancel (w : DeathWaiter) : w.cancel.missed = w.missed := by
  unfold cancel
  split
  · rfl
  · rfl

end DeathWaiter

namespace DyingSession

variable {s t : DyingSession}

def notified (s : DyingSession) : Bool := decide (s.closer = some .done)

/-- The flag is set once, by the call that is at work; the streams it collected are finished or
still held, and once it is through with them the table holds only later ones. -/
structure Sound (s : DyingSession) : Prop where
  dead : s.dead = s.closer.isSome
  counted : s.sessionsDead = if s.dead then 1 else 0
  waiters : ∀ w ∈ s.waiters, w.Sound s.notified
  collected : ∀ id ∈ s.collected, id ∈ s.finished ∨ id ∈ s.streams ∧ id ∉ s.late
  finishing : ∀ ids, s.closer = some (.finishing ids) →
    ∀ id ∈ s.streams, id ∈ ids ∨ id ∈ s.late
  closed : s.closer = some .notifying ∨ s.closer = some .done →
    (∀ id ∈ s.streams, id ∈ s.late) ∧ ∀ id ∈ s.collected, id ∈ s.finished

theorem Sound.removeStream (sound : s.Sound) (id : Nat) : (s.removeStream id).Sound := by
  unfold DyingSession.removeStream
  split
  · refine ⟨sound.dead, sound.counted, sound.waiters, fun other present => ?_,
      fun ids phase other held => sound.finishing ids phase other (List.mem_filter.mp held).1,
      fun phase => ⟨fun other held => (sound.closed phase).1 other (List.mem_filter.mp held).1,
        fun other present => List.mem_cons_of_mem _ ((sound.closed phase).2 other present)⟩⟩
    by_cases same : other = id
    · exact .inl (same ▸ List.mem_cons_self)
    · refine (sound.collected other present).imp (List.mem_cons_of_mem _) fun ⟨held, early⟩ => ?_
      exact ⟨List.mem_filter.mpr ⟨held, by simpa using same⟩, early⟩
  · exact sound

theorem not_held_removeStream (s : DyingSession) (id : Nat) :
    id ∉ (s.removeStream id).streams := by
  unfold DyingSession.removeStream
  split
  · simp
  · assumption

@[simp]
theorem closer_removeStream (s : DyingSession) (id : Nat) :
    (s.removeStream id).closer = s.closer := by
  unfold DyingSession.removeStream
  split <;> rfl

theorem Sound.markDead (sound : s.Sound) : s.markDead.Sound := by
  unfold DyingSession.markDead
  split
  · exact sound
  · rename_i alive
    rw [Bool.not_eq_true] at alive
    have idle : s.closer = none := by
      have dead := sound.dead
      rw [alive] at dead
      exact Option.isSome_eq_false_iff.mp dead.symm |> Option.isNone_iff_eq_none.mp
    refine ⟨rfl, ?_, fun w present => ?_, sound.collected, by simp, by simp⟩
    · rw [sound.counted, alive]
      rfl
    · have waiting := sound.waiters w present
      rwa [notified, idle] at waiting

theorem Sound.close (sound : s.Sound) (taken : s.close = some t) : t.Sound := by
  unfold DyingSession.close at taken
  split at taken
  · rename_i phase
    cases taken
    refine ⟨?_, sound.counted, ?_, fun id present => .inr ⟨present, List.not_mem_nil⟩,
      fun ids same id held => ?_, by simp⟩
    · rw [sound.dead, phase]
      rfl
    · have waiting := sound.waiters
      rwa [notified, phase] at waiting
    · cases same
      exact .inl held
  · rename_i id rest phase
    cases taken
    have removed := sound.removeStream id
    refine ⟨?_, removed.counted, ?_, removed.collected, fun ids same other held => ?_, by simp⟩
    · rw [removed.dead, closer_removeStream, phase]
      rfl
    · have waiting := removed.waiters
      rwa [notified, closer_removeStream, phase] at waiting
    · cases same
      rcases removed.finishing (id :: rest) (by rw [closer_removeStream, phase]) other held with
        left | later
      · rcases List.mem_cons.mp left with rfl | left
        · exact absurd held (s.not_held_removeStream other)
        · exact .inl left
      · exact .inr later
  · rename_i phase
    cases taken
    have through := sound.finishing [] phase
    have late : ∀ id ∈ s.streams, id ∈ s.late := fun id held =>
      (through id held).resolve_left List.not_mem_nil
    refine ⟨?_, sound.counted, ?_, sound.collected, by simp, fun _ => ⟨late, fun id present => ?_⟩⟩
    · rw [sound.dead, phase]
      rfl
    · have waiting := sound.waiters
      rwa [notified, phase] at waiting
    · rcases sound.collected id present with finished | ⟨held, early⟩
      · exact finished
      · exact absurd (late id held) early
  · rename_i phase
    cases taken
    refine ⟨?_, sound.counted, fun w present => ?_, sound.collected, by simp,
      fun _ => sound.closed (.inl phase)⟩
    · rw [sound.dead, phase]
      rfl
    · obtain ⟨before, waiting, rfl⟩ := List.mem_map.mp present
      have sleeping := sound.waiters before waiting
      rw [notified, phase] at sleeping
      exact DeathWaiter.Sound.notify sleeping
  · cases taken

theorem Sound.changeWaiter (sound : s.Sound) {waiter : Nat}
    {change : DeathWaiter → Option DeathWaiter}
    (kept : ∀ w changed, w.Sound s.notified → change w = some changed → changed.Sound s.notified)
    (taken : s.changeWaiter waiter change = some t) : t.Sound := by
  simp only [DyingSession.changeWaiter, Option.bind_eq_bind, Option.bind_eq_some_iff] at taken
  obtain ⟨w, found, changed, change, set⟩ := taken
  cases set
  refine ⟨sound.dead, sound.counted, fun other present => ?_, sound.collected, sound.finishing,
    sound.closed⟩
  rcases List.mem_or_eq_of_mem_set present with earlier | rfl
  · exact sound.waiters other earlier
  · exact kept w _ (sound.waiters w (List.mem_of_getElem? found)) change

theorem Sound.step (sound : s.Sound) {action : DeathAction} (taken : s.step action = some t) :
    t.Sound := by
  cases action with
  | markDead =>
      cases taken
      exact sound.markDead
  | close => exact sound.close taken
  | alloc id =>
      simp only [DyingSession.step] at taken
      split at taken
      · cases taken
      · rename_i new
        cases taken
        refine ⟨sound.dead, sound.counted, sound.waiters, fun other present => ?_,
          fun ids phase other held => ?_, fun phase => ⟨fun other held => ?_,
            (sound.closed phase).2⟩⟩
        · refine (sound.collected other present).imp_right fun ⟨held, early⟩ =>
            ⟨List.mem_append_left _ held, fun later => ?_⟩
          rcases List.mem_append.mp later with before | same
          · exact early before
          · exact new (List.mem_singleton.mp same ▸ held)
        · rcases List.mem_append.mp held with before | same
          · exact (sound.finishing ids phase other before).imp_right (List.mem_append_left _)
          · exact .inr (List.mem_append_right _ same)
        · rcases List.mem_append.mp held with before | same
          · exact List.mem_append_left _ ((sound.closed phase).1 other before)
          · exact List.mem_append_right _ same
  | finish id =>
      cases taken
      exact sound.removeStream id
  | waitDead =>
      cases taken
      refine ⟨sound.dead, sound.counted, fun w present => ?_, sound.collected, sound.finishing,
        sound.closed⟩
      rcases List.mem_append.mp present with earlier | new
      · exact sound.waiters w earlier
      · exact List.mem_singleton.mp new ▸ DeathWaiter.sound_new _
  | test waiter =>
      refine sound.changeWaiter (fun w changed waiting tested => waiting.test (fun notified => ?_)
        tested) taken
      rw [sound.dead, of_decide_eq_true notified]
      rfl
  | arm waiter => exact sound.changeWaiter (fun _ _ waiting armed => waiting.arm armed) taken
  | resume waiter =>
      exact sound.changeWaiter (fun _ _ waiting resumed => waiting.resume resumed) taken
  | cancel waiter =>
      refine sound.changeWaiter (fun w changed waiting cancelled => ?_) taken
      cases cancelled
      exact waiting.cancel

theorem sound_of_reachable (reachable : machine.Reachable s) : s.Sound := by
  refine reachable.invariant Sound ?_ fun _ _ _ sound taken => sound.step taken
  rintro _ ⟨others, rfl⟩
  exact ⟨rfl, rfl, by simp, by simp, by simp, by simp⟩

/-! ## Who is left behind -/

theorem changeWaiter_at {waiter : Nat} {change : DeathWaiter → Option DeathWaiter}
    {w changed : DeathWaiter} (found : s.waiters[waiter]? = some w)
    (changes : change w = some changed) :
    s.changeWaiter waiter change = some { s with waiters := s.waiters.set waiter changed } := by
  simp [changeWaiter, found, changes]

theorem missed_changeWaiter {waiter index : Nat} {change : DeathWaiter → Option DeathWaiter}
    (kept : ∀ w changed, change w = some changed → changed.missed = w.missed)
    (taken : s.changeWaiter waiter change = some t) {w : DeathWaiter}
    (found : s.waiters[index]? = some w) :
    ∃ later, t.waiters[index]? = some later ∧ later.missed = w.missed := by
  simp only [changeWaiter, Option.bind_eq_bind, Option.bind_eq_some_iff] at taken
  obtain ⟨other, there, changed, changes, set⟩ := taken
  cases set
  have bound := (List.getElem?_eq_some_iff.mp found).1
  by_cases same : waiter = index
  · subst same
    obtain rfl : w = other := Option.some.inj (found.symm.trans there)
    exact ⟨changed, List.getElem?_set_self bound, kept w changed changes⟩
  · exact ⟨w, (List.getElem?_set_ne same).trans found, rfl⟩

@[simp]
theorem waiters_removeStream (s : DyingSession) (id : Nat) :
    (s.removeStream id).waiters = s.waiters := by
  unfold DyingSession.removeStream
  split <;> rfl

theorem missed_step {action : DeathAction} (taken : s.step action = some t) {index : Nat}
    {w : DeathWaiter} (found : s.waiters[index]? = some w) (missed : w.missed = true) :
    ∃ later, t.waiters[index]? = some later ∧ later.missed = true := by
  cases action with
  | markDead =>
      cases taken
      unfold DyingSession.markDead
      split
      · exact ⟨w, found, missed⟩
      · exact ⟨w, found, missed⟩
  | close =>
      simp only [DyingSession.step, DyingSession.close] at taken
      split at taken
      · cases taken
        exact ⟨w, found, missed⟩
      · cases taken
        exact ⟨w, (congrArg (·[index]?) (s.waiters_removeStream _)).trans found, missed⟩
      · cases taken
        exact ⟨w, found, missed⟩
      · cases taken
        refine ⟨w.notify, ?_, DeathWaiter.missed_notify missed⟩
        rw [List.getElem?_map, found]
        rfl
      · cases taken
  | alloc id =>
      simp only [DyingSession.step] at taken
      split at taken
      · cases taken
      · cases taken
        exact ⟨w, found, missed⟩
  | finish id =>
      cases taken
      exact ⟨w, (congrArg (·[index]?) (s.waiters_removeStream id)).trans found, missed⟩
  | waitDead =>
      cases taken
      have bound := (List.getElem?_eq_some_iff.mp found).1
      exact ⟨w, (List.getElem?_append_left bound).trans found, missed⟩
  | test waiter =>
      obtain ⟨later, there, same⟩ :=
        missed_changeWaiter (fun _ _ => DeathWaiter.missed_test) taken found
      exact ⟨later, there, same.trans missed⟩
  | arm waiter =>
      obtain ⟨later, there, same⟩ :=
        missed_changeWaiter (fun _ _ => DeathWaiter.missed_arm) taken found
      exact ⟨later, there, same.trans missed⟩
  | resume waiter =>
      obtain ⟨later, there, same⟩ :=
        missed_changeWaiter (fun _ _ => DeathWaiter.missed_resume) taken found
      exact ⟨later, there, same.trans missed⟩
  | cancel waiter =>
      obtain ⟨later, there, same⟩ := missed_changeWaiter (fun other changed cancelled => by
        cases cancelled
        exact other.missed_cancel) taken found
      exact ⟨later, there, same.trans missed⟩

theorem missed_run {schedule : List DeathAction} (ran : machine.run s schedule = some t)
    {index : Nat} {w : DeathWaiter} (found : s.waiters[index]? = some w)
    (missed : w.missed = true) : ∃ later, t.waiters[index]? = some later ∧ later.missed = true := by
  induction schedule generalizing s w with
  | nil =>
      cases ran
      exact ⟨w, found, missed⟩
  | cons action rest inductionHypothesis =>
      obtain ⟨next, taken, remaining⟩ := Option.bind_eq_some_iff.mp ran
      obtain ⟨later, there, still⟩ := missed_step taken found missed
      exact inductionHypothesis remaining there still

/-- By some continuation, the waiter at this index leaves `wait_dead`. -/
def CanReturn (s : DyingSession) (index : Nat) : Prop :=
  ∃ (schedule : List DeathAction) (t : DyingSession) (later : DeathWaiter),
    machine.run s schedule = some t ∧ t.waiters[index]? = some later ∧ later.phase = .returned

/-- A waiter that was not between its test and its `Notified` at the notification needs only its
own steps to return. -/
theorem returns_of_not_missed (sound : s.Sound) (ended : s.closer = some .done) {index : Nat}
    {w : DeathWaiter} (found : s.waiters[index]? = some w) (kept : w.phase ≠ .dropped)
    (seen : w.missed = false) : s.CanReturn index := by
  have waiting := sound.waiters w (List.mem_of_getElem? found)
  rw [notified, ended] at waiting
  have dead : s.dead = true := by
    rw [sound.dead, ended]
    rfl
  have bound := (List.getElem?_eq_some_iff.mp found).1
  rcases waiting with ⟨missed, -⟩ | ⟨-, notArming, woken⟩
  · rw [seen] at missed
    cases missed
  · cases phase : w.phase with
    | testing =>
        have tested : w.test s.dead = some { w with phase := .returned } := by
          simp [DeathWaiter.test, phase, dead]
        let returned : DeathWaiter := { w with phase := .returned }
        refine ⟨[.test index], { s with waiters := s.waiters.set index returned }, returned, ?_,
          List.getElem?_set_self bound, rfl⟩
        exact Option.bind_eq_some_iff.mpr ⟨_, changeWaiter_at found tested, rfl⟩
    | arming => exact absurd phase notArming
    | armed =>
        let testing : DeathWaiter := { w with phase := .testing, woken := false }
        let resumed : DyingSession := { s with waiters := s.waiters.set index testing }
        have resumes : w.resume = some testing := by
          simp [DeathWaiter.resume, phase, woken phase, testing]
        have tested : testing.test resumed.dead = some { testing with phase := .returned } := by
          simp [DeathWaiter.test, testing, resumed, dead]
        have there : resumed.waiters[index]? = some testing := List.getElem?_set_self bound
        have stillBound := (List.getElem?_eq_some_iff.mp there).1
        refine ⟨[.resume index, .test index],
          { resumed with waiters := resumed.waiters.set index { testing with phase := .returned } },
          { testing with phase := .returned }, ?_, List.getElem?_set_self stillBound, rfl⟩
        refine Option.bind_eq_some_iff.mpr ⟨resumed, changeWaiter_at found resumes, ?_⟩
        exact Option.bind_eq_some_iff.mpr ⟨_, changeWaiter_at there tested, rfl⟩
    | returned => exact ⟨[], s, w, rfl, found, phase⟩
    | dropped => exact absurd phase kept

theorem not_returned_of_missed {w : DeathWaiter} (sound : s.Sound) (present : w ∈ s.waiters)
    (missed : w.missed = true) : w.phase ≠ .returned := by
  have waiting := sound.waiters w present
  intro returned
  unfold DeathWaiter.Sound at waiting
  split at waiting
  · rcases waiting with ⟨-, stuck⟩ | ⟨seen, -⟩
    · simp [returned] at stuck
    · rw [missed] at seen
      cases seen
  · rw [missed] at waiting
    cases waiting.1

/-- However many calls race to end the session and whatever streams come and go meanwhile: once
the notification is out the death is counted once, every stream the closing call found has been
finished, and what the table holds was opened later.  A task in `wait_dead` that was not dropped
can still return, by some continuation, exactly if it was not between its test and its
`Notified` when the notification went out. -/
theorem session_dies (reachable : machine.Reachable s) (ended : s.closer = some .done) :
    s.dead = true ∧ s.sessionsDead = 1 ∧ (∀ id ∈ s.collected, id ∈ s.finished) ∧
      (∀ id ∈ s.streams, id ∈ s.late) ∧
      ∀ (index : Nat) (w : DeathWaiter), s.waiters[index]? = some w → w.phase ≠ .dropped →
        (s.CanReturn index ↔ w.missed = false) := by
  have sound := sound_of_reachable reachable
  have dead : s.dead = true := by
    rw [sound.dead, ended]
    rfl
  refine ⟨dead, by rw [sound.counted, dead, if_pos rfl], (sound.closed (.inr ended)).2,
    (sound.closed (.inr ended)).1, fun index w found kept => ⟨?_, ?_⟩⟩
  · rintro ⟨schedule, t, later, ran, there, returned⟩
    by_contra seen
    rw [Bool.not_eq_false] at seen
    obtain ⟨still, same, missed⟩ := missed_run ran found seen
    obtain rfl : later = still := Option.some.inj (there.symm.trans same)
    exact not_returned_of_missed (sound_of_reachable (reachable.run ran))
      (List.mem_of_getElem? there) missed returned
  · exact returns_of_not_missed sound ended found kept

/-- One task sleeps in time; the other has tested, and registers after the notification.  A
stream comes after the collection. -/
def lateNotified : List DeathAction :=
  [.alloc 1, .waitDead, .waitDead, .test 0, .arm 0, .test 1, .markDead, .markDead, .close,
    .alloc 3, .close, .close, .close, .arm 1]

def opened : DyingSession := ⟨false, none, [], 1, 0, [], [], [], []⟩

theorem session_dies_lateNotified :
    ∃ s, machine.run opened lateNotified = some s ∧ s.streams = [3] ∧ s.finished = [1] ∧
      s.sessionsDead = 1 ∧
      ¬ s.CanReturn 1 := by
  have history : (machine.run opened lateNotified).map
      (fun s => (s.closer, s.streams, s.finished, s.waiters)) =
      some (some .done, [3], [1], [⟨.armed, true, false⟩, ⟨.armed, false, true⟩]) := by
    decide +kernel
  obtain ⟨s, ran, made⟩ := Option.map_eq_some_iff.mp history
  simp only [Prod.mk.injEq] at made
  obtain ⟨ended, streams, finished, waiters⟩ := made
  have reachable : machine.Reachable s := Machine.Reachable.run (.start ⟨0, rfl⟩) ran
  obtain ⟨-, once, -, -, left⟩ := session_dies reachable ended
  refine ⟨s, ran, streams, finished, once, fun returns => ?_⟩
  have second : s.waiters[1]? = some ⟨.armed, false, true⟩ := by rw [waiters]; rfl
  have seen := (left 1 _ second (by simp)).mp returns
  cases seen

end DyingSession

end NyaLink
