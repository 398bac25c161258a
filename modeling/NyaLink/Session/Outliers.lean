import NyaLink.Library.HoldTimer
import NyaLink.Library.OrdMap
import NyaLink.Session.ClassRtt

/-!
# Recycling outliers

The maintenance pass of a client looks at each path in turn.  A path whose class
has been known for the hold, and that is a backup to the best path of its own
link by the class and by the fast RTT, starts a timer; the first look that finds
otherwise clears it.  When the timer has run for the hold the path is recycled.

Samples, losses and new paths may come between any two looks.
-/

namespace NyaLink

/-- What the looks at the paths read and write of one. -/
structure OutlierPath where
  link : String
  up : Bool
  rttEwmaUs : Nat
  cls : ClassRtt
  outlierSince : Option Nat
  /-- When the path joined the session. -/
  joined : Nat
  deriving DecidableEq

namespace OutlierPath

def rttUs (p : OutlierPath) : Nat := if p.rttEwmaUs = 0 then unknownRttUs else p.rttEwmaUs

def classRtt (p : OutlierPath) : Nat :=
  if p.cls.rttClassUs = 0 then p.rttUs else p.cls.rttClassUs

def classKnown (p : OutlierPath) : Bool := p.cls.rttClassUs != 0

def markOutlier (p : OutlierPath) (now : Nat) : OutlierPath :=
  { p with outlierSince := some (p.outlierSince.getD now) }

def clearOutlier (p : OutlierPath) : OutlierPath := { p with outlierSince := none }

/-- `record_rtt` as far as the fast RTT and the class go. -/
def recordRtt (p : OutlierPath) (sample now later : Nat) : OutlierPath :=
  let fast := if p.rttEwmaUs = 0 then sample else (p.rttEwmaUs * 8 + sample * 2) / 10
  { p with rttEwmaUs := fast, cls := (p.cls.updateClass ⟨fast, now, later⟩).1 }

/-- A new path. -/
def start (link : String) (stableUpHold now : Nat) : OutlierPath :=
  ⟨link, true, 0, .new stableUpHold, none, now⟩

end OutlierPath

/-- One look at a path: what was read of it and of its siblings, and the three readings of the
clock, the last one behind `elapsed`. -/
structure Look where
  id : Nat
  joined : Nat
  up : Bool
  classKnown : Bool
  classKnownSince : Option Nat
  classRtt : Nat
  rtt : Nat
  bestSib : Option Nat
  aged : Nat
  marked : Nat
  later : Nat
  recycled : Bool
  deriving DecidableEq

namespace Look

/-- The path is up, its class has been known for the hold, and by the class and by the fast RTT it
is a backup to its best sibling. -/
def outlying (cfg : PickConfig) (hold : Nat) (look : Look) : Bool :=
  look.up && look.classKnown &&
    look.classKnownSince.any (fun t => decide (hold ≤ look.aged - t)) &&
    look.bestSib.any fun sib => isBackup cfg look.classRtt sib && isBackup cfg look.rtt sib

/-- What a look does to the timer. -/
def mark (cfg : PickConfig) (hold : Nat) (look : Look) : Option Nat :=
  if look.outlying cfg hold then some look.marked else none

end Look

/-- Where `maybe_recycle_outliers` is. -/
inductive RecyclePhase where
  | idle
  /-- Of the paths `listed`, `todo` are still to be looked at. -/
  | looking (listed todo recycle : List Nat)
  | failing (recycle : List Nat)
  deriving DecidableEq

structure Recycler where
  clock : Nat
  nextPathId : Nat
  paths : OrdMap Nat OutlierPath
  phase : RecyclePhase
  /-- All looks, the newest first. -/
  looks : List Look

inductive RecyclerAction where
  | elapse (time : Nat)
  | join (link : String) (stableUpHold : Nat)
  | setUp (id : Nat) (up : Bool)
  | fail (id : Nat)
  | recordRtt (id sample now later : Nat)
  /-- The table lists its paths in some order. -/
  | listPaths (order : List Nat)
  | look (aged marked later : Nat)
  | lookedAtAll
  | recycleNext
  | finish

namespace Recycler

/-- The listed paths of the same link that are up and whose class is known. -/
def siblings (paths : OrdMap Nat OutlierPath) (listed : List Nat) (id : Nat) (link : String) :
    List OutlierPath :=
  listed.filterMap fun other =>
    if other = id then none
    else (paths.get? other).filter fun q => q.up && q.classKnown && decide (q.link = link)

def bestSib (paths : OrdMap Nat OutlierPath) (listed : List Nat) (id : Nat) (link : String) :
    Option Nat :=
  ((siblings paths listed id link).map OutlierPath.classRtt).min?

section

variable (cfg : PickConfig) (hold : Nat)

def lookAt (s : Recycler) (listed : List Nat) (id : Nat) (p : OutlierPath)
    (aged marked later : Nat) : Look :=
  let look : Look := ⟨id, p.joined, p.up, p.classKnown, p.cls.classKnownSince, p.classRtt, p.rttUs,
    bestSib s.paths listed id p.link, aged, marked, later, false⟩
  { look with
    recycled := look.outlying cfg hold &&
      decide (hold ≤ later - p.outlierSince.getD marked) }

/-- A path that has left the table is down, and nothing reads its timer any more. -/
def look (s : Recycler) (aged marked later : Nat) : Option Recycler :=
  match s.phase with
  | .looking listed (id :: todo) recycle =>
      if s.clock ≤ aged ∧ aged ≤ marked ∧ marked ≤ later then
        match s.paths.get? id with
        | none => some { s with phase := .looking listed todo recycle, clock := later }
        | some p =>
            let look := s.lookAt cfg hold listed id p aged marked later
            let seen := if look.outlying cfg hold then p.markOutlier marked else p.clearOutlier
            some { s with
              clock := later
              paths := s.paths.insert id seen
              phase := .looking listed todo (if look.recycled then recycle ++ [id] else recycle)
              looks := look :: s.looks }
      else none
  | _ => none

def step (s : Recycler) : RecyclerAction → Option Recycler
  | .elapse time => some { s with clock := s.clock + time }
  | .join link stableUpHold =>
      some { s with
        nextPathId := s.nextPathId + 1
        paths := s.paths.insert s.nextPathId (.start link stableUpHold s.clock) }
  | .setUp id up => some { s with paths := s.paths.modify id fun p => { p with up } }
  | .fail id => some { s with paths := s.paths.erase id }
  | .recordRtt id sample now later =>
      if s.clock ≤ now ∧ now ≤ later then
        some { s with
          clock := later
          paths := s.paths.modify id fun p => p.recordRtt sample now later }
      else none
  | .listPaths order =>
      if s.phase = .idle ∧ order.Perm (s.paths.entries.map Prod.fst) then
        some { s with phase := .looking order order [] }
      else none
  | .look aged marked later => s.look cfg hold aged marked later
  | .lookedAtAll =>
      match s.phase with
      | .looking _ [] recycle => some { s with phase := .failing recycle }
      | _ => none
  | .recycleNext =>
      match s.phase with
      | .failing (id :: recycle) =>
          some { s with paths := s.paths.erase id, phase := .failing recycle }
      | _ => none
  | .finish => if s.phase = .failing [] then some { s with phase := .idle } else none

def new : Recycler := ⟨0, 1, .empty, .idle, []⟩

def machine : Machine Recycler RecyclerAction := ⟨fun s => s = new, step cfg hold⟩

/-- Nothing comes between the looks of a pass. -/
def Undisturbed (s : Recycler) : RecyclerAction → Prop
  | .setUp _ _ | .fail _ | .recordRtt _ _ _ _ => s.phase = .idle
  | _ => True

instance (s : Recycler) : (action : RecyclerAction) → Decidable (s.Undisturbed action)
  | .setUp _ _ | .fail _ | .recordRtt _ _ _ _ => inferInstanceAs (Decidable (s.phase = .idle))
  | .elapse _ | .join _ _ | .listPaths _ | .look _ _ _ | .lookedAtAll | .recycleNext | .finish =>
      inferInstanceAs (Decidable True)

end

end Recycler

/-! ## The timer -/

namespace Recycler

section

variable (cfg : PickConfig) (hold : Nat)

/-- The looks at a path, as the timer takes them. -/
def marks (id : Nat) (looks : List Look) : List (Option Nat) :=
  (looks.filter fun look => look.id = id).map (Look.mark cfg hold)

/-- A look recycles its path exactly if the timer has run for the hold. -/
def Verdicts : List Look → Prop
  | [] => True
  | look :: older =>
      (look.recycled = true ↔ ∃ start,
        HoldTimer.since (marks cfg hold look.id (look :: older)) = some start ∧
          start + hold ≤ look.later) ∧
        Verdicts older

structure Timed (s : Recycler) : Prop where
  fresh : ∀ id p, s.paths.get? id = some p → id < s.nextPathId
  named : ∀ look ∈ s.looks, look.id < s.nextPathId
  timer : ∀ id p, s.paths.get? id = some p →
    p.outlierSince = HoldTimer.since (marks cfg hold id s.looks)
  joined : ∀ id p, s.paths.get? id = some p →
    p.joined ≤ s.clock ∧ ∀ t ∈ p.cls.classKnownSince, p.joined ≤ t
  same : ∀ id p, s.paths.get? id = some p → ∀ look ∈ s.looks, look.id = id →
    look.joined = p.joined
  looked : ∀ look ∈ s.looks, look.joined ≤ look.aged ∧ look.aged ≤ look.marked ∧
    look.marked ≤ look.later ∧ look.later ≤ s.clock ∧ ∀ t ∈ look.classKnownSince, look.joined ≤ t
  ordered : s.looks.Pairwise fun newer older =>
    older.marked ≤ newer.marked ∧ (older.id = newer.id → older.joined = newer.joined)
  verdicts : Verdicts cfg hold s.looks

end

variable {cfg : PickConfig} {hold : Nat} {s next : Recycler}

theorem mem_marks {id : Nat} {looks : List Look} {entry : Option Nat} :
    entry ∈ marks cfg hold id looks ↔
      ∃ look ∈ looks, look.id = id ∧ look.mark cfg hold = entry := by
  simp only [marks, List.mem_map, List.mem_filter, decide_eq_true_eq, and_assoc]

theorem marks_cons_self (look : Look) (looks : List Look) :
    marks cfg hold look.id (look :: looks) =
      look.mark cfg hold :: marks cfg hold look.id looks := by
  simp [marks]

theorem marks_cons_of_ne {look : Look} {id : Nat} (different : look.id ≠ id) (looks : List Look) :
    marks cfg hold id (look :: looks) = marks cfg hold id looks := by
  rw [marks, List.filter_cons_of_neg (by simpa using different)]
  rfl

/-- A look that nobody made says nothing. -/
theorem marks_eq_nil {id : Nat} {looks : List Look} (none_of : ∀ look ∈ looks, look.id ≠ id) :
    marks cfg hold id looks = [] := by
  have left : looks.filter (fun look => look.id = id) = [] :=
    List.filter_eq_nil_iff.mpr fun look membership => by simpa using none_of look membership
  rw [marks, left]
  rfl

theorem of_mark {look : Look} {now : Nat} (found : look.mark cfg hold = some now) :
    look.outlying cfg hold = true ∧ look.marked = now := by
  unfold Look.mark at found
  split at found
  · rename_i outlying
    exact ⟨outlying, Option.some.inj found⟩
  · cases found

/-! ## Each step -/

theorem Timed.carry (timed : Timed cfg hold s) (looks : next.looks = s.looks)
    (clock : s.clock ≤ next.clock) (nextPathId : next.nextPathId = s.nextPathId)
    (paths : ∀ id q, next.paths.get? id = some q → ∃ p, s.paths.get? id = some p ∧
      q.outlierSince = p.outlierSince ∧ q.joined = p.joined ∧
      ∀ t ∈ q.cls.classKnownSince, p.joined ≤ t) : Timed cfg hold next := by
  constructor
  · intro id q found
    obtain ⟨p, before, _⟩ := paths id q found
    rw [nextPathId]
    exact timed.fresh id p before
  · rw [looks, nextPathId]
    exact timed.named
  · intro id q found
    obtain ⟨p, before, timer, _⟩ := paths id q found
    rw [timer, looks]
    exact timed.timer id p before
  · intro id q found
    obtain ⟨p, before, _, joined, known⟩ := paths id q found
    rw [joined]
    exact ⟨Nat.le_trans (timed.joined id p before).1 clock, known⟩
  · intro id q found
    obtain ⟨p, before, _, joined, _⟩ := paths id q found
    rw [looks, joined]
    exact timed.same id p before
  · rw [looks]
    intro look membership
    obtain ⟨begun, aged, marked, later, known⟩ := timed.looked look membership
    exact ⟨begun, aged, marked, Nat.le_trans later clock, known⟩
  · rw [looks]
    exact timed.ordered
  · rw [looks]
    exact timed.verdicts

theorem Timed.unchanged (timed : Timed cfg hold s) (looks : next.looks = s.looks)
    (clock : s.clock ≤ next.clock) (nextPathId : next.nextPathId = s.nextPathId)
    (paths : ∀ id q, next.paths.get? id = some q → s.paths.get? id = some q) :
    Timed cfg hold next :=
  timed.carry looks clock nextPathId fun id q found =>
    ⟨q, paths id q found, rfl, rfl, (timed.joined id q (paths id q found)).2⟩

theorem Timed.erase (timed : Timed cfg hold s) (id : Nat) (phase : RecyclePhase) :
    Timed cfg hold { s with paths := s.paths.erase id, phase } :=
  timed.unchanged rfl (Nat.le_refl _) rfl fun _ _ found =>
    (OrdMap.get?_erase_eq_some_iff.mp found).2

theorem Timed.join (timed : Timed cfg hold s) (link : String) (stableUpHold : Nat) :
    Timed cfg hold { s with
      nextPathId := s.nextPathId + 1
      paths := s.paths.insert s.nextPathId (.start link stableUpHold s.clock) } := by
  have unlooked : ∀ look ∈ s.looks, look.id ≠ s.nextPathId :=
    fun look membership => Nat.ne_of_lt (timed.named look membership)
  constructor
  · intro id q found
    rcases OrdMap.get?_insert_cases found with ⟨rfl, _⟩ | before
    · exact Nat.lt_succ_self _
    · exact Nat.lt_succ_of_lt (timed.fresh id q before)
  · exact fun look membership => Nat.lt_succ_of_lt (timed.named look membership)
  · intro id q found
    rcases OrdMap.get?_insert_cases found with ⟨rfl, rfl⟩ | before
    · rw [marks_eq_nil unlooked]
      rfl
    · exact timed.timer id q before
  · intro id q found
    rcases OrdMap.get?_insert_cases found with ⟨rfl, rfl⟩ | before
    · refine ⟨Nat.le_refl _, fun t known => ?_⟩
      cases known
    · exact timed.joined id q before
  · intro id q found look membership own
    rcases OrdMap.get?_insert_cases found with ⟨rfl, rfl⟩ | before
    · exact absurd own (unlooked look membership)
    · exact timed.same id q before look membership own
  · exact timed.looked
  · exact timed.ordered
  · exact timed.verdicts

theorem Timed.recordRtt (timed : Timed cfg hold s) {id sample now later : Nat}
    (started : s.clock ≤ now) (ended : now ≤ later) :
    Timed cfg hold { s with
      clock := later
      paths := s.paths.modify id fun p => p.recordRtt sample now later } := by
  refine timed.carry rfl (Nat.le_trans started ended) rfl fun other q found => ?_
  rcases OrdMap.get?_modify_cases found with ⟨rfl, p, before, rfl⟩ | ⟨_, before⟩
  · refine ⟨p, before, rfl, rfl, fun t known => ?_⟩
    obtain ⟨joined, earlier⟩ := timed.joined _ p before
    have stored : (p.recordRtt sample now later).cls.classKnownSince = p.cls.classKnownSince ∨
        (p.recordRtt sample now later).cls.classKnownSince = some now := by
      unfold OutlierPath.recordRtt
      generalize (if p.rttEwmaUs = 0 then sample else (p.rttEwmaUs * 8 + sample * 2) / 10) = fast
      have effect := ClassRtt.effect_updateClass p.cls ⟨fast, now, later⟩
      dsimp only
      generalize p.cls.updateClass ⟨fast, now, later⟩ = result at effect ⊢
      obtain ⟨updated, store⟩ := result
      cases effect with
      | kept _ _ same => exact .inl same
      | init _ _ _ stored => exact .inr stored
      | raise _ _ _ _ same => exact .inl same
      | drop _ _ same => exact .inl same
    rcases stored with same | stored
    · exact earlier t (same ▸ known)
    · rw [stored] at known
      cases known
      exact Nat.le_trans joined started
  · exact ⟨q, before, rfl, rfl, (timed.joined other q before).2⟩

theorem since_look (timed : Timed cfg hold s) {id : Nat} {p : OutlierPath}
    (found : s.paths.get? id = some p) {look : Look} (own : look.id = id) :
    HoldTimer.since (marks cfg hold id (look :: s.looks)) =
      if look.outlying cfg hold then some (p.outlierSince.getD look.marked) else none := by
  subst own
  rw [marks_cons_self, Look.mark]
  split
  · rw [HoldTimer.since_found, ← timed.timer _ p found]
  · rw [HoldTimer.since_miss]

theorem Timed.looked_at (timed : Timed cfg hold s) {id aged marked later : Nat} {p : OutlierPath}
    {listed : List Nat} (found : s.paths.get? id = some p) (started : s.clock ≤ aged)
    (between : aged ≤ marked) (ended : marked ≤ later) (phase : RecyclePhase) :
    Timed cfg hold { s with
      clock := later
      paths := s.paths.insert id
        (if (s.lookAt cfg hold listed id p aged marked later).outlying cfg hold then
          p.markOutlier marked else p.clearOutlier)
      phase
      looks := s.lookAt cfg hold listed id p aged marked later :: s.looks } := by
  generalize made : s.lookAt cfg hold listed id p aged marked later = look
  have own : look.id = id := by rw [← made]; rfl
  have clock : s.clock ≤ later := Nat.le_trans started (Nat.le_trans between ended)
  have read : look.joined = p.joined ∧ look.classKnownSince = p.cls.classKnownSince ∧
      look.aged = aged ∧ look.marked = marked ∧ look.later = later := by
    rw [← made]
    exact ⟨rfl, rfl, rfl, rfl, rfl⟩
  have verdict : look.recycled = (look.outlying cfg hold &&
      decide (hold ≤ later - p.outlierSince.getD marked)) := by
    rw [← made]
    rfl
  obtain ⟨joined, known, agedAt, markedAt, laterAt⟩ := read
  have since := since_look timed found own
  rw [markedAt] at since
  constructor
  · intro other q located
    rcases OrdMap.get?_insert_cases located with ⟨rfl, _⟩ | before
    · exact timed.fresh _ p found
    · exact timed.fresh other q before
  · intro other membership
    rcases List.mem_cons.mp membership with rfl | earlier
    · rw [own]
      exact timed.fresh id p found
    · exact timed.named other earlier
  · intro other q located
    by_cases same : other = id
    · subst same
      rw [OrdMap.get?_insert_self] at located
      cases located
      rw [since]
      split <;> rfl
    · rw [OrdMap.get?_insert_of_ne _ _ same] at located
      rw [marks_cons_of_ne fun equal => same (equal.symm.trans own)]
      exact timed.timer other q located
  · intro other q located
    rcases OrdMap.get?_insert_cases located with ⟨rfl, rfl⟩ | before
    · obtain ⟨begun, since⟩ := timed.joined _ p found
      have kept : ∀ {q : OutlierPath}, q.joined = p.joined → q.cls = p.cls →
          q.joined ≤ later ∧ ∀ t ∈ q.cls.classKnownSince, q.joined ≤ t := by
        intro q joined cls
        rw [joined, cls]
        exact ⟨Nat.le_trans begun clock, since⟩
      split
      · exact kept rfl rfl
      · exact kept rfl rfl
    · obtain ⟨begun, since⟩ := timed.joined other q before
      exact ⟨Nat.le_trans begun clock, since⟩
  · intro other q located one membership same
    by_cases this : other = id
    · subst this
      rw [OrdMap.get?_insert_self] at located
      have kept : q.joined = p.joined := by
        cases located
        split <;> rfl
      rw [kept]
      rcases List.mem_cons.mp membership with rfl | earlier
      · exact joined
      · exact timed.same _ p found one earlier same
    · rw [OrdMap.get?_insert_of_ne _ _ this] at located
      rcases List.mem_cons.mp membership with rfl | earlier
      · exact absurd (same.symm.trans own) this
      · exact timed.same other q located one earlier same
  · intro one membership
    rcases List.mem_cons.mp membership with rfl | earlier
    · rw [agedAt, markedAt, laterAt, joined, known]
      obtain ⟨begun, since⟩ := timed.joined id p found
      exact ⟨Nat.le_trans begun started, between, ended, Nat.le_refl later, since⟩
    · obtain ⟨begun, first, second, third, since⟩ := timed.looked one earlier
      exact ⟨begun, first, second, Nat.le_trans third clock, since⟩
  · refine List.pairwise_cons.mpr ⟨fun older membership => ⟨?_, fun same => ?_⟩, timed.ordered⟩
    · obtain ⟨_, _, second, third, _⟩ := timed.looked older membership
      rw [markedAt]
      omega
    · rw [joined]
      exact timed.same id p found older membership (same.trans own)
  · refine ⟨?_, timed.verdicts⟩
    rw [own, since, verdict, laterAt]
    cases outlying : look.outlying cfg hold with
    | false => simp
    | true =>
        have begun : p.outlierSince.getD marked ≤ marked := by
          cases running : p.outlierSince with
          | none => exact Nat.le_refl marked
          | some start =>
              rw [timed.timer id p found] at running
              obtain ⟨recent, before, same, _⟩ := HoldTimer.endsWith_since running
              have entry : some start ∈ marks cfg hold id s.looks := by
                rw [same]
                exact List.mem_append_right _ (List.mem_cons_self ..)
              obtain ⟨older, membership, _, marks⟩ := mem_marks.mp entry
              obtain ⟨_, _, second, third, _⟩ := timed.looked older membership
              have first := (of_mark marks).2
              show start ≤ marked
              omega
        simp only [Bool.true_and, decide_eq_true_eq, if_true, Option.some.injEq, exists_eq_left']
        omega

theorem Timed.look (timed : Timed cfg hold s) {aged marked later : Nat}
    (taken : s.look cfg hold aged marked later = some next) : Timed cfg hold next := by
  unfold Recycler.look at taken
  split at taken
  · rename_i listed id todo recycle phase
    split at taken
    · rename_i readings
      obtain ⟨started, between, ended⟩ := readings
      have clock : s.clock ≤ later := Nat.le_trans started (Nat.le_trans between ended)
      split at taken
      · cases taken
        exact timed.unchanged rfl clock rfl fun _ _ found => found
      · rename_i p found
        cases taken
        exact timed.looked_at found started between ended _
    · cases taken
  · cases taken

theorem timed_of_reachable (reachable : (machine cfg hold).Reachable s) : Timed cfg hold s := by
  induction reachable with
  | start begins =>
      subst begins
      constructor
      · intro id p found
        cases found
      · intro look membership
        cases membership
      · intro id p found
        cases found
      · intro id p found
        cases found
      · intro id p found
        cases found
      · intro look membership
        cases membership
      · exact List.Pairwise.nil
      · trivial
  | @step s action next _ _ taken inductionHypothesis =>
      cases action with
      | elapse time =>
          cases taken
          exact inductionHypothesis.unchanged rfl (Nat.le_add_right _ _) rfl fun _ _ found => found
      | join link stableUpHold =>
          cases taken
          exact inductionHypothesis.join link stableUpHold
      | setUp id up =>
          cases taken
          refine inductionHypothesis.carry rfl (Nat.le_refl _) rfl fun other q found => ?_
          rcases OrdMap.get?_modify_cases found with ⟨rfl, p, before, rfl⟩ | ⟨_, before⟩
          · exact ⟨p, before, rfl, rfl, (inductionHypothesis.joined _ p before).2⟩
          · exact ⟨q, before, rfl, rfl, (inductionHypothesis.joined _ q before).2⟩
      | fail id =>
          cases taken
          exact inductionHypothesis.erase id _
      | recordRtt id sample now later =>
          simp only [machine, step] at taken
          split at taken
          · rename_i readings
            cases taken
            exact inductionHypothesis.recordRtt readings.1 readings.2
          · cases taken
      | listPaths order =>
          simp only [machine, step] at taken
          split at taken
          · cases taken
            exact inductionHypothesis.unchanged rfl (Nat.le_refl _) rfl fun _ _ found => found
          · cases taken
      | look aged marked later => exact inductionHypothesis.look taken
      | lookedAtAll =>
          simp only [machine, step] at taken
          split at taken
          · cases taken
            exact inductionHypothesis.unchanged rfl (Nat.le_refl _) rfl fun _ _ found => found
          · cases taken
      | recycleNext =>
          simp only [machine, step] at taken
          split at taken
          · cases taken
            exact inductionHypothesis.erase _ _
          · cases taken
      | finish =>
          simp only [machine, step] at taken
          split at taken
          · cases taken
            exact inductionHypothesis.unchanged rfl (Nat.le_refl _) rfl fun _ _ found => found
          · cases taken

/-! ## What a recycled path was seen to be -/

theorem Verdicts.of_append {newer older : List Look} {look : Look}
    (verdicts : Verdicts cfg hold (newer ++ look :: older)) :
    look.recycled = true ↔ ∃ start,
      HoldTimer.since (marks cfg hold look.id (look :: older)) = some start ∧
        start + hold ≤ look.later := by
  induction newer with
  | nil => exact verdicts.1
  | cons newest newer inductionHypothesis => exact inductionHypothesis verdicts.2

theorem ordered_marks {looks : List Look} (id : Nat)
    (ordered : looks.Pairwise fun newer older => older.marked ≤ newer.marked) :
    HoldTimer.Ordered (marks cfg hold id looks) := by
  unfold HoldTimer.Ordered marks
  rw [List.pairwise_map]
  refine (ordered.filter _).imp fun {newer older} before late marked soon earlier => ?_
  rw [← (of_mark marked).2, ← (of_mark earlier).2]
  exact before

theorem endsWith_marks {id start : Nat} {looks : List Look} :
    HoldTimer.EndsWith (marks cfg hold id looks) start ↔
      ∃ recent first before, looks.filter (fun look => look.id = id) = recent ++ first :: before ∧
        (∀ look ∈ recent ++ [first], look.outlying cfg hold = true) ∧ first.marked = start := by
  constructor
  · rintro ⟨recent, before, same, found⟩
    obtain ⟨recent', rest, split, rfl, last⟩ := List.map_eq_append_iff.mp same
    obtain ⟨first, before', rfl, mark, _⟩ := List.map_eq_cons_iff.mp last
    refine ⟨recent', first, before', split, fun look membership => ?_, (of_mark mark).2⟩
    rcases List.mem_append.mp membership with early | last
    · by_contra missed
      refine found (List.mem_map.mpr ⟨look, early, ?_⟩)
      rw [Look.mark, if_neg missed]
    · rw [List.mem_singleton.mp last]
      exact (of_mark mark).1
  · rintro ⟨recent, first, before, split, outlying, rfl⟩
    refine ⟨recent.map (Look.mark cfg hold), before.map (Look.mark cfg hold), ?_, ?_⟩
    · have last := outlying first (List.mem_append_right _ (List.mem_singleton.mpr rfl))
      rw [marks, split, List.map_append, List.map_cons, Look.mark, if_pos last]
    · intro missed
      obtain ⟨look, membership, mark⟩ := List.mem_map.mp missed
      rw [Look.mark, if_pos (outlying look (List.mem_append_left _ membership))] at mark
      cases mark

/-- An outlier has been in the session for the hold. -/
theorem le_of_outlying {look : Look} (outlying : look.outlying cfg hold = true)
    (begun : look.joined ≤ look.aged) (known : ∀ t ∈ look.classKnownSince, look.joined ≤ t) :
    look.joined + hold ≤ look.aged := by
  simp only [Look.outlying, Bool.and_eq_true, Option.any_eq_true, decide_eq_true_eq] at outlying
  obtain ⟨⟨_, t, since, aged⟩, _⟩ := outlying
  have joined := known t since
  omega

/-- In every run a look recycles its path exactly if it and all looks at the path since one of at
least the hold ago found an outlier, whatever came between them; and a path that is recycled has
been in the session for two holds. -/
theorem recycled_iff_lasting (cfg : PickConfig) (hold : Nat) {s : Recycler}
    (reachable : (machine cfg hold).Reachable s) {newer older : List Look} {look : Look}
    (log : s.looks = newer ++ look :: older) :
    (look.recycled = true ↔ ∃ recent first before,
      (look :: older).filter (fun other => other.id = look.id) = recent ++ first :: before ∧
        (∀ other ∈ recent ++ [first], other.outlying cfg hold = true) ∧
        first.marked + hold ≤ look.later) ∧
      (look.recycled = true → look.joined + 2 * hold ≤ look.later) := by
  have timed := timed_of_reachable reachable
  have ordered : (look :: older).Pairwise fun newer older =>
      older.marked ≤ newer.marked ∧ (older.id = newer.id → older.joined = newer.joined) :=
    (List.pairwise_append.mp (log ▸ timed.ordered)).2.1
  have verdict := (log ▸ timed.verdicts : Verdicts cfg hold (newer ++ look :: older)).of_append
  have lasting : look.recycled = true ↔ ∃ recent first before,
      (look :: older).filter (fun other => other.id = look.id) = recent ++ first :: before ∧
        (∀ other ∈ recent ++ [first], other.outlying cfg hold = true) ∧
        first.marked + hold ≤ look.later := by
    rw [verdict, HoldTimer.held_iff (ordered_marks look.id (ordered.imp And.left))]
    constructor
    · rintro ⟨start, ends, held⟩
      obtain ⟨recent, first, before, split, outlying, rfl⟩ := endsWith_marks.mp ends
      exact ⟨recent, first, before, split, outlying, held⟩
    · rintro ⟨recent, first, before, split, outlying, held⟩
      exact ⟨_, endsWith_marks.mpr ⟨recent, first, before, split, outlying, rfl⟩, held⟩
  refine ⟨lasting, fun recycled => ?_⟩
  obtain ⟨recent, first, before, split, outlying, held⟩ := lasting.mp recycled
  have seen : first ∈ (look :: older).filter fun other => other.id = look.id := by
    rw [split]
    exact List.mem_append_right _ (List.mem_cons_self ..)
  obtain ⟨membership, own⟩ := List.mem_filter.mp seen
  have logged : first ∈ s.looks := by
    rw [log]
    exact List.mem_append_right _ membership
  obtain ⟨begun, aged, _, _, known⟩ := timed.looked first logged
  have found := outlying first (List.mem_append_right _ (List.mem_singleton.mpr rfl))
  have waited := le_of_outlying found begun known
  have joined : first.joined = look.joined := by
    rcases List.mem_cons.mp membership with rfl | earlier
    · rfl
    · exact ((List.pairwise_cons.mp ordered).1 first earlier).2 (of_decide_eq_true own)
  omega

/-- Two paths of one link, one of them far slower; two passes, a hold apart. -/
def slowPath : List RecyclerAction :=
  [.join "soy" 50, .join "soy" 50] ++ List.replicate 8 (.recordRtt 1 227000 0 0) ++
    List.replicate 8 (.recordRtt 2 7000 0 0) ++
    [.elapse 50, .listPaths [1, 2], .look 50 50 50, .look 50 50 50, .lookedAtAll, .finish,
      .elapse 50, .listPaths [2, 1], .look 100 100 100, .look 100 100 100]

theorem recycled_iff_lasting_slowPath :
    ∃ s look older, (machine .standard 50).run new slowPath = some s ∧
      s.looks = [] ++ look :: older ∧ look.id = 1 ∧ look.recycled = true ∧
      look.joined + 2 * 50 ≤ look.later := by
  have history : ((machine .standard 50).run new slowPath).map (fun s =>
      s.looks.map fun look => (look.id, look.recycled)) =
      some [(1, true), (2, false), (2, false), (1, false)] := by decide +kernel
  obtain ⟨s, ran, made⟩ := Option.map_eq_some_iff.mp history
  obtain ⟨look, older, log, first, _⟩ := List.map_eq_cons_iff.mp made
  obtain ⟨own, recycled⟩ := Prod.mk.inj first
  have reachable : (machine .standard 50).Reachable s := Machine.Reachable.run (.start rfl) ran
  have logged : s.looks = [] ++ look :: older := log
  exact ⟨s, look, older, ran, logged, own, recycled,
    (recycled_iff_lasting .standard 50 reachable logged).2 recycled⟩

/-! ## What a pass leaves -/

/-- A listed path of the same link is up and of a better class. -/
def Beaten (paths : OrdMap Nat OutlierPath) (listed : List Nat) (id : Nat) : Prop :=
  ∃ p other q, paths.get? id = some p ∧ other ∈ listed ∧ paths.get? other = some q ∧
    q.up = true ∧ q.link = p.link ∧ q.classRtt < p.classRtt

/-- Whatever is found in one table is found in the other with the same link and the same class. -/
def Alike (paths after : OrdMap Nat OutlierPath) : Prop :=
  ∀ id p, paths.get? id = some p → ∃ q, after.get? id = some q ∧ q.up = p.up ∧ q.link = p.link ∧
    q.classRtt = p.classRtt

theorem Beaten.alike {paths after : OrdMap Nat OutlierPath} {listed : List Nat} {id : Nat}
    (beaten : Beaten paths listed id) (alike : Alike paths after) : Beaten after listed id := by
  obtain ⟨p, other, q, found, membership, sibling, up, link, better⟩ := beaten
  obtain ⟨p', found', _, link', class'⟩ := alike id p found
  obtain ⟨q', sibling', up', link'', class''⟩ := alike other q sibling
  refine ⟨p', other, q', found', membership, sibling', up'.trans up, ?_, ?_⟩
  · rw [link'', link', link]
  · rw [class'', class']
    exact better

theorem bestSib_eq_some {paths : OrdMap Nat OutlierPath} {listed : List Nat} {id sib : Nat}
    {link : String} (best : bestSib paths listed id link = some sib) :
    ∃ other ∈ listed, ∃ q, paths.get? other = some q ∧ q.up = true ∧ q.link = link ∧
      q.classRtt = sib := by
  obtain ⟨q, membership, rtt⟩ := List.mem_map.mp (List.min?_mem best)
  obtain ⟨other, listed, found⟩ := List.mem_filterMap.mp membership
  split at found
  · cases found
  · obtain ⟨located, facts⟩ := Option.filter_eq_some_iff.mp found
    simp only [Bool.and_eq_true, decide_eq_true_eq] at facts
    exact ⟨other, listed, q, located, facts.1.1, facts.2, rtt⟩

theorem beaten_of_recycled (dominates : ∀ rtt, rtt ≤ cfg.backupBound rtt) {listed : List Nat}
    {id aged marked later : Nat} {p : OutlierPath} (found : s.paths.get? id = some p)
    (recycled : (s.lookAt cfg hold listed id p aged marked later).recycled = true) :
    Beaten s.paths listed id := by
  have outlying : (s.lookAt cfg hold listed id p aged marked later).outlying cfg hold = true :=
    (Bool.and_eq_true_iff.mp recycled).1
  simp only [Look.outlying, Bool.and_eq_true, Option.any_eq_true] at outlying
  obtain ⟨_, sib, best, backup, _⟩ := outlying
  obtain ⟨other, membership, q, located, up, link, rtt⟩ := bestSib_eq_some best
  have above : cfg.backupBound sib < p.classRtt := of_decide_eq_true backup
  refine ⟨p, other, q, found, membership, located, up, link, ?_⟩
  rw [rtt]
  exact Nat.lt_of_le_of_lt (dominates sib) above

/-- All that are to be recycled are beaten by a listed path. -/
def Spared (s : Recycler) : Prop :=
  ∀ listed todo recycle, s.phase = .looking listed todo recycle →
    ∀ id ∈ recycle, Beaten s.paths listed id

theorem alike_insert {paths : OrdMap Nat OutlierPath} {id : Nat} {p seen : OutlierPath}
    (found : paths.get? id = some p) (up : seen.up = p.up) (link : seen.link = p.link)
    (rtt : seen.classRtt = p.classRtt) : Alike paths (paths.insert id seen) := by
  intro other q located
  by_cases same : other = id
  · subst same
    obtain rfl := Option.some.inj (found.symm.trans located)
    exact ⟨seen, OrdMap.get?_insert_self .., up, link, rtt⟩
  · exact ⟨q, (OrdMap.get?_insert_of_ne _ _ same).trans located, rfl, rfl, rfl⟩

theorem Spared.look (spared : Spared s) (dominates : ∀ rtt, rtt ≤ cfg.backupBound rtt)
    {aged marked later : Nat} (taken : s.look cfg hold aged marked later = some next) :
    Spared next := by
  unfold Recycler.look at taken
  split at taken
  · rename_i listed id todo recycle phase
    split at taken
    · split at taken
      · cases taken
        intro listed' todo' recycle' same other membership
        cases same
        exact spared _ _ _ phase other membership
      · rename_i p found
        cases taken
        have alike : Alike s.paths (s.paths.insert id
            (if (s.lookAt cfg hold listed id p aged marked later).outlying cfg hold then
              p.markOutlier marked else p.clearOutlier)) := by
          split
          · exact alike_insert found rfl rfl rfl
          · exact alike_insert found rfl rfl rfl
        intro listed' todo' recycle' same other membership
        cases same
        refine Beaten.alike ?_ alike
        split at membership
        · rename_i recycled
          rcases List.mem_append.mp membership with earlier | last
          · exact spared _ _ _ phase other earlier
          · rw [List.mem_singleton.mp last]
            exact beaten_of_recycled dominates found recycled
        · exact spared _ _ _ phase other membership
    · cases taken
  · cases taken

theorem spared_of_reachable (dominates : ∀ rtt, rtt ≤ cfg.backupBound rtt)
    (reachable : (machine cfg hold).ReachableWhen Undisturbed s) : Spared s := by
  have idle : ∀ {s : Recycler}, s.phase = .idle → Spared s := by
    intro s phase listed todo recycle same
    rw [phase] at same
    cases same
  refine reachable.invariant_of Spared (fun _ earlier => timed_of_reachable earlier.reachable) ?_ ?_
  · intro s begins
    subst begins
    exact idle rfl
  · intro s action next timed spared allowed taken
    cases action with
    | elapse time =>
        cases taken
        exact spared
    | join link stableUpHold =>
        cases taken
        have alike : Alike s.paths
            (s.paths.insert s.nextPathId (.start link stableUpHold s.clock)) := by
          intro id p found
          have old : id ≠ s.nextPathId := Nat.ne_of_lt (timed.fresh id p found)
          exact ⟨p, (OrdMap.get?_insert_of_ne _ _ old).trans found, rfl, rfl, rfl⟩
        exact fun listed todo recycle phase id membership =>
          (spared listed todo recycle phase id membership).alike alike
    | setUp id up =>
        cases taken
        exact idle allowed
    | fail id =>
        cases taken
        exact idle allowed
    | recordRtt id sample now later =>
        simp only [machine, step] at taken
        split at taken
        · cases taken
          exact idle allowed
        · cases taken
    | listPaths order =>
        simp only [machine, step] at taken
        split at taken
        · cases taken
          intro listed todo recycle phase id membership
          cases phase
          cases membership
        · cases taken
    | look aged marked later => exact spared.look dominates taken
    | lookedAtAll =>
        simp only [machine, step] at taken
        split at taken
        · cases taken
          intro listed todo recycle phase
          cases phase
        · cases taken
    | recycleNext =>
        simp only [machine, step] at taken
        split at taken
        · cases taken
          intro listed todo recycle phase
          cases phase
        · cases taken
    | finish =>
        simp only [machine, step] at taken
        split at taken
        · cases taken
          exact idle rfl
        · cases taken

/-- When nothing comes between the looks of a pass, the pass does not take the last path of a link:
beside every path it recycles it leaves one of the same link that is up and of a better class. -/
theorem recycling_spares_better (cfg : PickConfig) (hold : Nat)
    (dominates : ∀ rtt, rtt ≤ cfg.backupBound rtt) {s : Recycler}
    (reachable : (machine cfg hold).ReachableWhen Undisturbed s) {listed recycle : List Nat}
    (phase : s.phase = .looking listed [] recycle) {id : Nat} (recycled : id ∈ recycle) :
    ∃ p other q, s.paths.get? id = some p ∧ other ∈ listed ∧ other ∉ recycle ∧
      s.paths.get? other = some q ∧ q.up = true ∧ q.link = p.link ∧ q.classRtt < p.classRtt := by
  have spared := spared_of_reachable dominates reachable listed [] recycle phase
  obtain ⟨p, found⟩ : ∃ p, s.paths.get? id = some p := by
    obtain ⟨p, _, _, found, _⟩ := spared id recycled
    exact ⟨p, found⟩
  generalize rank : p.classRtt = n
  -- among the recycled paths of the link the one of the best class is beaten by one that is kept
  induction n using Nat.strongRecOn generalizing id p with
  | ind n inductionHypothesis =>
      obtain ⟨p', other, q, found', membership, sibling, up, link, better⟩ := spared id recycled
      obtain rfl := Option.some.inj (found.symm.trans found')
      by_cases also : other ∈ recycle
      · obtain ⟨q', kept, r, sibling', listed, spare, located, alive, same, below⟩ :=
          inductionHypothesis q.classRtt (rank ▸ better) also q sibling rfl
        obtain rfl := Option.some.inj (sibling.symm.trans sibling')
        exact ⟨p, kept, r, found, listed, spare, located, alive, same.trans link, by omega⟩
      · exact ⟨p, other, q, found, membership, also, sibling, up, link, better⟩

theorem recycling_spares_better_slowPath :
    ∃ s : Recycler, (machine .standard 50).runWhen Undisturbed new slowPath = some s ∧
      ∃ p other q, s.paths.get? 1 = some p ∧ other ∈ [2, 1] ∧ other ∉ [1] ∧
        s.paths.get? other = some q ∧ q.up = true ∧ q.link = p.link ∧ q.classRtt < p.classRtt := by
  have ended : ((machine .standard 50).runWhen Undisturbed new slowPath).map Recycler.phase =
      some (.looking [2, 1] [] [1]) := by decide +kernel
  obtain ⟨s, ran, phase⟩ := Option.map_eq_some_iff.mp ended
  have reachable : (machine .standard 50).ReachableWhen Undisturbed s :=
    Machine.ReachableWhen.runWhen (.start rfl) ran
  refine ⟨s, ran, recycling_spares_better .standard 50 (fun rtt => ?_) reachable phase
    (List.mem_singleton.mpr rfl)⟩
  show rtt ≤ rtt * 2 + 20000
  omega

end Recycler

end NyaLink
