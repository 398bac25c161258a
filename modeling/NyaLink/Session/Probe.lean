import NyaLink.Session.ClassRtt
import NyaLink.Session.Budget

/-!
# Probing a path

The writer registers a ping before it sends it, the reader takes its start out of the
register when the echo arrives, and maintenance sets overdue pings aside.  The writer, the
reader and maintenance run as tasks of their own, each lock hold being one step, and one call
of `record_rtt`.  The ACKs of small pieces feed the same estimates.  `sent`, `samples` and
`acked` are history.
-/

namespace NyaLink

/-- `Tuning::STANDARD.pending_ping_max`. -/
def pendingPingMax : Nat := 32

/-- The pings in flight and the overdue ones, with the instant each was sent. -/
structure PingBook where
  pingSeq : Nat
  pending : OrdMap Nat Nat
  late : OrdMap Nat Nat
  deriving DecidableEq

namespace PingBook

def new : PingBook := ⟨1, .empty, .empty⟩

def oldestLate (b : PingBook) : Option Nat :=
  (b.late.entries.argmin Prod.snd).map Prod.fst

/-- The loop of `next_ping`, which can turn once for each overdue ping. -/
def evictLate (cap : Nat) : Nat → PingBook → PingBook
  | 0, b => b
  | fuel + 1, b =>
      if b.pending.size + b.late.size < cap then b
      else
        match b.oldestLate with
        | none => b
        | some seq => evictLate cap fuel { b with late := b.late.erase seq }

def nextPing (b : PingBook) (now : Nat) : PingBook :=
  let kept := evictLate pendingPingMax b.late.size b
  { kept with pingSeq := b.pingSeq + 1, pending := kept.pending.insert b.pingSeq now }

def stale (b : PingBook) (maxAge now : Nat) : OrdMap Nat Nat :=
  b.pending.filter fun _ sent => decide (maxAge ≤ now - sent)

def expireStalePings (b : PingBook) (maxAge now : Nat) : PingBook :=
  { b with
    pending := b.pending.filter fun _ sent => !decide (maxAge ≤ now - sent)
    late := (b.stale maxAge now).entries.foldl
      (fun late entry => late.insert entry.1 entry.2) b.late }

def dropAncientPings (b : PingBook) (maxAge now : Nat) : PingBook :=
  { b with
    pending := b.pending.filter fun _ sent => decide (now - sent < maxAge)
    late := b.late.filter fun _ sent => decide (now - sent < maxAge) }

def pendingPingAge (b : PingBook) (now : Nat) : Option Nat :=
  (b.pending.entries.map fun entry => now - entry.2).max?

end PingBook

/-- Two readings of a clock: when it was started, and what `elapsed` is taken against. -/
structure Reading where
  now : Nat
  later : Nat
  deriving DecidableEq, Repr

/-- The estimators of a path's round-trip time.  Zero is unknown. -/
structure RttClocks where
  fast : Nat
  stable : Nat
  highSince : Option Nat
  loop : MinMax3
  cls : ClassRtt
  deriving DecidableEq, Repr

namespace RttClocks

def new (stableUpHold : Nat) : RttClocks := ⟨0, 0, none, .new, .new stableUpHold⟩

def nextFast (c : RttClocks) (sample : Nat) : Nat :=
  if c.fast = 0 then sample else (c.fast * 8 + sample * 2) / 10

/-- The estimate timeouts go by: quick to fall, slow to rise. -/
def recordStable (c : RttClocks) (sample fast : Nat) (clock : Reading) : RttClocks :=
  if c.stable = 0 then { c with stable := sample }
  else if sample < c.stable then
    { c with stable := (c.stable * 3 + sample) / 4, highSince := none }
  else if !ClassRtt.raises c.stable fast then { c with highSince := none }
  else
    let start := c.highSince.getD clock.now
    { c with
      highSince := some start
      stable := if c.cls.stableUpHold ≤ clock.later - start then (c.stable * 7 + fast) / 8
        else c.stable }

/-- `record_rtt`: the loop floor, then the three estimates. -/
def recordRtt (c : RttClocks) (sample mono : Nat) (stableClock classClock : Reading) : RttClocks :=
  let fast := c.nextFast sample
  let settled := { c with
    loop := c.loop.updateMin (max sample 1) (max mono 1) minRttWinUs
    fast := fast }.recordStable sample fast stableClock
  { settled with
    cls := (settled.cls.updateClass ⟨fast, classClock.now, classClock.later⟩).1 }

def rttKnown (c : RttClocks) : Bool := c.fast != 0

end RttClocks

/-- A pong the reader handles: whether it may be recorded, and the largest sample accepted. -/
structure PongCall where
  seq : Nat
  record : Bool
  cap : Option Nat
  allowLate : Bool
  deriving DecidableEq, Repr

/-- Where the reader is in `on_pong_record`. -/
inductive PongPhase where
  | missed (call : PongCall)
  | started (call : PongCall) (sent : Nat)
  deriving DecidableEq, Repr

/-- A recorded sample, with the two instants it is the distance of. -/
structure PongSample where
  seq : Nat
  sentAt : Nat
  takenAt : Nat
  deriving DecidableEq, Repr

def PongSample.rtt (sample : PongSample) : Nat := sample.takenAt - sample.sentAt

structure Probe where
  now : Nat
  alive : Bool
  lastRx : Nat
  /-- `next_ping` of the writer. -/
  nextPing : Nat
  writing : Bool
  book : PingBook
  reader : Option PongPhase
  clocks : RttClocks
  sent : List (Nat × Nat)
  samples : List PongSample
  acked : List Nat
  deriving DecidableEq

inductive ProbeAction where
  | elapse (time : Nat)
  | touchRx
  /-- The timer of the writer finds a ping due. -/
  | ping (pingEvery : Nat)
  | pinged (pingEvery : Nat)
  | pong (seq : Nat) (record : Bool) (cap : Option Nat)
  | lookLate
  | takeSample (mono : Nat) (stableClock classClock : Reading)
  /-- `release_piece` records how long a small piece took; whatever its tests let through. -/
  | ackSample (sample mono : Nat) (stableClock classClock : Reading)
  | expire (maxAge : Nat)
  | dropAncient (maxAge : Nat)
  | pathFailed
  deriving DecidableEq

namespace Probe

def shouldSendPing (s : Probe) (pingEvery : Nat) : Bool :=
  s.alive && s.book.pending.size == 0 && decide (pingEvery ≤ s.now - s.lastRx)

/-- `ping_due` of the writer. -/
def pingDue (s : Probe) (pingEvery : Nat) : Bool :=
  decide (s.nextPing ≤ s.now) && s.shouldSendPing pingEvery

/-- What follows the removal of a ping: nothing when it may not be recorded. -/
def found (s : Probe) (call : PongCall) (sent : Nat) : Probe :=
  { s with reader := if call.record then some (.started call sent) else none }

def pong (s : Probe) (call : PongCall) : Probe :=
  match s.book.pending.get? call.seq with
  | some sent =>
      { s with book := { s.book with pending := s.book.pending.erase call.seq } }.found call sent
  | none => { s with reader := some (.missed call) }

def lookLate (s : Probe) (call : PongCall) : Probe :=
  match s.book.late.get? call.seq with
  | none => { s with reader := none }
  | some sent =>
      let cleared := { s with book := { s.book with late := s.book.late.erase call.seq } }
      if call.allowLate then cleared.found call sent else { cleared with reader := none }

def takeSample (s : Probe) (call : PongCall) (sent mono : Nat) (stableClock classClock : Reading) :
    Probe :=
  if call.cap.any fun cap => decide (cap < s.now - sent) then { s with reader := none }
  else
    { s with
      reader := none
      clocks := s.clocks.recordRtt (s.now - sent) mono stableClock classClock
      samples := ⟨call.seq, sent, s.now⟩ :: s.samples }

def step (s : Probe) : ProbeAction → Option Probe
  | .elapse time => some { s with now := s.now + time }
  | .touchRx => some { s with lastRx := s.now }
  | .ping pingEvery =>
      if !s.writing && s.pingDue pingEvery then
        some { s with
          writing := true
          book := s.book.nextPing s.now
          sent := (s.book.pingSeq, s.now) :: s.sent }
      else none
  | .pinged pingEvery =>
      if s.writing then some { s with writing := false, nextPing := s.now + pingEvery } else none
  | .pong seq record cap =>
      if s.reader.isNone then some (s.pong ⟨seq, record, cap, !s.clocks.rttKnown⟩) else none
  | .lookLate =>
      match s.reader with
      | some (.missed call) => some (s.lookLate call)
      | _ => none
  | .takeSample mono stableClock classClock =>
      match s.reader with
      | some (.started call sent) => some (s.takeSample call sent mono stableClock classClock)
      | _ => none
  | .ackSample sample mono stableClock classClock =>
      some { s with
        clocks := s.clocks.recordRtt sample mono stableClock classClock
        acked := sample :: s.acked }
  | .expire maxAge => some { s with book := s.book.expireStalePings maxAge s.now }
  | .dropAncient maxAge => some { s with book := s.book.dropAncientPings maxAge s.now }
  | .pathFailed => some { s with alive := false }

def Initial (s : Probe) : Prop :=
  ∃ now stableUpHold, s = ⟨now, true, now, now, false, .new, none, .new stableUpHold, [], [], []⟩

def machine : Machine Probe ProbeAction := ⟨Initial, step⟩

end Probe

namespace PingBook

/-! ## The register -/

variable {b : PingBook}

/-- The register knows when this ping was sent. -/
def Holds (b : PingBook) (seq sent : Nat) : Prop :=
  b.pending.get? seq = some sent ∨ b.late.get? seq = some sent

structure Fits (b : PingBook) : Prop where
  one : b.pending.size ≤ 1
  total : b.pending.size + b.late.size ≤ pendingPingMax
  disjoint : ∀ seq, b.pending.get? seq = none ∨ b.late.get? seq = none
  below : ∀ seq sent, b.Holds seq sent → seq < b.pingSeq

theorem get?_filter_some {keep : Nat → Nat → Bool} {pings : OrdMap Nat Nat} {seq sent : Nat}
    (found : (pings.filter keep).get? seq = some sent) : pings.get? seq = some sent :=
  (OrdMap.get?_filter_eq_some_iff.mp found).1

theorem get?_filter_none {keep : Nat → Nat → Bool} {pings : OrdMap Nat Nat} {seq : Nat}
    (missing : pings.get? seq = none) : (pings.filter keep).get? seq = none := by
  cases found : (pings.filter keep).get? seq with
  | none => rfl
  | some sent => rw [get?_filter_some found] at missing; cases missing

theorem size_filter_le (keep : Nat → Nat → Bool) (pings : OrdMap Nat Nat) :
    (pings.filter keep).size ≤ pings.size := List.length_filter_le _ _

/-! ### Making room -/

/-- What `evictLate` leaves. -/
structure Evicted (cap : Nat) (b kept : PingBook) : Prop where
  pending : kept.pending = b.pending
  late : ∀ seq sent, kept.late.get? seq = some sent → b.late.get? seq = some sent
  fewer : kept.late.size ≤ b.late.size
  room : kept.pending.size + kept.late.size < cap ∨ kept.late.size = 0

theorem oldestLate_mem {seq : Nat} (oldest : b.oldestLate = some seq) :
    ∃ sent, b.late.get? seq = some sent := by
  obtain ⟨entry, least, rfl⟩ := Option.map_eq_some_iff.mp oldest
  exact ⟨entry.2, OrdMap.get?_eq_some_iff.mpr (List.argmin_mem least)⟩

theorem evicted (cap fuel : Nat) (enough : b.late.size ≤ fuel) :
    Evicted cap b (evictLate cap fuel b) := by
  induction fuel generalizing b with
  | zero => exact ⟨rfl, fun _ _ found => found, le_rfl, .inr (Nat.le_zero.mp enough)⟩
  | succ fuel inductionHypothesis =>
      unfold evictLate
      split
      · rename_i room
        exact ⟨rfl, fun _ _ found => found, le_rfl, .inl room⟩
      · cases oldest : b.oldestLate with
        | none =>
            have empty : b.late.entries = [] := by
              have least := Option.map_eq_none_iff.mp oldest
              exact List.argmin_eq_none.mp least
            exact ⟨rfl, fun _ _ found => found, le_rfl, .inr (congrArg List.length empty)⟩
        | some seq =>
            obtain ⟨sent, found⟩ := oldestLate_mem oldest
            have erased := OrdMap.size_erase_of_some found
            have rest := @inductionHypothesis { b with late := b.late.erase seq }
              (by simp only; omega)
            refine ⟨rest.pending, fun other time kept => ?_, ?_, rest.room⟩
            · exact (OrdMap.get?_erase_eq_some_iff.mp (rest.late other time kept)).2
            · exact rest.fewer.trans (OrdMap.size_erase_le b.late seq)

theorem Fits.nextPing (fits : b.Fits) (idle : b.pending.size = 0) (now : Nat) :
    (b.nextPing now).Fits ∧ ∀ seq sent, (b.nextPing now).Holds seq sent →
      seq = b.pingSeq ∧ sent = now ∨ b.Holds seq sent := by
  have kept := evicted pendingPingMax b.late.size (le_refl b.late.size)
  have none : ∀ seq, b.pending.get? seq = none := by
    intro seq
    cases found : b.pending.get? seq with
    | none => rfl
    | some sent =>
        have positive := OrdMap.size_pos_of_some found
        omega
  have holds : ∀ seq sent, (b.nextPing now).Holds seq sent →
      seq = b.pingSeq ∧ sent = now ∨ b.Holds seq sent := by
    rintro seq sent (pending | late)
    · rcases OrdMap.get?_insert_cases pending with fresh | earlier
      · exact .inl fresh
      · rw [kept.pending, none] at earlier
        cases earlier
    · exact .inr (.inr (kept.late seq sent late))
  refine ⟨⟨?_, ?_, fun seq => ?_, fun seq sent held => ?_⟩, holds⟩
  · change ((evictLate pendingPingMax b.late.size b).pending.insert b.pingSeq now).size ≤ 1
    rw [kept.pending]
    exact (OrdMap.size_insert_le b.pending b.pingSeq now).trans (by rw [idle])
  · change ((evictLate pendingPingMax b.late.size b).pending.insert b.pingSeq now).size +
      (evictLate pendingPingMax b.late.size b).late.size ≤ pendingPingMax
    have grown := OrdMap.size_insert_le b.pending b.pingSeq now
    have room := kept.room
    have positive : 1 ≤ pendingPingMax := by decide
    rw [kept.pending] at room ⊢
    omega
  · by_cases fresh : seq = b.pingSeq
    · right
      cases found : (evictLate pendingPingMax b.late.size b).late.get? seq with
      | none => exact found
      | some sent =>
          have below := fits.below seq sent (.inr (kept.late seq sent found))
          omega
    · left
      change ((evictLate pendingPingMax b.late.size b).pending.insert b.pingSeq now).get? seq = _
      rw [OrdMap.get?_insert_of_ne _ _ fresh, kept.pending]
      exact none seq
  · change seq < b.pingSeq + 1
    rcases holds seq sent held with ⟨rfl, -⟩ | earlier
    · exact Nat.lt_succ_self _
    · exact Nat.lt_succ_of_lt (fits.below seq sent earlier)

/-! ### Setting aside -/

theorem get?_foldl_insert {entries : List (Nat × Nat)} {late : OrdMap Nat Nat} {seq sent : Nat}
    (found : (entries.foldl (fun late entry => late.insert entry.1 entry.2) late).get? seq =
      some sent) : (seq, sent) ∈ entries ∨ late.get? seq = some sent := by
  induction entries generalizing late with
  | nil => exact .inr found
  | cons entry rest inductionHypothesis =>
      rcases inductionHypothesis found with later | before
      · exact .inl (List.mem_cons_of_mem _ later)
      · rcases OrdMap.get?_insert_cases before with ⟨same, value⟩ | earlier
        · exact .inl (by rw [same, value]; exact List.mem_cons_self)
        · exact .inr earlier

theorem size_foldl_insert_le (entries : List (Nat × Nat)) (late : OrdMap Nat Nat) :
    (entries.foldl (fun late entry => late.insert entry.1 entry.2) late).size ≤
      late.size + entries.length := by
  induction entries generalizing late with
  | nil => exact le_rfl
  | cons entry rest inductionHypothesis =>
      have grown := OrdMap.size_insert_le late entry.1 entry.2
      have later := inductionHypothesis (late.insert entry.1 entry.2)
      simp only [List.foldl_cons, List.length_cons]
      omega

theorem Fits.expireStalePings (fits : b.Fits) (maxAge now : Nat) :
    (b.expireStalePings maxAge now).Fits ∧
      ∀ seq sent, (b.expireStalePings maxAge now).Holds seq sent → b.Holds seq sent := by
  have holds : ∀ seq sent, (b.expireStalePings maxAge now).Holds seq sent → b.Holds seq sent := by
    rintro seq sent (pending | late)
    · exact .inl (get?_filter_some pending)
    · rcases get?_foldl_insert late with moved | before
      · exact .inl (get?_filter_some (OrdMap.get?_eq_some_iff.mpr moved))
      · exact .inr before
  refine ⟨⟨(size_filter_le _ _).trans fits.one, ?_, fun seq => ?_,
    fun seq sent held => fits.below seq sent (holds seq sent held)⟩, holds⟩
  · have split := OrdMap.total_filter_add (fun _ _ => 1)
      (fun _ sent => decide (maxAge ≤ now - sent)) b.pending
    have moved := size_foldl_insert_le (b.stale maxAge now).entries b.late
    have total := fits.total
    simp only [← OrdMap.size_eq_total] at split
    change (b.pending.filter _).size + (((b.stale maxAge now).entries.foldl _ b.late).size) ≤ _
    change (b.stale maxAge now).size + _ = _ at split
    have moved : _ ≤ b.late.size + (b.stale maxAge now).size := moved
    omega
  · cases pending : (b.expireStalePings maxAge now).pending.get? seq with
    | none => exact .inl rfl
    | some sent =>
        right
        obtain ⟨before, young⟩ := OrdMap.get?_filter_eq_some_iff.mp pending
        cases late : (b.expireStalePings maxAge now).late.get? seq with
        | none => rfl
        | some other =>
            rcases get?_foldl_insert late with moved | earlier
            · obtain ⟨held, old⟩ := OrdMap.get?_filter_eq_some_iff.mp
                (OrdMap.get?_eq_some_iff.mpr moved)
              obtain rfl := Option.some.inj (before.symm.trans held)
              rw [old] at young
              cases young
            · rcases fits.disjoint seq with missing | missing
              · rw [missing] at before
                cases before
              · rw [missing] at earlier
                cases earlier

theorem Fits.dropAncientPings (fits : b.Fits) (maxAge now : Nat) :
    (b.dropAncientPings maxAge now).Fits ∧
      ∀ seq sent, (b.dropAncientPings maxAge now).Holds seq sent → b.Holds seq sent := by
  have holds : ∀ seq sent, (b.dropAncientPings maxAge now).Holds seq sent → b.Holds seq sent := by
    rintro seq sent (pending | late)
    · exact .inl (get?_filter_some pending)
    · exact .inr (get?_filter_some late)
  refine ⟨⟨(size_filter_le _ _).trans fits.one, ?_, fun seq => ?_,
    fun seq sent held => fits.below seq sent (holds seq sent held)⟩, holds⟩
  · exact (Nat.add_le_add (size_filter_le _ _) (size_filter_le _ _)).trans fits.total
  · exact (fits.disjoint seq).imp get?_filter_none get?_filter_none

theorem Fits.erasePending (fits : b.Fits) {seq sent : Nat}
    (found : b.pending.get? seq = some sent) :
    Fits { b with pending := b.pending.erase seq } ∧
      ∀ other time, Holds { b with pending := b.pending.erase seq } other time →
        other ≠ seq ∧ b.Holds other time := by
  have holds : ∀ other time, Holds { b with pending := b.pending.erase seq } other time →
      other ≠ seq ∧ b.Holds other time := by
    rintro other time (pending | late)
    · obtain ⟨different, before⟩ := OrdMap.get?_erase_eq_some_iff.mp pending
      exact ⟨different, .inl before⟩
    · refine ⟨?_, .inr late⟩
      rintro rfl
      rcases fits.disjoint other with missing | missing
      · rw [missing] at found
        cases found
      · rw [missing] at late
        cases late
  have fewer := OrdMap.size_erase_le b.pending seq
  refine ⟨⟨fewer.trans fits.one, (Nat.add_le_add_right fewer _).trans fits.total, fun other => ?_,
    fun other time held => fits.below other time (holds other time held).2⟩, holds⟩
  exact (fits.disjoint other).imp get?_filter_none id

theorem Fits.eraseLate (fits : b.Fits) {seq sent : Nat} (found : b.late.get? seq = some sent) :
    Fits { b with late := b.late.erase seq } ∧
      ∀ other time, Holds { b with late := b.late.erase seq } other time →
        other ≠ seq ∧ b.Holds other time := by
  have holds : ∀ other time, Holds { b with late := b.late.erase seq } other time →
      other ≠ seq ∧ b.Holds other time := by
    rintro other time (pending | late)
    · refine ⟨?_, .inl pending⟩
      rintro rfl
      rcases fits.disjoint other with missing | missing
      · rw [missing] at pending
        cases pending
      · rw [missing] at found
        cases found
    · obtain ⟨different, before⟩ := OrdMap.get?_erase_eq_some_iff.mp late
      exact ⟨different, .inr before⟩
  have fewer := OrdMap.size_erase_le b.late seq
  refine ⟨⟨fits.one, (Nat.add_le_add_left fewer _).trans fits.total, fun other => ?_,
    fun other time held => fits.below other time (holds other time held).2⟩, holds⟩
  exact (fits.disjoint other).imp id get?_filter_none

end PingBook

namespace Probe

/-! ## The protocol -/

variable {s next : Probe}

/-- A sequence number whose sample has been taken or is about to be. -/
def Spent (s : Probe) (seq : Nat) : Prop :=
  (∃ sample ∈ s.samples, sample.seq = seq) ∨
    ∃ call sent, s.reader = some (.started call sent) ∧ call.seq = seq

structure Sound (s : Probe) : Prop where
  fits : s.book.Fits
  registered : ∀ seq sent, s.book.Holds seq sent → (seq, sent) ∈ s.sent
  sentBefore : ∀ ping ∈ s.sent, ping.1 < s.book.pingSeq ∧ ping.2 ≤ s.now
  sentOnce : (s.sent.map Prod.fst).Nodup
  unspent : ∀ seq sent, s.book.Holds seq sent → ¬s.Spent seq
  reading : ∀ call sent, s.reader = some (.started call sent) → (call.seq, sent) ∈ s.sent ∧
    ∀ sample ∈ s.samples, sample.seq ≠ call.seq
  sampledOnce : (s.samples.map PongSample.seq).Nodup
  sampled : ∀ sample ∈ s.samples, (sample.seq, sample.sentAt) ∈ s.sent ∧
    sample.sentAt ≤ sample.takenAt ∧ sample.takenAt ≤ s.now

theorem Sound.keep (sound : Sound s) {book : PingBook} (fits : book.Fits)
    (seqs : book.pingSeq = s.book.pingSeq)
    (kept : ∀ seq sent, book.Holds seq sent → s.book.Holds seq sent) :
    Sound { s with book := book } :=
  ⟨fits, fun seq sent held => sound.registered seq sent (kept seq sent held),
    fun ping present => seqs ▸ sound.sentBefore ping present, sound.sentOnce,
    fun seq sent held => sound.unspent seq sent (kept seq sent held), sound.reading,
    sound.sampledOnce, sound.sampled⟩

theorem Sound.idle (sound : Sound s) : Sound { s with reader := none } :=
  ⟨sound.fits, sound.registered, sound.sentBefore, sound.sentOnce,
    fun seq sent held spent => sound.unspent seq sent held (by
      rcases spent with taken | ⟨_, _, impossible, _⟩
      · exact .inl taken
      · cases impossible),
    fun _ _ impossible => (by cases impossible), sound.sampledOnce, sound.sampled⟩

theorem Sound.found (sound : Sound s) {book : PingBook} {call : PongCall} {sent : Nat}
    (fits : book.Fits) (seqs : book.pingSeq = s.book.pingSeq) (held : s.book.Holds call.seq sent)
    (kept : ∀ seq time, book.Holds seq time → seq ≠ call.seq ∧ s.book.Holds seq time) :
    Sound ({ s with book := book }.found call sent) := by
  have smaller := sound.keep fits seqs fun seq time stays => (kept seq time stays).2
  unfold Probe.found
  split
  · refine ⟨smaller.fits, smaller.registered, smaller.sentBefore, smaller.sentOnce, ?_, ?_,
      smaller.sampledOnce, smaller.sampled⟩
    · rintro seq time stays (taken | ⟨_, _, reading, same⟩)
      · exact smaller.unspent seq time stays (.inl taken)
      · cases reading
        exact (kept seq time stays).1 same.symm
    · rintro _ _ reading
      cases reading
      exact ⟨sound.registered _ _ held, fun sample present same =>
        sound.unspent _ _ held (.inl ⟨sample, present, same⟩)⟩
  · exact smaller.idle

theorem Sound.pong (sound : Sound s) (call : PongCall) : Sound (s.pong call) := by
  unfold Probe.pong
  split
  · rename_i sent pending
    obtain ⟨fits, kept⟩ := sound.fits.erasePending pending
    exact sound.found fits rfl (.inl pending) kept
  · refine ⟨sound.fits, sound.registered, sound.sentBefore, sound.sentOnce, ?_, ?_,
      sound.sampledOnce, sound.sampled⟩
    · rintro seq sent held (taken | ⟨_, _, reading, -⟩)
      · exact sound.unspent seq sent held (.inl taken)
      · cases reading
    · rintro _ _ reading
      cases reading

theorem Sound.lookLate (sound : Sound s) (call : PongCall) : Sound (s.lookLate call) := by
  unfold Probe.lookLate
  split
  · exact sound.idle
  · rename_i sent late
    obtain ⟨fits, kept⟩ := sound.fits.eraseLate late
    dsimp only
    split
    · exact sound.found fits rfl (.inr late) kept
    · exact (sound.keep fits rfl fun seq time held => (kept seq time held).2).idle

theorem Sound.takeSample (sound : Sound s) {call : PongCall} {sent : Nat}
    (reading : s.reader = some (.started call sent)) (mono : Nat)
    (stableClock classClock : Reading) :
    Sound (s.takeSample call sent mono stableClock classClock) := by
  obtain ⟨wasSent, fresh⟩ := sound.reading call sent reading
  unfold Probe.takeSample
  split
  · exact sound.idle
  · refine ⟨sound.fits, sound.registered, sound.sentBefore, sound.sentOnce, ?_, ?_, ?_, ?_⟩
    · rintro seq time held (⟨sample, present, same⟩ | ⟨_, _, impossible, -⟩)
      · rcases List.mem_cons.mp present with rfl | earlier
        · exact sound.unspent seq time held (.inr ⟨call, sent, reading, same⟩)
        · exact sound.unspent seq time held (.inl ⟨sample, earlier, same⟩)
      · cases impossible
    · rintro _ _ impossible
      cases impossible
    · refine List.nodup_cons.mpr ⟨fun repeated => ?_, sound.sampledOnce⟩
      obtain ⟨sample, present, same⟩ := List.mem_map.mp repeated
      exact fresh sample present same
    · intro sample present
      rcases List.mem_cons.mp present with rfl | earlier
      · exact ⟨wasSent, (sound.sentBefore _ wasSent).2, le_rfl⟩
      · exact sound.sampled sample earlier

theorem Sound.ping (sound : Sound s) (idle : s.book.pending.size = 0) :
    Sound { s with
      writing := true
      book := s.book.nextPing s.now
      sent := (s.book.pingSeq, s.now) :: s.sent } := by
  obtain ⟨fits, held⟩ := sound.fits.nextPing idle s.now
  have unsent : ∀ sent, (s.book.pingSeq, sent) ∉ s.sent := fun sent present =>
    Nat.lt_irrefl _ (sound.sentBefore _ present).1
  refine ⟨fits, fun seq sent holds => ?_, fun ping present => ?_, ?_, ?_, ?_, sound.sampledOnce, ?_⟩
  · rcases held seq sent holds with ⟨rfl, rfl⟩ | earlier
    · exact List.mem_cons_self
    · exact List.mem_cons_of_mem _ (sound.registered seq sent earlier)
  · change ping.1 < s.book.pingSeq + 1 ∧ ping.2 ≤ s.now
    rcases List.mem_cons.mp present with rfl | earlier
    · exact ⟨Nat.lt_succ_self _, le_rfl⟩
    · obtain ⟨below, before⟩ := sound.sentBefore ping earlier
      exact ⟨Nat.lt_succ_of_lt below, before⟩
  · refine List.nodup_cons.mpr ⟨fun repeated => ?_, sound.sentOnce⟩
    obtain ⟨⟨_, sent⟩, present, rfl⟩ := List.mem_map.mp repeated
    exact unsent sent present
  · intro seq sent holds spent
    rcases held seq sent holds with ⟨rfl, rfl⟩ | earlier
    · rcases spent with ⟨sample, present, same⟩ | ⟨call, time, reading, same⟩
      · exact unsent _ (same ▸ (sound.sampled sample present).1)
      · exact unsent _ (same ▸ (sound.reading call time reading).1)
    · exact sound.unspent seq sent earlier spent
  · intro call sent reading
    obtain ⟨present, fresh⟩ := sound.reading call sent reading
    exact ⟨List.mem_cons_of_mem _ present, fresh⟩
  · intro sample present
    obtain ⟨wasSent, ordered⟩ := sound.sampled sample present
    exact ⟨List.mem_cons_of_mem _ wasSent, ordered⟩

theorem Sound.elapse (sound : Sound s) (time : Nat) : Sound { s with now := s.now + time } :=
  ⟨sound.fits, sound.registered,
    fun ping present => ⟨(sound.sentBefore ping present).1,
      Nat.le_add_right_of_le (sound.sentBefore ping present).2⟩, sound.sentOnce, sound.unspent,
    sound.reading, sound.sampledOnce, fun sample present =>
      have ⟨wasSent, ordered, past⟩ := sound.sampled sample present
      ⟨wasSent, ordered, Nat.le_add_right_of_le past⟩⟩

theorem Sound.step (sound : Sound s) {action : ProbeAction} (taken : s.step action = some next) :
    Sound next := by
  cases action with
  | elapse time =>
      cases taken
      exact sound.elapse time
  | touchRx =>
      cases taken
      exact ⟨sound.fits, sound.registered, sound.sentBefore, sound.sentOnce, sound.unspent,
        sound.reading, sound.sampledOnce, sound.sampled⟩
  | ping pingEvery =>
      simp only [Probe.step] at taken
      split at taken
      · rename_i due
        cases taken
        simp only [pingDue, shouldSendPing, Bool.and_eq_true, beq_iff_eq] at due
        exact sound.ping due.2.2.1.2
      · cases taken
  | pinged pingEvery =>
      simp only [Probe.step] at taken
      split at taken
      · cases taken
        exact ⟨sound.fits, sound.registered, sound.sentBefore, sound.sentOnce, sound.unspent,
          sound.reading, sound.sampledOnce, sound.sampled⟩
      · cases taken
  | pong seq record cap =>
      simp only [Probe.step] at taken
      split at taken
      · cases taken
        exact sound.pong _
      · cases taken
  | lookLate =>
      simp only [Probe.step] at taken
      split at taken
      · cases taken
        exact sound.lookLate _
      · cases taken
  | takeSample mono stableClock classClock =>
      simp only [Probe.step] at taken
      split at taken
      · rename_i reading
        cases taken
        exact sound.takeSample reading mono stableClock classClock
      · cases taken
  | ackSample sample mono stableClock classClock =>
      cases taken
      exact ⟨sound.fits, sound.registered, sound.sentBefore, sound.sentOnce, sound.unspent,
        sound.reading, sound.sampledOnce, sound.sampled⟩
  | expire maxAge =>
      cases taken
      obtain ⟨fits, kept⟩ := sound.fits.expireStalePings maxAge s.now
      exact sound.keep fits rfl kept
  | dropAncient maxAge =>
      cases taken
      obtain ⟨fits, kept⟩ := sound.fits.dropAncientPings maxAge s.now
      exact sound.keep fits rfl kept
  | pathFailed =>
      cases taken
      exact ⟨sound.fits, sound.registered, sound.sentBefore, sound.sentOnce, sound.unspent,
        sound.reading, sound.sampledOnce, sound.sampled⟩

theorem sound_of_reachable (reachable : machine.Reachable s) : Sound s := by
  refine reachable.invariant Sound ?_ fun s action next sound taken => sound.step taken
  rintro _ ⟨now, stableUpHold, rfl⟩
  refine ⟨⟨Nat.zero_le _, Nat.zero_le _, fun _ => .inl rfl, ?_⟩, ?_, ?_, ?_, ?_, ?_, ?_, ?_⟩
  · rintro seq sent (pending | late)
    · cases pending
    · cases late
  · rintro seq sent (pending | late)
    · cases pending
    · cases late
  · simp
  · simp
  · rintro seq sent (pending | late)
    · cases pending
    · cases late
  · rintro _ _ impossible
    cases impossible
  · simp
  · simp

/-- The register is bounded, no ping is sampled twice, and every ping sample is the time that has
passed since this side sent that very ping, whatever the peer echoes and in whatever order
the tasks run. -/
theorem ping_register (reachable : machine.Reachable s) :
    (s.book.pending.size ≤ 1 ∧ s.book.pending.size + s.book.late.size ≤ pendingPingMax) ∧
      (s.samples.map PongSample.seq).Nodup ∧ (s.sent.map Prod.fst).Nodup ∧
      ∀ sample ∈ s.samples, (sample.seq, sample.sentAt) ∈ s.sent ∧
        sample.sentAt ≤ sample.takenAt ∧ sample.takenAt ≤ s.now :=
  have sound := sound_of_reachable reachable
  ⟨⟨sound.fits.one, sound.fits.total⟩, sound.sampledOnce, sound.sentOnce, sound.sampled⟩

def fresh : Probe := ⟨0, true, 0, 0, false, .new, none, .new 10000000, [], [], []⟩

/-- An echo in time, an overdue ping whose echo comes late, and the first echo once more. -/
def lateEcho : List ProbeAction :=
  [.elapse 20000, .ping 10000, .pinged 10000, .elapse 9000, .touchRx, .pong 1 true (some 300000),
    .takeSample 29000 ⟨29000, 29000⟩ ⟨29000, 29000⟩, .elapse 20000, .ping 10000, .pinged 10000,
    .elapse 30000, .expire 20000, .pong 2 true (some 300000), .lookLate,
    .pong 1 true (some 300000), .lookLate]

theorem ping_register_lateEcho :
    ∃ s, machine.run fresh lateEcho = some s ∧ s.samples = [⟨1, 20000, 29000⟩] ∧
      s.sent = [(2, 49000), (1, 20000)] ∧ (s.samples.map PongSample.seq).Nodup := by
  have history : (machine.run fresh lateEcho).map (fun s => (s.samples, s.sent)) =
      some ([⟨1, 20000, 29000⟩], [(2, 49000), (1, 20000)]) := by decide +kernel
  obtain ⟨s, ran, made⟩ := Option.map_eq_some_iff.mp history
  obtain ⟨samples, sent⟩ := Prod.mk.inj made
  have reachable : machine.Reachable s := Machine.Reachable.run (.start ⟨0, 10000000, rfl⟩) ran
  exact ⟨s, ran, samples, sent, (ping_register reachable).2.1⟩

end Probe

/-! ## The estimates -/

namespace RttClocks

variable {c : RttClocks} {low high sample : Nat}

/-- An estimate that is known lies within the range. -/
def Inside (low high estimate : Nat) : Prop := estimate ≠ 0 → low ≤ estimate ∧ estimate ≤ high

structure Within (low high : Nat) (c : RttClocks) : Prop where
  fast : Inside low high c.fast
  stable : Inside low high c.stable
  cls : Inside low high c.cls.rttClassUs

theorem nextFast_within (within : c.Within low high) (above : low ≤ sample)
    (below : sample ≤ high) :
    low ≤ c.nextFast sample ∧ c.nextFast sample ≤ high := by
  unfold nextFast
  split
  · exact ⟨above, below⟩
  · rename_i known
    obtain ⟨least, most⟩ := within.fast known
    omega

theorem recordStable_cls (c : RttClocks) (sample fast : Nat) (clock : Reading) :
    (c.recordStable sample fast clock).cls = c.cls ∧
      (c.recordStable sample fast clock).fast = c.fast := by
  unfold recordStable
  split
  · exact ⟨rfl, rfl⟩
  · split
    · exact ⟨rfl, rfl⟩
    · split <;> exact ⟨rfl, rfl⟩

theorem recordStable_within {fast : Nat} (stable : Inside low high c.stable)
    (above : low ≤ sample) (below : sample ≤ high) (fastAbove : low ≤ fast)
    (fastBelow : fast ≤ high)
    (clock : Reading) : Inside low high (c.recordStable sample fast clock).stable := by
  unfold recordStable
  split
  · exact fun _ => ⟨above, below⟩
  · rename_i known
    obtain ⟨least, most⟩ := stable known
    split
    · intro _
      simp only
      omega
    · split
      · exact stable
      · intro _
        simp only
        split <;> omega

theorem Within.recordRtt (within : c.Within low high) (above : low ≤ sample) (below : sample ≤ high)
    (mono : Nat) (stableClock classClock : Reading) :
    (c.recordRtt sample mono stableClock classClock).Within low high := by
  obtain ⟨fastAbove, fastBelow⟩ := nextFast_within within above below
  let fed : RttClocks := { c with
    loop := c.loop.updateMin (max sample 1) (max mono 1) minRttWinUs
    fast := c.nextFast sample }
  obtain ⟨cls, fast⟩ := fed.recordStable_cls sample (c.nextFast sample) stableClock
  have stable := @recordStable_within fed low high sample _ within.stable above below fastAbove
    fastBelow stableClock
  refine ⟨?_, stable, ?_⟩
  · change Inside low high (fed.recordStable sample (c.nextFast sample) stableClock).fast
    rw [fast]
    exact fun _ => ⟨fastAbove, fastBelow⟩
  · change Inside low high
      ((fed.recordStable sample (c.nextFast sample) stableClock).cls.updateClass
      ⟨c.nextFast sample, classClock.now, classClock.later⟩).1.rttClassUs
    rw [cls]
    have effect := ClassRtt.effect_updateClass c.cls
      ⟨c.nextFast sample, classClock.now, classClock.later⟩
    change Inside low high (c.cls.updateClass _).1.rttClassUs
    generalize c.cls.updateClass ⟨c.nextFast sample, classClock.now, classClock.later⟩ = result
      at effect ⊢
    obtain ⟨after, store⟩ := result
    cases effect with
    | kept same _ _ =>
        rw [same]
        exact within.cls
    | init _ stored _ _ =>
        rw [stored]
        exact fun _ => ⟨fastAbove, fastBelow⟩
    | raise known far stored _ _ =>
        obtain ⟨least, -⟩ := within.cls known
        have bounds := ClassRtt.lt_stepTo far
        rw [stored]
        exact fun _ => ⟨by omega, bounds.2.trans fastBelow⟩
    | drop far stored _ =>
        obtain ⟨-, most⟩ := within.cls (Nat.ne_zero_of_lt far)
        have bounds := ClassRtt.stepTo_lt far
        rw [stored]
        exact fun _ => ⟨fastAbove.trans bounds.1, by omega⟩

end RttClocks

namespace Probe

variable {s next : Probe}

/-- Every RTT the estimates were given. -/
def rtts (s : Probe) : List Nat := s.samples.map PongSample.rtt ++ s.acked

/-- Only a sample changes the estimates. -/
theorem clocks_step {action : ProbeAction} (taken : s.step action = some next) :
    next.clocks = s.clocks ∧ next.rtts = s.rtts ∨
      ∃ rtt mono stableClock classClock, (rtt ∈ next.rtts ∧ ∀ earlier ∈ s.rtts,
        earlier ∈ next.rtts) ∧
        next.clocks = s.clocks.recordRtt rtt mono stableClock classClock := by
  have kept : ∀ {t : Probe}, t.clocks = s.clocks → t.samples = s.samples → t.acked = s.acked →
      t.clocks = s.clocks ∧ t.rtts = s.rtts := by
    intro t clocks samples acked
    exact ⟨clocks, by rw [rtts, rtts, samples, acked]⟩
  cases action with
  | elapse time =>
      cases taken
      exact .inl ⟨rfl, rfl⟩
  | touchRx =>
      cases taken
      exact .inl ⟨rfl, rfl⟩
  | ping pingEvery =>
      simp only [step] at taken
      split at taken
      · cases taken
        exact .inl ⟨rfl, rfl⟩
      · cases taken
  | pinged pingEvery =>
      simp only [step] at taken
      split at taken
      · cases taken
        exact .inl ⟨rfl, rfl⟩
      · cases taken
  | pong seq record cap =>
      simp only [step] at taken
      split at taken
      · cases taken
        unfold pong found
        split
        · exact .inl (kept rfl rfl rfl)
        · exact .inl (kept rfl rfl rfl)
      · cases taken
  | lookLate =>
      simp only [step] at taken
      split at taken
      · cases taken
        unfold lookLate found
        split
        · exact .inl (kept rfl rfl rfl)
        · dsimp only
          split
          · exact .inl (kept rfl rfl rfl)
          · exact .inl (kept rfl rfl rfl)
      · cases taken
  | takeSample mono stableClock classClock =>
      simp only [step] at taken
      split at taken
      · rename_i call sent reading
        cases taken
        unfold takeSample
        split
        · exact .inl (kept rfl rfl rfl)
        · refine .inr ⟨s.now - sent, mono, stableClock, classClock, ⟨?_, ?_⟩, rfl⟩
          · exact List.mem_append_left _ List.mem_cons_self
          · intro earlier present
            exact List.mem_cons_of_mem _ present
      · cases taken
  | ackSample sample mono stableClock classClock =>
      cases taken
      refine .inr ⟨sample, mono, stableClock, classClock, ⟨?_, ?_⟩, rfl⟩
      · exact List.mem_append_right _ List.mem_cons_self
      · intro earlier present
        rcases List.mem_append.mp present with ping | ack
        · exact List.mem_append_left _ ping
        · exact List.mem_append_right _ (List.mem_cons_of_mem _ ack)
  | expire maxAge =>
      cases taken
      exact .inl ⟨rfl, rfl⟩
  | dropAncient maxAge =>
      cases taken
      exact .inl ⟨rfl, rfl⟩
  | pathFailed =>
      cases taken
      exact .inl ⟨rfl, rfl⟩

/-- Each of the three estimates, once known, lies between the least and the greatest RTT that
pings and ACKs gave. -/
theorem rtt_within_samples (reachable : machine.Reachable s) {low high : Nat}
    (range : ∀ rtt ∈ s.rtts, low ≤ rtt ∧ rtt ≤ high) : s.clocks.Within low high := by
  revert range
  refine reachable.invariant (fun s => (∀ rtt ∈ s.rtts, low ≤ rtt ∧ rtt ≤ high) →
    s.clocks.Within low high) ?_ ?_
  · rintro _ ⟨now, stableUpHold, rfl⟩ -
    exact ⟨fun known => absurd rfl known, fun known => absurd rfl known,
      fun known => absurd rfl known⟩
  · intro s action next earlier taken range
    rcases clocks_step taken with ⟨same, rtts⟩ | ⟨rtt, mono, stableClock, classClock, given, fed⟩
    · rw [same]
      exact earlier (rtts ▸ range)
    · obtain ⟨above, below⟩ := range rtt given.1
      rw [fed]
      exact (earlier fun other present => range other (given.2 other present)).recordRtt
        above below mono stableClock classClock

/-- The echo of a ping, and the ACK of a small piece. -/
def echoAndAck : List ProbeAction :=
  lateEcho ++ [.ackSample 12000 90000 ⟨90000, 90000⟩ ⟨90000, 90000⟩]

theorem rtt_within_samples_echoAndAck :
    ∃ s, machine.run fresh echoAndAck = some s ∧ s.rtts = [9000, 12000] ∧ s.clocks.fast = 9600 ∧
      s.clocks.Within 9000 12000 := by
  have history : (machine.run fresh echoAndAck).map (fun s => (s.rtts, s.clocks.fast)) =
      some ([9000, 12000], 9600) := by decide +kernel
  obtain ⟨s, ran, made⟩ := Option.map_eq_some_iff.mp history
  obtain ⟨rtts, fast⟩ := Prod.mk.inj made
  have reachable : machine.Reachable s := Machine.Reachable.run (.start ⟨0, 10000000, rfl⟩) ran
  refine ⟨s, ran, rtts, fast, rtt_within_samples reachable fun rtt present => ?_⟩
  rw [rtts] at present
  rcases List.mem_cons.mp present with rfl | ack
  · decide
  · rw [List.mem_singleton.mp ack]
    decide

end Probe

end NyaLink
