import NyaLink.Session.Scheduler
import NyaLink.Session.Scorecard

/-!
# Opening and accepting streams

A client session that opens each id once and sends its StreamOpen again on other
paths, a server session that accepts, and the copies of StreamOpen between them.
The only test for a duplicate is whether the server's table holds the stream.
Path choice and the clock of a retry are left open, and so is which other frames
arrive.
-/

namespace NyaLink

structure OpenFlight where
  path : Nat
  body : StreamOpen
  deriving DecidableEq, Repr

/-- An entry of the snapshot `retry_opens` and `retry_open_from` work through. -/
structure OpenRetry where
  id : Nat
  source : Nat
  target : Target
  deriving DecidableEq, Repr

/-- `emitted` is history: the ids of the `IncomingStream`s the server gave out. -/
structure Opening where
  client : StreamTable
  server : StreamTable
  retrying : List OpenRetry
  flight : List OpenFlight
  emitted : List Nat
  deriving DecidableEq

inductive OpeningAction where
  | openStream (target : Target) (path : Nat) (sent : Bool)
  /-- Take a snapshot of the entries of `opens` that are due, or on a dead path. -/
  | beginRetry (due : List Nat)
  | retryOpen (index alt : Nat) (sent : Bool)
  | arrive (index : Nat) (inputs : CapInputs) (incoming : Incoming)
  | lose (index : Nat)
  | onClient (action : TableAction)
  | onServer (action : TableAction)
  deriving DecidableEq, Repr

def TableAction.opensStream : TableAction → Bool
  | .openStream _ _ => true
  | .acceptRemoteStream _ _ _ => true
  | _ => false

namespace Opening

def send (s : Opening) (path id : Nat) (target : Target) (sent : Bool) : Opening :=
  if sent then { s with flight := s.flight ++ [⟨path, ⟨id, target⟩⟩] } else s

def openStream (s : Opening) (target : Target) (path : Nat) (sent : Bool) : Option Opening :=
  (s.client.openStream target path).map fun client =>
    { s with client := client }.send path s.client.nextStreamId target sent

def beginRetry (s : Opening) (due : List Nat) : Opening :=
  let snapshot := (s.client.opens.filter fun id _ => decide (id ∈ due)).entries.map
    fun entry => OpenRetry.mk entry.1 entry.2.pathId entry.2.target
  { s with retrying := s.retrying ++ snapshot }

def rememberRetry (client : StreamTable) (due : OpenRetry) (alt : Nat) (sent : Bool) :
    StreamTable :=
  { client with opens := client.opens.modify due.id fun o =>
      if sent then { pathId := alt, target := due.target, tried := pushTried o.tried alt }
      else { o with tried := pushTried o.tried alt } }

def retryOpen (s : Opening) (index alt : Nat) (sent : Bool) : Option Opening :=
  match s.retrying[index]? with
  | none => none
  | some due =>
      some ({ s with
        client := rememberRetry s.client due alt sent
        retrying := s.retrying.eraseIdx index }.send alt due.id due.target sent)

/-- `accept_remote_stream` on the server, for one copy of a StreamOpen. -/
def arrive (s : Opening) (index : Nat) (inputs : CapInputs) (incoming : Incoming) :
    Option Opening :=
  match s.flight[index]? with
  | none => none
  | some copy =>
      let result := s.server.acceptRemoteStream copy.body.streamId inputs incoming
      some { s with
        server := result.1
        flight := s.flight.eraseIdx index
        emitted := if result.2 then copy.body.streamId :: s.emitted else s.emitted }

def step (s : Opening) : OpeningAction → Option Opening
  | .openStream target path sent => s.openStream target path sent
  | .beginRetry due => some (s.beginRetry due)
  | .retryOpen index alt sent => s.retryOpen index alt sent
  | .arrive index inputs incoming => s.arrive index inputs incoming
  | .lose index =>
      if index < s.flight.length then some { s with flight := s.flight.eraseIdx index } else none
  | .onClient action =>
      if action.opensStream then none
      else (s.client.step action).map fun client => { s with client := client }
  | .onServer action =>
      if action.opensStream then none
      else (s.server.step action).map fun server => { s with server := server }

def new (clientWindow clientChan serverWindow serverChan : Nat) : Opening where
  client := .new true clientWindow clientChan
  server := .new false serverWindow serverChan
  retrying := []
  flight := []
  emitted := []

def Initial (s : Opening) : Prop :=
  ∃ clientWindow clientChan serverWindow serverChan,
    s = new clientWindow clientChan serverWindow serverChan

def machine : Machine Opening OpeningAction := ⟨Initial, step⟩

def timely (s : Opening) : OpeningAction → Bool
  | .arrive index _ .room =>
      s.flight[index]?.all fun copy =>
        decide (copy.body.streamId ∉ s.emitted) || (s.server.getStream copy.body.streamId).isSome
  | _ => true

/-- A stream is given out exactly when the table does not hold its id and there is room. -/
theorem acceptRemoteStream_emits (t : StreamTable) (id : Nat) (inputs : CapInputs)
    (incoming : Incoming) :
    (t.acceptRemoteStream id inputs incoming).2 = true ↔
      t.getStream id = none ∧ incoming = .room := by
  unfold StreamTable.acceptRemoteStream StreamTable.tryAllocLocalStream
  cases found : t.getStream id with
  | none => cases incoming <;> simp
  | some st => simp

theorem emitted_step {s next : Opening} {action : OpeningAction}
    (taken : s.step action = some next) :
    next.emitted = s.emitted ∨
      ∃ index inputs copy, action = .arrive index inputs .room ∧ s.flight[index]? = some copy ∧
        s.server.getStream copy.body.streamId = none ∧
        next.emitted = copy.body.streamId :: s.emitted := by
  have same_send : ∀ (s : Opening) (path id : Nat) (target : Target) (sent : Bool),
      (s.send path id target sent).emitted = s.emitted := by
    intro s path id target sent
    cases sent <;> rfl
  cases action with
  | openStream target path sent =>
      obtain ⟨client, _, rfl⟩ := Option.map_eq_some_iff.mp taken
      exact .inl (same_send _ _ _ _ _)
  | beginRetry due =>
      cases taken
      exact .inl rfl
  | retryOpen index alt sent =>
      simp only [step, retryOpen] at taken
      split at taken
      · cases taken
      · cases taken
        exact .inl (same_send _ _ _ _ _)
  | arrive index inputs incoming =>
      simp only [step, arrive] at taken
      split at taken
      · cases taken
      · rename_i copy found
        cases taken
        by_cases emits :
            (s.server.acceptRemoteStream copy.body.streamId inputs incoming).2 = true
        · obtain ⟨absent, rfl⟩ := (acceptRemoteStream_emits _ _ _ _).mp emits
          exact .inr ⟨index, inputs, copy, rfl, found, absent, if_pos emits⟩
        · exact .inl (if_neg emits)
  | lose index =>
      simp only [step] at taken
      split at taken
      · cases taken
        exact .inl rfl
      · cases taken
  | onClient action =>
      simp only [step] at taken
      split at taken
      · cases taken
      · obtain ⟨_, _, rfl⟩ := Option.map_eq_some_iff.mp taken
        exact .inl rfl
  | onServer action =>
      simp only [step] at taken
      split at taken
      · cases taken
      · obtain ⟨_, _, rfl⟩ := Option.map_eq_some_iff.mp taken
        exact .inl rfl

theorem nodup_step {s next : Opening} {action : OpeningAction} (once : s.emitted.Nodup)
    (inTime : s.timely action = true) (taken : s.step action = some next) :
    next.emitted.Nodup := by
  rcases emitted_step taken with same | ⟨index, inputs, copy, rfl, found, absent, emits⟩
  · rw [same]
    exact once
  · rw [emits]
    simp only [timely, found, absent, Option.all_some, Option.isSome_none, Bool.or_false,
      decide_eq_true_eq] at inTime
    exact List.nodup_cons.mpr ⟨inTime, once⟩

/-- Conversely, the first copy that comes too late gives its stream out again. -/
theorem not_nodup_step {s next : Opening} {action : OpeningAction}
    (late : s.timely action = false) (taken : s.step action = some next) :
    ¬ next.emitted.Nodup := by
  cases action with
  | arrive index inputs incoming =>
      cases incoming with
      | room =>
          simp only [step, arrive] at taken
          cases found : s.flight[index]? with
          | none => simp [timely, found] at late
          | some copy =>
              simp only [timely, found, Option.all_some, Bool.or_eq_false_iff,
                decide_eq_false_iff_not, not_not, Option.isSome_eq_false_iff,
                Option.isNone_iff_eq_none] at late
              simp only [found] at taken
              cases taken
              have emits := (acceptRemoteStream_emits s.server copy.body.streamId inputs
                .room).mpr ⟨late.2, rfl⟩
              simp only [emits, if_true]
              exact fun once => (List.nodup_cons.mp once).1 late.1
      | absent => simp [timely] at late
      | full => simp [timely] at late
  | _ => simp [timely] at late

/-- While no copy of a StreamOpen comes after its stream has run and left the server's table, the
server gives out at most one stream per id; the first that does gives out a second. -/
theorem accepted_at_most_once {s : Opening}
    (reachable : machine.ReachableWhen (fun s action => s.timely action = true) s) :
    s.emitted.Nodup ∧ ∀ action next, s.step action = some next →
      (next.emitted.Nodup ↔ s.timely action = true) := by
  have once : s.emitted.Nodup := by
    induction reachable with
    | start begins =>
        obtain ⟨_, _, _, _, rfl⟩ := begins
        exact List.nodup_nil
    | step _ inTime taken inductionHypothesis => exact nodup_step inductionHypothesis inTime taken
  refine ⟨once, fun action next taken => ⟨fun onceAfter => ?_, fun inTime =>
    nodup_step once inTime taken⟩⟩
  apply Bool.of_not_eq_false
  intro late
  exact not_nodup_step late taken onceAfter

/-- The first copy waits on path 1, the retry goes over path 2 and its stream runs to both FINs;
then the first copy arrives. -/
def lateCopy : List OpeningAction :=
  [.openStream ⟨"origin", 443⟩ 1 true, .beginRetry [1], .retryOpen 0 2 true,
    .arrive 1 ⟨0, 0⟩ .room, .onClient (.closeSend 1), .onServer (.peerClose ⟨1, some 0⟩),
    .onServer (.closeSend 1), .arrive 0 ⟨0, 0⟩ .room]

theorem accepted_at_most_once_retried : ∃ s,
    machine.runWhen (fun s action => s.timely action = true) (new 65536 64 65536 64)
      (lateCopy.take 7) = some s ∧ s.emitted = [1] ∧ s.server.getStream 1 = none ∧
    s.emitted.Nodup := by
  have replayed : ∃ s, machine.runWhen (fun s action => s.timely action = true)
      (new 65536 64 65536 64) (lateCopy.take 7) = some s ∧ s.emitted = [1] ∧
      s.server.getStream 1 = none := ⟨_, rfl, rfl, rfl⟩
  obtain ⟨s, replay, emitted, absent⟩ := replayed
  have begins : machine.ReachableWhen (fun s action => s.timely action = true)
      (new 65536 64 65536 64) := .start ⟨65536, 64, 65536, 64, rfl⟩
  exact ⟨s, replay, emitted, absent, (accepted_at_most_once (begins.runWhen replay)).1⟩

theorem accepted_twice : ∃ s, machine.Reachable s ∧ s.emitted = [1, 1] ∧ ¬ s.emitted.Nodup := by
  have replayed : ∃ s, machine.run (new 65536 64 65536 64) lateCopy = some s ∧
      s.emitted = [1, 1] := ⟨_, rfl, rfl⟩
  obtain ⟨s, replay, emitted⟩ := replayed
  have begins : machine.Reachable (new 65536 64 65536 64) :=
    .start ⟨65536, 64, 65536, 64, rfl⟩
  refine ⟨s, begins.run replay, emitted, ?_⟩
  rw [emitted]
  decide

end Opening

end NyaLink
