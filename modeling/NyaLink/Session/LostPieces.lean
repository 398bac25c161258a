import NyaLink.Session.RetryChoice

/-!
# Which lost pieces the retry pass re-sends

The pass leaves every stream alone that is not steerable, and `is_steerable`
excludes streams with a FIN in either direction; `rehome_unacked_from` makes no
such test.  Apart from that a lost piece is passed over in two cases only: when
the stream has been stalled for the close linger with every living path tried,
and when the piece is interactive, marked dropped, and on the only living path.
-/

namespace NyaLink

namespace Session

section

variable {cfg : SessionConfig} {start s : Session} {room id : Nat}

/-- The two cases in which the pass goes on without the piece. -/
theorem resendDue_of_exempt (kept : PassKept cfg start s room) {stalledLong : Bool} {due : Due}
    (exempt : stalledLong = true ∧ start.allTried due.tried = true ∨
      due.dropped = true ∧ due.bulk = false ∧
        ∀ path, start.aliveAt path = true → path = due.source) :
    resendDue cfg id stalledLong s due = s := by
  unfold resendDue
  split
  · rfl
  · rename_i going
    rcases exempt with ⟨stalled, tried⟩ | ⟨dropped, small, only⟩
    · refine absurd ?_ going
      rw [stalled, Bool.true_and, allTried_iff]
      intro path alive
      rw [kept.alive path] at alive
      exact allTried_iff.mp tried path alive
    · have flowing : s.stalledSource due = false := by simp [stalledSource, dropped]
      rw [flowing, small, if_neg Bool.false_ne_true, if_neg Bool.false_ne_true]
      unfold resendInteractive
      split
      · rfl
      · rename_i alt picked
        exact absurd (only alt (kept.alive_of_picked picked)) (pickRetryPath_ne_source picked)

theorem dues_pairwise (s : Session) (st : StreamState) :
    (s.dues cfg st).Pairwise fun first second => first.offset ≠ second.offset := by
  have atOffset : ∀ (entry : Nat × Unacked) (due : Due), s.dueOf cfg st entry.1 entry.2 = some due →
      due.offset = entry.1 := by
    intro entry due found
    unfold dueOf at found
    split at found
    · cases found
    · obtain ⟨why, -, rfl⟩ := Option.map_eq_some_iff.mp found
      rfl
  unfold dues
  rw [List.pairwise_filterMap]
  apply (List.pairwise_map.mp st.unacked.nodup_keys).imp
  intro first second different due found other foundOther
  rw [atOffset first due found, atOffset second other foundOther]
  exact different

/-- The frame carries another piece. -/
def OtherPiece (id offset : Nat) (entry : Nat × Frame) : Prop :=
  ∀ data, entry.2 ≠ .streamData { streamId := id, offset := offset, data := data }

theorem sendsOnly_foldl (id offset : Nat) (stalledLong : Bool) (dues : List Due) (s : Session)
    (others : ∀ due ∈ dues, due.offset ≠ offset) :
    SendsOnly (OtherPiece id offset) s (dues.foldl (resendDue cfg id stalledLong) s) := by
  apply List.foldlRecOn
    (motive := fun reached : Session => SendsOnly (OtherPiece id offset) s reached)
  · exact .of_accepted rfl
  · intro reached sends due membership
    refine sends.trans ((sendsOnly_resendDue id stalledLong reached due).mono ?_)
    rintro entry ⟨frame, -⟩ data same
    rw [frame] at same
    simp only [Frame.streamData.injEq, StreamData.mk.injEq] at same
    exact others due membership same.2.1

theorem sendsOnly_of_exempt {offset : Nat} {st : StreamState} {u : Unacked}
    (stream : s.getStream id = some st) (held : st.unacked.get? offset = some u)
    (lost : u.dropped = true ∨ s.aliveAt u.pathId = false) (passed : u.retryNotBefore ≤ s.now)
    (ready : ∀ path p, s.getPath path = some p → p.isAlive = true →
      Ready cfg s.now p (s.dues cfg st).length)
    (exempt : s.stalledLong cfg st = true ∧ s.allTried u.tried = true ∨
      u.dropped = true ∧ isBulkPiece cfg st u = false ∧
        ∀ path, s.aliveAt path = true → path = u.pathId) :
    SendsOnly (OtherPiece id offset) s (s.retryExpiredUnacked cfg id) := by
  obtain ⟨due, found, atOffset, source, -, tried, dropped, bulk⟩ :=
    @dueOf_of_lost cfg s st offset u lost passed
  rw [← source, ← dropped, ← bulk, ← tried] at exempt
  have membership : due ∈ s.dues cfg st :=
    List.mem_filterMap.mpr ⟨(offset, u), OrdMap.get?_eq_some_iff.mp held, found⟩
  obtain ⟨earlier, later, split⟩ := List.append_of_mem membership
  have apart := @dues_pairwise cfg s st
  rw [split, List.pairwise_append, List.pairwise_cons] at apart
  obtain ⟨-, ⟨notLater, -⟩, notEarlier⟩ := apart
  have kept : PassKept cfg s s (earlier.length + (later.length + 1)) := by
    refine PassKept.refl fun path p known living => ?_
    have all := ready path p known living
    rw [split, List.length_append, List.length_cons] at all
    exact all
  unfold retryExpiredUnacked
  rw [stream]
  dsimp only
  split_ifs
  · exact .of_accepted rfl
  · rw [split, List.foldl_append, List.foldl_cons,
      resendDue_of_exempt (kept.foldl id earlier (s.stalledLong cfg st)) exempt]
    refine (sendsOnly_foldl id offset _ earlier s ?_).trans (sendsOnly_foldl id offset _ later _ ?_)
    · intro other inEarlier
      rw [← atOffset]
      exact notEarlier other inEarlier due (List.mem_cons_self ..)
    · intro other inLater
      rw [← atOffset]
      exact (notLater other inLater).symm

end

/-- One retry pass has a frame accepted by a living path for a piece that is marked dropped or
whose path is not alive, if and only if the stream is steerable and the piece is not exempt; this
with every living path ready for all frames of the pass. -/
theorem lost_piece_accepted_iff {cfg : SessionConfig} {s : Session} {id offset : Nat}
    {st : StreamState} {u : Unacked} (stream : s.getStream id = some st)
    (held : st.unacked.get? offset = some u)
    (lost : u.dropped = true ∨ s.aliveAt u.pathId = false) (passed : u.retryNotBefore ≤ s.now)
    (ready : ∀ path p, s.getPath path = some p → p.isAlive = true →
      Ready cfg s.now p (s.dues cfg st).length)
    (living : ∃ path, s.aliveAt path = true) :
    (∃ sent, (s.retryExpiredUnacked cfg id).accepted = s.accepted ++ sent ∧
      ∃ dest, s.aliveAt dest = true ∧
        (dest, .streamData { streamId := id, offset := offset, data := u.data }) ∈ sent) ↔
    st.isSteerable = true ∧ ¬ (s.stalledLong cfg st = true ∧ s.allTried u.tried = true) ∧
      (u.dropped = true → isBulkPiece cfg st u = false →
        ∃ other, s.aliveAt other = true ∧ other ≠ u.pathId) := by
  constructor
  · rintro ⟨sent, accepted, dest, -, taken⟩
    have refused : ¬ SendsOnly (OtherPiece id offset) s (s.retryExpiredUnacked cfg id) := by
      rintro ⟨others, same, allowed⟩
      obtain rfl : sent = others := List.append_cancel_left (accepted.symm.trans same)
      exact allowed _ taken u.data rfl
    have free := fun exempt => refused (sendsOnly_of_exempt stream held lost passed ready exempt)
    refine ⟨?_, fun stalled => free (.inl stalled), fun dropped small => ?_⟩
    · cases steerable : st.isSteerable with
      | true => rfl
      | false =>
          refine absurd (SendsOnly.of_accepted ?_) refused
          simp only [retryExpiredUnacked, stream, steerable, Bool.not_false, if_true]
    · by_contra only
      refine free (.inr ⟨dropped, small, fun path alive => ?_⟩)
      by_contra different
      exact only ⟨path, alive, different⟩
  · rintro ⟨steerable, untried, elsewhere⟩
    by_cases single : u.dropped = true ∧ isBulkPiece cfg st u = false
    · obtain ⟨other, alive, different⟩ := elsewhere single.1 single.2
      exact frame_accepted_of_lost stream steerable held lost passed ready untried alive
        fun _ _ => different
    · obtain ⟨path, alive⟩ := living
      exact frame_accepted_of_lost stream steerable held lost passed ready untried alive
        fun dropped small => absurd ⟨dropped, small⟩ single

/-- One byte is sent on the only path, which then fails; another path joins. -/
def rejoinSchedule : List SessionAction :=
  [.pathAdd "a", .addStream 1, .beginSend 1 [7], .sendPiece 1 1 false, .pathFailed 1 [1],
    .pathAdd "b"]

/-- The same, but the application has closed its side before the path fails. -/
def closedRejoinSchedule : List SessionAction :=
  [.pathAdd "a", .addStream 1, .beginSend 1 [7], .sendPiece 1 1 false, .streamEvent 1 .closeSend,
    .pathFailed 1 [1], .pathAdd "b"]

theorem ready_of_single {s : Session} (now : s.now = 0)
    (single : s.paths.entries = [(2, newPath "b" 0)]) {path : Nat} {p : Path}
    (found : s.getPath path = some p) : Ready .standard s.now p 1 := by
  rw [← mem_entries_iff_getPath, single, List.mem_singleton] at found
  obtain rfl : p = newPath "b" 0 := congrArg Prod.snd found
  rw [now]
  constructor <;> decide +kernel

theorem lost_piece_accepted_rejoined : ∃ s, (machine .standard).Reachable s ∧
    ∃ sent, (s.retryExpiredUnacked .standard 1).accepted = s.accepted ++ sent ∧
      ∃ dest, s.aliveAt dest = true ∧
        (dest, .streamData { streamId := 1, offset := 0, data := [7] }) ∈ sent := by
  have reached : ∃ s st u, (machine .standard).run new rejoinSchedule = some s ∧
      s.now = 0 ∧ s.paths.entries = [(2, newPath "b" 0)] ∧ s.getStream 1 = some st ∧
      st.isSteerable = true ∧ st.stalled = false ∧ st.unacked.get? 0 = some u ∧ u.data = [7] ∧
      u.dropped = false ∧ s.aliveAt u.pathId = false ∧ u.retryNotBefore = 0 ∧
      (s.dues .standard st).length = 1 ∧ s.aliveAt 2 = true :=
    ⟨_, _, _, rfl, rfl, rfl, rfl, rfl, rfl, rfl, rfl, rfl, rfl, rfl, rfl, rfl⟩
  obtain ⟨s, st, u, replayed, now, single, stream, steerable, flowing, held, data, kept, lost,
    passed, due, alive⟩ := reached
  refine ⟨s, Machine.Reachable.run (.start rfl) replayed, ?_⟩
  have untried : ¬ (s.stalledLong .standard st = true ∧ s.allTried u.tried = true) := by
    simp [stalledLong, flowing]
  have ready : ∀ path p, s.getPath path = some p → p.isAlive = true →
      Ready .standard s.now p (s.dues .standard st).length := by
    intro path p found _
    rw [due]
    exact ready_of_single now single found
  rw [← data]
  refine (lost_piece_accepted_iff stream held (.inr lost) (by omega) ready ⟨2, alive⟩).mpr
    ⟨steerable, untried, ?_⟩
  intro dropped
  rw [kept] at dropped
  cases dropped

/-- A half-closed stream is not steerable: nothing of it is re-sent. -/
theorem lost_piece_not_always_accepted :
    ¬ ∀ (cfg : SessionConfig) (s : Session), (machine cfg).Reachable s →
      ∀ id offset st u, s.getStream id = some st → st.reset = false →
        st.unacked.get? offset = some u → u.dropped = true ∨ s.aliveAt u.pathId = false →
        u.retryNotBefore ≤ s.now → (∃ path, s.aliveAt path = true) →
        (∀ path p, s.getPath path = some p → p.isAlive = true → Ready cfg s.now p 1) →
        ∃ sent, (s.retryExpiredUnacked cfg id).accepted = s.accepted ++ sent ∧
          ∃ dest, s.aliveAt dest = true ∧
            (dest, .streamData { streamId := id, offset := offset, data := u.data }) ∈ sent := by
  intro always
  have reached : ∃ s st u, (machine .standard).run new closedRejoinSchedule = some s ∧
      s.now = 0 ∧ s.paths.entries = [(2, newPath "b" 0)] ∧ s.getStream 1 = some st ∧
      st.reset = false ∧ st.unacked.get? 0 = some u ∧ s.aliveAt u.pathId = false ∧
      u.retryNotBefore = 0 ∧ s.aliveAt 2 = true ∧ st.isSteerable = false :=
    ⟨_, _, _, rfl, rfl, rfl, rfl, rfl, rfl, rfl, rfl, rfl, rfl⟩
  obtain ⟨s, st, u, replayed, now, single, stream, unreset, held, lost, passed, alive,
    unsteerable⟩ := reached
  have same : s.retryExpiredUnacked .standard 1 = s := by
    simp only [retryExpiredUnacked, stream, unsteerable, Bool.not_false, if_true]
  obtain ⟨sent, taken, dest, -, membership⟩ := always .standard s
    (Machine.Reachable.run (.start rfl) replayed) 1 0 st u stream unreset held (.inr lost)
    (by omega) ⟨2, alive⟩ fun path p found _ => ready_of_single now single found
  rw [same] at taken
  obtain rfl : sent = [] := List.append_right_eq_self.mp taken.symm
  cases membership

end Session

end NyaLink
