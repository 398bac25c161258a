import Mathlib.Data.List.Nodup
import NyaLink.Session.ControlRetry

/-!
# A retry goes to each path once

Up to eight paths, the bounded list of an entry holds every path that was ever
recorded for it, so the picker that leaves out tried paths leaves out all of
them.  A queue that refuses the frame changes nothing but the clock.  The
entries of `closes` and `resets` only gain recorded paths while they last.
-/

namespace NyaLink

theorem mem_pushTried_of_short {tried : List Nat} {path : Nat}
    (short : tried.length ≤ 7 ∨ tried.length ≤ 8 ∧ path ∈ tried) {other : Nat}
    (membership : other ∈ tried) : other ∈ pushTried tried path := by
  unfold pushTried
  by_cases last : tried.getLast? = some path
  · rw [if_pos last]
    exact membership
  · rw [if_neg last]
    by_cases same : other = path
    · simp [same]
    · have kept : other ∈ tried.filter fun x => x ≠ path := by
        simp [membership, same]
      have fewer : (tried.filter fun x => x ≠ path).length ≠ 8 := by
        rcases short with few | ⟨eight, present⟩
        · have bound := List.length_filter_le (fun x => decide (x ≠ path)) tried
          omega
        · have dropped : (tried.filter fun x => x ≠ path).length < tried.length :=
            List.length_filter_lt_length_iff_exists.mpr ⟨path, present, by simp⟩
          omega
      dsimp only
      rw [if_neg fewer]
      exact List.mem_append_left _ kept

theorem mem_of_mem_pushTried {tried : List Nat} {path other : Nat}
    (membership : other ∈ pushTried tried path) : other ∈ tried ∨ other = path := by
  unfold pushTried at membership
  split at membership
  · exact .inl membership
  · rcases List.mem_append.mp membership with kept | added
    · left
      have filtered : other ∈ tried.filter fun x => x ≠ path := by
        split at kept
        · exact List.mem_of_mem_tail kept
        · exact kept
      exact (List.mem_filter.mp filtered).1
    · exact .inr (List.mem_singleton.mp added)

namespace Outstanding

variable {Body : Type}

/-- Up to eight recorded paths, all of them are in the list of tried paths. -/
structure Sound (o : Outstanding Body) : Prop where
  ok : TriedOk o.tried
  distinct : o.recorded.Nodup
  recorded : ∀ path ∈ o.tried, path ∈ o.recorded
  complete : o.recorded.length ≤ 8 → ∀ path ∈ o.recorded, path ∈ o.tried

theorem mem_note {recorded : List Nat} {path other : Nat} :
    other ∈ note recorded path ↔ other = path ∨ other ∈ recorded := by
  unfold note
  split
  · rename_i present
    exact ⟨.inr, fun either => either.elim (fun same => same ▸ present) id⟩
  · exact List.mem_cons

theorem nodup_note {recorded : List Nat} (distinct : recorded.Nodup) (path : Nat) :
    (note recorded path).Nodup := by
  unfold note
  split
  · exact distinct
  · rename_i absent
    exact List.nodup_cons.mpr ⟨absent, distinct⟩

theorem Sound.of_same {o o' : Outstanding Body} (sound : o.Sound) (tried : o'.tried = o.tried)
    (recorded : o'.recorded = o.recorded) : o'.Sound := by
  refine ⟨?_, ?_, ?_, ?_⟩
  · rw [tried]
    exact sound.ok
  · rw [recorded]
    exact sound.distinct
  · rw [tried, recorded]
    exact sound.recorded
  · rw [tried, recorded]
    exact sound.complete

theorem sound_first (path now : Nat) (body : Body) : (first path now body).Sound :=
  ⟨triedOk_singleton path, List.nodup_singleton path, fun _ => id, fun _ _ => id⟩

/-- An entry that went to no path yet. -/
theorem sound_nowhere {o : Outstanding Body} (tried : o.tried = []) (recorded : o.recorded = []) :
    o.Sound := by
  refine ⟨?_, ?_, ?_, ?_⟩
  · rw [tried]
    exact ⟨List.nodup_nil, Nat.zero_le 8⟩
  · rw [recorded]
    exact List.nodup_nil
  · rw [tried]
    intro path impossible
    cases impossible
  · rw [recorded]
    intro _ path impossible
    cases impossible

/-- A list of tried paths is no longer than the list of recorded ones. -/
theorem Sound.length_le {o : Outstanding Body} (sound : o.Sound) :
    o.tried.length ≤ o.recorded.length :=
  (List.subperm_of_subset sound.ok.nodup sound.recorded).length_le

theorem Sound.follow {o : Outstanding Body} (sound : o.Sound) (path now : Nat) :
    (o.follow path now).Sound where
  ok := sound.ok.pushTried path
  distinct := nodup_note sound.distinct path
  recorded := by
    intro other membership
    rcases mem_of_mem_pushTried membership with before | rfl
    · exact mem_note.mpr (.inr (sound.recorded other before))
    · exact mem_note.mpr (.inl rfl)
  complete := by
    intro short other membership
    have bound := sound.length_le
    simp only [Outstanding.follow, note] at short
    rcases mem_note.mp membership with rfl | before
    · exact List.mem_of_getLast? (getLast?_pushTried o.tried other)
    · split at short
      · rename_i present
        refine mem_pushTried_of_short (.inr ⟨by omega, ?_⟩)
          (sound.complete short other before)
        exact sound.complete short path present
      · simp only [List.length_cons] at short
        exact mem_pushTried_of_short (.inl (by omega))
          (sound.complete (by omega) other before)

/-! ## How an entry changes -/

/-- `o'` is the entry `o` later. -/
structure Grown (o o' : Outstanding Body) : Prop where
  recorded : ∀ path ∈ o.recorded, path ∈ o'.recorded
  sound : o.Sound → o'.Sound

theorem Grown.refl (o : Outstanding Body) : Grown o o := ⟨fun _ => id, id⟩

theorem Grown.trans {o between o' : Outstanding Body} (earlier : Grown o between)
    (later : Grown between o') : Grown o o' :=
  ⟨fun path before => later.recorded path (earlier.recorded path before),
    fun sound => later.sound (earlier.sound sound)⟩

theorem grown_of_same {o o' : Outstanding Body} (tried : o'.tried = o.tried)
    (recorded : o'.recorded = o.recorded) : Grown o o' :=
  ⟨fun path before => by rwa [recorded], fun sound => sound.of_same tried recorded⟩

theorem grown_follow (o : Outstanding Body) (path now : Nat) : Grown o (o.follow path now) :=
  ⟨fun _ before => mem_note.mpr (.inr before), fun sound => sound.follow path now⟩

theorem grown_postpone (o : Outstanding Body) (now : Nat) : Grown o (o.postpone now) :=
  grown_of_same rfl rfl

/-! ## How a table changes -/

/-- No entry of the later table is new. -/
def Evolves (table later : OrdMap Nat (Outstanding Body)) : Prop :=
  ∀ id o', later.get? id = some o' → ∃ o, table.get? id = some o ∧ Grown o o'

/-- No entry is lost, and the new ones are sound. -/
structure Extends (table later : OrdMap Nat (Outstanding Body)) : Prop where
  kept : ∀ id, later.get? id = none → table.get? id = none
  entry : ∀ id o', later.get? id = some o' →
    (table.get? id = none ∧ o'.Sound) ∨ ∃ o, table.get? id = some o ∧ Grown o o'

/-- Entries may begin, and afterwards end. -/
def Succeeds (table later : OrdMap Nat (Outstanding Body)) : Prop :=
  ∃ between, Extends table between ∧ Evolves between later

variable {table between later : OrdMap Nat (Outstanding Body)}

theorem Evolves.refl (table : OrdMap Nat (Outstanding Body)) : Evolves table table :=
  fun _ o found => ⟨o, found, .refl o⟩

theorem Evolves.trans (first : Evolves table between) (second : Evolves between later) :
    Evolves table later := by
  intro id o'' found
  obtain ⟨o', middle, laterGrown⟩ := second id o'' found
  obtain ⟨o, before, earlierGrown⟩ := first id o' middle
  exact ⟨o, before, earlierGrown.trans laterGrown⟩

theorem evolves_empty (table : OrdMap Nat (Outstanding Body)) : Evolves table .empty := by
  intro id o' found
  cases found

theorem evolves_erase (table : OrdMap Nat (Outstanding Body)) (id : Nat) :
    Evolves table (table.erase id) := by
  intro other o' found
  exact ⟨o', (OrdMap.get?_erase_eq_some_iff.mp found).2, .refl o'⟩

theorem evolves_filter (table : OrdMap Nat (Outstanding Body))
    (keep : Nat → Outstanding Body → Bool) : Evolves table (table.filter keep) :=
  fun _ o' found => ⟨o', (OrdMap.get?_filter_eq_some_iff.mp found).1, .refl o'⟩

theorem evolves_modify (table : OrdMap Nat (Outstanding Body)) (id : Nat)
    {change : Outstanding Body → Outstanding Body} (grown : ∀ o, Grown o (change o)) :
    Evolves table (table.modify id change) := by
  intro other o' found
  rcases OrdMap.get?_modify_cases found with ⟨-, o, before, rfl⟩ | ⟨-, before⟩
  · exact ⟨o, before, grown o⟩
  · exact ⟨o', before, .refl o'⟩

theorem Extends.refl (table : OrdMap Nat (Outstanding Body)) : Extends table table :=
  ⟨fun _ => id, fun id o found => .inr (Evolves.refl table id o found)⟩

theorem Extends.trans (first : Extends table between) (second : Extends between later) :
    Extends table later where
  kept id missing := first.kept id (second.kept id missing)
  entry := by
    intro id o'' found
    rcases second.entry id o'' found with ⟨missing, sound⟩ | ⟨o', middle, laterGrown⟩
    · exact .inl ⟨first.kept id missing, sound⟩
    · rcases first.entry id o' middle with ⟨missing, sound⟩ | ⟨o, before, earlierGrown⟩
      · exact .inl ⟨missing, laterGrown.sound sound⟩
      · exact .inr ⟨o, before, earlierGrown.trans laterGrown⟩

/-- An insertion that goes on with the entry that is there. -/
theorem extends_insert (table : OrdMap Nat (Outstanding Body)) (id : Nat)
    {o' : Outstanding Body} (continues : ∀ o, table.get? id = some o → Grown o o')
    (begins : table.get? id = none → o'.Sound) : Extends table (table.insert id o') where
  kept := by
    intro other missing
    rw [OrdMap.get?_insert] at missing
    split at missing
    · cases missing
    · exact missing
  entry := by
    intro other o found
    rcases OrdMap.get?_insert_cases found with ⟨rfl, rfl⟩ | before
    · cases here : table.get? other with
      | none => exact .inl ⟨rfl, begins here⟩
      | some old => exact .inr ⟨old, rfl, continues old here⟩
    · exact .inr ⟨o, before, .refl o⟩

theorem Extends.succeeds (extended : Extends table later) : Succeeds table later :=
  ⟨later, extended, .refl later⟩

theorem Evolves.succeeds (evolved : Evolves table later) : Succeeds table later :=
  ⟨table, .refl table, evolved⟩

theorem Succeeds.trans_evolves (first : Succeeds table between)
    (second : Evolves between later) : Succeeds table later := by
  obtain ⟨middle, extended, evolved⟩ := first
  exact ⟨middle, extended, evolved.trans second⟩

/-- Sound entries stay sound. -/
theorem Succeeds.sound (succeeded : Succeeds table later)
    (sound : ∀ id o, table.get? id = some o → o.Sound) :
    ∀ id o, later.get? id = some o → o.Sound := by
  obtain ⟨middle, extended, evolved⟩ := succeeded
  intro id o'' found
  obtain ⟨o', between, grown⟩ := evolved id o'' found
  rcases extended.entry id o' between with ⟨_, begun⟩ | ⟨o, before, earlierGrown⟩
  · exact grown.sound begun
  · exact grown.sound (earlierGrown.sound (sound id o before))

/-- What was recorded for an entry stays recorded while the entry lasts. -/
theorem Succeeds.recorded (succeeded : Succeeds table later) {id : Nat}
    {o o' : Outstanding Body} (before : table.get? id = some o) (after : later.get? id = some o')
    {path : Nat} (recorded : path ∈ o.recorded) : path ∈ o'.recorded := by
  obtain ⟨middle, extended, evolved⟩ := succeeded
  obtain ⟨between, found, grown⟩ := evolved id o' after
  rcases extended.entry id between found with ⟨missing, _⟩ | ⟨old, same, earlierGrown⟩
  · cases missing.symm.trans before
  · obtain rfl : old = o := Option.some.inj (same.symm.trans before)
    exact grown.recorded path (earlierGrown.recorded path recorded)

end Outstanding

open Outstanding

theorem extends_rememberClose (closes : OrdMap Nat (Outstanding CloseBody)) (id path now : Nat)
    (body : CloseBody) : Extends closes (rememberClose closes id path now body) := by
  unfold rememberClose
  cases here : closes.get? id with
  | none => exact extends_insert closes id (by simp [here]) fun _ => sound_first path now body
  | some c =>
      refine extends_insert closes id ?_ (by simp [here])
      intro old found
      obtain rfl : c = old := Option.some.inj (here.symm.trans found)
      exact (grown_follow c path now).trans (grown_of_same rfl rfl)

theorem extends_rememberReset (resets : OrdMap Nat (Outstanding ResetReason)) (id path now : Nat)
    (reason : ResetReason) : Extends resets (rememberReset resets id path now reason) := by
  unfold rememberReset
  cases here : resets.get? id with
  | none =>
      refine extends_insert resets id (by simp [here]) fun _ => ?_
      dsimp only
      split
      · exact sound_nowhere rfl rfl
      · exact sound_first path now reason
  | some r =>
      refine extends_insert resets id ?_ (by simp [here])
      intro old found
      obtain rfl : r = old := Option.some.inj (here.symm.trans found)
      dsimp only
      split
      · exact grown_of_same rfl rfl
      · exact (grown_follow r path now).trans (grown_of_same rfl rfl)

namespace Work

variable {cfg : SessionConfig} {Body : Type} {rules : RetryRules Body}
  {due : Session → Outstanding Body → Bool}
  {refused : Nat → Outstanding Body → Outstanding Body}

theorem evolves_retryEntry (grown : ∀ alt o, Grown o (refused alt o)) (w : Work Body)
    (id : Nat) (o : Outstanding Body) :
    Evolves w.table (retryEntry cfg rules due refused w (id, o)).table := by
  have went := @retried_entry Body cfg rules due refused w id o
  generalize retryEntry cfg rules due refused w (id, o) = after at went
  cases went with
  | forgotten stopped => exact evolves_erase w.table id
  | waits early => exact .refl w.table
  | nowhere picked => exact .refl w.table
  | sent running clock picked =>
      refine evolves_modify w.table id fun o => ?_
      split
      · exact grown_follow o _ _
      · exact grown _ o

theorem evolves_retryAll (grown : ∀ alt o, Grown o (refused alt o))
    (select : Outstanding Body → Bool) (w : Work Body) :
    Evolves w.table (w.retryAll cfg rules due refused select).table := by
  unfold retryAll
  generalize w.table.entries.filter (fun entry => select entry.2) = entries
  induction entries generalizing w with
  | nil => exact .refl w.table
  | cons entry rest inductionHypothesis =>
      exact (evolves_retryEntry grown w entry.1 entry.2).trans (inductionHypothesis _)

theorem evolves_retryCloses (w : Work CloseBody) :
    Evolves w.table (w.retryCloses cfg).table :=
  (evolves_filter w.table _).trans
    (evolves_retryAll (fun _ o => grown_postpone o w.session.now) _ (w.reap cfg))

theorem evolves_retryCloseFrom (dead : Nat) (w : Work CloseBody) :
    Evolves w.table (w.retryCloseFrom cfg dead).table :=
  evolves_retryAll (fun _ o => .refl o) _ w

theorem evolves_retryResets (w : Work ResetReason) :
    Evolves w.table (w.retryResets cfg).table :=
  (evolves_filter w.table _).trans
    (evolves_retryAll (fun _ o => grown_postpone o w.session.now) _ (w.reap cfg))

theorem evolves_retryResetFrom (dead : Nat) (w : Work ResetReason) :
    Evolves w.table (w.retryResetFrom cfg dead).table :=
  evolves_retryAll (fun _ o => .refl o) _ w

end Work

/-! ## Over the operations of the session -/

namespace Controls

/-- Both tables after an operation. -/
structure Carries (c after : Controls) : Prop where
  closes : Succeeds c.closes after.closes
  resets : Succeeds c.resets after.resets

variable {cfg : PickConfig}

theorem Carries.of_same {c after : Controls} (closes : after.closes = c.closes)
    (resets : after.resets = c.resets) : Carries c after := by
  refine ⟨?_, ?_⟩
  · rw [closes]
    exact (Evolves.refl c.closes).succeeds
  · rw [resets]
    exact (Evolves.refl c.resets).succeeds

theorem evolves_closes_followStream (c : Controls) (id : Nat) (before after : StreamState) :
    Evolves c.closes (c.followStream id before after).closes := by
  unfold followStream
  split
  · split
    · exact evolves_erase c.closes id
    · exact evolves_erase c.closes id
  · split
    · exact .refl c.closes
    · exact .refl c.closes

theorem resets_followStream (c : Controls) (id : Nat) (before after : StreamState) :
    (c.followStream id before after).resets = c.resets := by
  unfold followStream
  split
  · split
    · rfl
    · rfl
  · split
    · rfl
    · rfl

theorem evolves_closes_streamEvent (c : Controls) (id : Nat) (event : StreamEvent) :
    Evolves c.closes (c.streamEvent id event).closes := by
  unfold streamEvent
  split
  · exact .refl c.closes
  · exact evolves_closes_followStream _ id _ _

theorem resets_streamEvent (c : Controls) (id : Nat) (event : StreamEvent) :
    (c.streamEvent id event).resets = c.resets := by
  unfold streamEvent
  split
  · rfl
  · exact resets_followStream _ id _ _

theorem Carries.streamEvent {c reached : Controls} (carries : Carries c reached) (id : Nat)
    (event : StreamEvent) : Carries c (reached.streamEvent id event) where
  closes := carries.closes.trans_evolves (evolves_closes_streamEvent reached id event)
  resets := by
    rw [resets_streamEvent]
    exact carries.resets

/-- A table after a first send: every path it went to was remembered. -/
inductive Noted {Body : Type}
    (remember : OrdMap Nat (Outstanding Body) → Nat → Nat → OrdMap Nat (Outstanding Body))
    (table : OrdMap Nat (Outstanding Body)) : OrdMap Nat (Outstanding Body) → Prop where
  | nothing : Noted remember table table
  | path {later : OrdMap Nat (Outstanding Body)} (before : Noted remember table later)
      (path now : Nat) : Noted remember table (remember later path now)

theorem Noted.extends {Body : Type} {table later : OrdMap Nat (Outstanding Body)}
    {remember : OrdMap Nat (Outstanding Body) → Nat → Nat → OrdMap Nat (Outstanding Body)}
    (noted : Noted remember table later)
    (grows : ∀ table path now, Extends table (remember table path now)) : Extends table later := by
  induction noted with
  | nothing => exact .refl table
  | path before path now inductionHypothesis => exact inductionHypothesis.trans (grows _ path now)

/-- The first send of a close: at most two sends, and what `closes` then remembers. -/
theorem sendClose_eq (c : Controls) (id : Nat) (body : CloseBody) :
    ∃ s closes, c.sendClose cfg id body = { c with session := s, closes := closes } ∧
      Session.Offers c.session s 2 ∧
      Noted (fun closes path now => rememberClose closes id path now body) c.closes closes := by
  have first := fun path => @Session.offers_sendOnPath cfg.toSessionConfig c.session path
    (.streamClose ⟨id, body.finalOffset⟩)
  unfold sendClose
  split
  · exact ⟨c.session, c.closes, rfl, (Session.Offers.refl _).weaken (Nat.zero_le 2), .nothing⟩
  · rename_i path _
    have sent := first path
    dsimp only
    split
    · rename_i s found
      rw [found] at sent
      exact ⟨_, _, rfl, sent.weaken (Nat.le_succ 1), .path .nothing path c.session.now⟩
    · rename_i s found
      rw [found] at sent
      split
      · exact ⟨_, _, rfl, sent.weaken (Nat.le_succ 1), .path .nothing path c.session.now⟩
      · rename_i alt _
        exact ⟨_, _, rfl, sent.trans (Session.offers_sendOnPath s alt _),
          .path (.path .nothing path c.session.now) alt s.now⟩

/-- The first send of a reset; without a path it is remembered for path 0. -/
theorem sendReset_eq (c : Controls) (id : Nat) (why : ResetReason) :
    ∃ s resets, c.sendReset cfg id why = { c with session := s, resets := resets } ∧
      Session.Offers c.session s 2 ∧
      Noted (fun resets path now => rememberReset resets id path now why) c.resets resets := by
  have first := fun path => @Session.offers_sendOnPath cfg.toSessionConfig c.session path
    (.streamReset ⟨id, why⟩)
  unfold sendReset
  split
  · exact ⟨c.session, _, rfl, (Session.Offers.refl _).weaken (Nat.zero_le 2),
      .path .nothing 0 c.session.now⟩
  · rename_i path _
    have sent := first path
    dsimp only
    split
    · rename_i s found
      rw [found] at sent
      exact ⟨_, _, rfl, sent.weaken (Nat.le_succ 1), .path .nothing path c.session.now⟩
    · rename_i s found
      rw [found] at sent
      split
      · exact ⟨_, _, rfl, sent.weaken (Nat.le_succ 1), .path .nothing path c.session.now⟩
      · rename_i alt _
        exact ⟨_, _, rfl, sent.trans (Session.offers_sendOnPath s alt _),
          .path (.path .nothing path c.session.now) alt s.now⟩

theorem carries_sendClose {c reached : Controls} (closes : reached.closes = c.closes)
    (resets : reached.resets = c.resets) (id : Nat) (body : CloseBody) :
    Carries c (reached.sendClose cfg id body) := by
  obtain ⟨s, table, same, _, noted⟩ := @sendClose_eq cfg reached id body
  rw [same]
  have grown := noted.extends fun closes path now => extends_rememberClose closes id path now body
  exact ⟨closes ▸ grown.succeeds, resets ▸ (Evolves.refl reached.resets).succeeds⟩

theorem carries_closeSend (c : Controls) (id : Nat) : Carries c (c.closeSend cfg id) := by
  unfold closeSend
  split
  · exact .of_same rfl rfl
  · split
    · exact .of_same rfl rfl
    · apply Carries.streamEvent
      apply carries_sendClose
      · rfl
      · rfl

theorem carries_sendReset (c : Controls) (id : Nat) (why : ResetReason) :
    Carries c (c.sendReset cfg id why) := by
  obtain ⟨s, table, same, _, noted⟩ := @sendReset_eq cfg c id why
  rw [same]
  have grown := noted.extends fun resets path now => extends_rememberReset resets id path now why
  exact ⟨(Evolves.refl c.closes).succeeds, grown.succeeds⟩

theorem closes_sendReset (c : Controls) (id : Nat) (why : ResetReason) :
    (c.sendReset cfg id why).closes = c.closes := by
  obtain ⟨s, table, same, _, _⟩ := @sendReset_eq cfg c id why
  rw [same]

theorem carries_forgetReset (c : Controls) (id : Nat) : Carries c (c.forgetReset id) :=
  ⟨(Evolves.refl c.closes).succeeds, (evolves_erase c.resets id).succeeds⟩

theorem Carries.forgetLingerReset {c reached : Controls} (carries : Carries c reached) (id : Nat)
    (st : StreamState) (reason : ResetReason) :
    Carries c (reached.forgetLingerReset id st reason) := by
  unfold Controls.forgetLingerReset
  split
  · exact ⟨carries.closes, carries.resets.trans_evolves (evolves_erase reached.resets id)⟩
  · exact carries

theorem carries_finishStream (c : Controls) (id : Nat) (reason : ResetReason)
    (sendFrame : Bool) : Carries c (c.finishStream cfg id reason sendFrame) := by
  unfold finishStream
  split
  · exact .of_same rfl rfl
  · refine Carries.streamEvent (Carries.forgetLingerReset ?_ id _ reason) id _
    split
    · exact .of_same rfl rfl
    · split
      · exact carries_sendReset c id reason
      · exact carries_forgetReset c id

/-- Without a frame to send, a stream ends without an entry. -/
theorem evolves_resets_finishStream (c : Controls) (id : Nat) (reason : ResetReason) :
    Evolves c.resets (c.finishStream cfg id reason false).resets := by
  unfold finishStream
  split
  · exact .refl c.resets
  · rw [resets_streamEvent]
    have forgotten : ∀ reached : Controls, ∀ st, Evolves c.resets reached.resets →
        Evolves c.resets (reached.forgetLingerReset id st reason).resets := by
      intro reached st evolved
      unfold forgetLingerReset
      split
      · exact evolved.trans (evolves_erase reached.resets id)
      · exact evolved
    apply forgotten
    simp only [Bool.false_and, Bool.false_eq_true, if_false]
    split
    · exact .refl c.resets
    · exact evolves_erase c.resets id

theorem carries_onPeerReset (c : Controls) (id : Nat) (reason : ResetReason) :
    Carries c (c.onPeerReset cfg id reason) where
  closes := (carries_finishStream (c.forgetReset id) id reason false).closes
  resets := ((evolves_erase c.resets id).trans
    (evolves_resets_finishStream (c.forgetReset id) id reason)).succeeds

theorem carries_reapHalfClosed (c : Controls) (id : Nat) :
    Carries c (c.reapHalfClosed cfg id) := by
  unfold reapHalfClosed
  split
  · exact .of_same rfl rfl
  · dsimp only
    split
    · exact carries_finishStream c id .timeout true
    · refine Carries.streamEvent ?_ id _
      split
      · exact .of_same rfl rfl
      · split
        · exact carries_forgetReset c id
        · split
          · exact carries_sendReset c id .timeout
          · exact .of_same rfl rfl

theorem carries_reapStream (c : Controls) (id : Nat) : Carries c (c.reapStream cfg id) := by
  unfold reapStream
  split
  · exact .of_same rfl rfl
  · split
    · exact carries_finishStream c id .timeout true
    · exact (Carries.of_same rfl rfl).streamEvent id _

theorem evolves_closes_finishStream (c : Controls) (id : Nat) (reason : ResetReason)
    (sendFrame : Bool) : Evolves c.closes (c.finishStream cfg id reason sendFrame).closes := by
  unfold finishStream
  split
  · exact .refl c.closes
  · refine Evolves.trans ?_ (evolves_closes_streamEvent _ id _)
    have same : ∀ reached : Controls, ∀ st, reached.closes = c.closes →
        (reached.forgetLingerReset id st reason).closes = c.closes := by
      intro reached st closes
      unfold forgetLingerReset
      split
      · exact closes
      · exact closes
    rw [same]
    · exact .refl c.closes
    · split
      · rfl
      · split
        · exact closes_sendReset c id reason
        · rfl

theorem carries_markDead (c : Controls) (sendFrames : Bool) :
    Carries c (c.markDead cfg sendFrames) := by
  unfold markDead
  split
  · exact .of_same rfl rfl
  · refine ⟨Evolves.succeeds ?_, (evolves_empty c.resets).succeeds⟩
    refine (evolves_empty c.closes).trans ?_
    have fold : ∀ (ids : List Nat) (reached : Controls), Evolves reached.closes
        (ids.foldl (fun c id => c.finishStream cfg id .sessionDead sendFrames) reached).closes := by
      intro ids
      induction ids with
      | nil => exact fun reached => .refl reached.closes
      | cons id rest inductionHypothesis =>
          exact fun reached => (evolves_closes_finishStream reached id .sessionDead
            sendFrames).trans (inductionHypothesis _)
    exact fold _ { c with dead := true, closes := .empty }

theorem carries_openStream {c next : Controls} {id : Nat} {target : Target}
    (opened : c.openStream cfg id target = some next) : Carries c next := by
  unfold openStream at opened
  split at opened
  · cases opened
  · obtain ⟨path, _, rfl⟩ := Option.map_eq_some_iff.mp opened
    dsimp only
    split
    · exact .of_same rfl rfl
    · split
      · exact .of_same rfl rfl
      · split
        · exact .of_same rfl rfl
        · exact .of_same rfl rfl

theorem carries_step {c next : Controls} {action : ControlAction}
    (taken : step cfg c action = some next) : Carries c next := by
  cases action with
  | tick us =>
      cases taken
      exact .of_same rfl rfl
  | pool paths =>
      cases taken
      exact .of_same rfl rfl
  | openStream id target => exact carries_openStream taken
  | accept id path =>
      simp only [step, accept] at taken
      split at taken
      · cases taken
      · cases taken
        exact .of_same rfl rfl
  | sendPiece id piece path =>
      cases taken
      exact .of_same rfl rfl
  | ack body =>
      cases taken
      unfold onAck
      split
      · exact .of_same rfl rfl
      · exact .of_same rfl rfl
  | arrival id event =>
      simp only [step] at taken
      split at taken
      · cases taken
        exact (Carries.of_same rfl rfl).streamEvent id event
      · cases taken
  | closeSend id =>
      cases taken
      exact carries_closeSend c id
  | resetStream id reason =>
      cases taken
      exact carries_finishStream c id reason true
  | peerReset reset =>
      cases taken
      exact carries_onPeerReset c reset.streamId reset.reason
  | reapHalfClosed id =>
      cases taken
      exact carries_reapHalfClosed c id
  | reapStream id =>
      cases taken
      exact carries_reapStream c id
  | markDead sendFrames =>
      cases taken
      exact carries_markDead c sendFrames
  | retryOpens =>
      cases taken
      exact .of_same rfl rfl
  | retryCloses =>
      cases taken
      exact ⟨(Work.evolves_retryCloses ⟨c.session, c.closes, c.attempts⟩).succeeds,
        (Evolves.refl c.resets).succeeds⟩
  | retryResets =>
      cases taken
      exact ⟨(Evolves.refl c.closes).succeeds,
        (Work.evolves_retryResets ⟨c.session, c.resets, c.attempts⟩).succeeds⟩
  | retryOpenFrom dead =>
      cases taken
      exact .of_same rfl rfl
  | retryCloseFrom dead =>
      cases taken
      exact ⟨(Work.evolves_retryCloseFrom dead ⟨c.session, c.closes, c.attempts⟩).succeeds,
        (Evolves.refl c.resets).succeeds⟩
  | retryResetFrom dead =>
      cases taken
      exact ⟨(Evolves.refl c.closes).succeeds,
        (Work.evolves_retryResetFrom dead ⟨c.session, c.resets, c.attempts⟩).succeeds⟩

/-- Every remembered close and reset is sound. -/
structure EntriesSound (c : Controls) : Prop where
  closes : ∀ id o, c.closes.get? id = some o → o.Sound
  resets : ∀ id o, c.resets.get? id = some o → o.Sound

theorem entriesSound_of_reachable {c : Controls} (reachable : (machine cfg).Reachable c) :
    EntriesSound c := by
  refine reachable.invariant EntriesSound ?_ ?_
  · rintro _ ⟨isClient, rfl⟩
    constructor
    · intro id o impossible
      cases impossible
    · intro id o impossible
      cases impossible
  · intro c action next sound taken
    have carries := carries_step taken
    exact ⟨carries.closes.sound sound.closes, carries.resets.sound sound.resets⟩

end Controls

/-! ## One call for one entry -/

namespace Work

variable {Body : Type}

/-- The sends of the entry's frame in a call. -/
def copies (rules : RetryRules Body) (w after : Work Body) (id : Nat) (o : Outstanding Body) :
    List Attempt :=
  (made w after).filter fun made => made.frame = rules.frame id o.body

/-- A call sends the frame at most once, never to a path recorded before (of at most eight); a
refusal leaves the list of tried paths, and a path that took the frame is recorded. -/
structure VisitsOnce (rules : RetryRules Body) (w after : Work Body) (id : Nat)
    (o : Outstanding Body) : Prop where
  distinct : o.recorded.Nodup
  single : (copies rules w after id o).length ≤ 1
  fresh : o.recorded.length ≤ 8 →
    ∀ attempt ∈ copies rules w after id o, attempt.path ∉ o.recorded
  refused : ∀ attempt ∈ copies rules w after id o, attempt.taken = false →
    ∃ o', after.table.get? id = some o' ∧ o'.tried = o.tried
  recorded : ∀ attempt ∈ copies rules w after id o, attempt.taken = true →
    ∃ o', after.table.get? id = some o' ∧ attempt.path ∈ o'.recorded

/-- A pass tries a path that was not tried yet, if there is one. -/
def TriesNext (cfg : SessionConfig) (rules : RetryRules Body) (w after : Work Body) (id : Nat)
    (o : Outstanding Body) : Prop :=
  young cfg w.session o = true → rules.forget w.session id o = false →
    isDue cfg w.session o = true → (∃ alt, w.session.aliveAt alt = true ∧ alt ∉ o.tried) →
    ∃ attempt ∈ copies rules w after id o,
      w.session.aliveAt attempt.path = true ∧ attempt.path ∉ o.tried

variable {cfg : SessionConfig} {rules : RetryRules Body}
  {due : Session → Outstanding Body → Bool}
  {refused : Nat → Outstanding Body → Outstanding Body} {w after : Work Body} {id : Nat}
  {o : Outstanding Body}

theorem visitsOnce_of_no_copy (sound : o.Sound) (none : copies rules w after id o = []) :
    VisitsOnce rules w after id o := by
  refine ⟨sound.distinct, ?_, ?_, ?_, ?_⟩
  · rw [none]
    exact Nat.zero_le 1
  all_goals
    rw [none]
    intros
    contradiction

theorem copies_eq_nil
    (different : ∀ attempt ∈ made w after, attempt.frame ≠ rules.frame id o.body) :
    copies rules w after id o = [] :=
  List.filter_eq_nil_iff.mpr fun attempt membership => by simpa using different attempt membership

theorem Visit.visitsOnce {slots : Nat}
    (visit : Visit cfg rules (fun tried alt => alt ∉ tried) due refused slots w after id o)
    (sound : o.Sound) (keeps : ∀ alt o, (refused alt o).tried = o.tried) :
    VisitsOnce rules w after id o := by
  cases visit with
  | idle different => exact visitsOnce_of_no_copy sound (copies_eq_nil different)
  | tried attempt only alive fits running clock kept =>
      have single : copies rules w after id o = [attempt] := only
      refine ⟨sound.distinct, ?_, ?_, ?_, ?_⟩
      · rw [single]
        exact le_rfl
      all_goals
        rw [single]
      · intro short other membership
        obtain rfl := List.mem_singleton.mp membership
        exact fun recorded => fits (sound.complete short _ recorded)
      · intro other membership failed
        obtain rfl := List.mem_singleton.mp membership
        rw [failed] at kept
        exact ⟨_, kept, keeps _ o⟩
      · intro other membership success
        obtain rfl := List.mem_singleton.mp membership
        rw [success] at kept
        exact ⟨_, kept, mem_note.mpr (.inl rfl)⟩

/-- An entry outside the snapshot is not sent. -/
theorem copies_of_not_selected {eligible : List Nat → Nat → Prop}
    (follows : rules.Follows eligible)
    (steady : ∀ s t n o, Session.Offers s t n → due t o = due s o)
    {select : Outstanding Body → Bool} (outside : ∀ o, w.table.get? id = some o →
      select o = false) (o : Outstanding Body) :
    copies rules w (w.retryAll cfg rules due refused select) id o = [] := by
  have passed := @passed_foldl Body cfg rules due refused steady
    (w.table.entries.filter fun entry => select entry.2) w
  obtain ⟨sent, attempts, different⟩ := passed.no_copy follows
    (not_mem_snapshot outside) o.body
  refine copies_eq_nil ?_
  have same : made w (w.retryAll cfg rules due refused select) = sent := made_eq attempts
  rw [same]
  exact different

/-! ## The four calls -/

/-- The pass of the timer over one of the tables. -/
theorem visitsOnce_timer (follows : rules.Follows fun tried alt => alt ∉ tried)
    (found : w.table.get? id = some o) (sound : o.Sound) :
    VisitsOnce rules w ((w.reap cfg).retryAll cfg rules (isDue cfg)
      (fun _ o => o.postpone w.session.now) fun _ => true) id o := by
  cases recent : young cfg w.session o with
  | true =>
      have visit := (timer_visit follows found recent).visitsOnce sound fun _ _ => rfl
      exact { visit with }
  | false =>
      refine visitsOnce_of_no_copy sound ?_
      refine @copies_of_not_selected Body cfg rules (isDue cfg)
        (fun _ o => o.postpone w.session.now) (w.reap cfg) id _ follows steady_isDue
        (fun _ => true) ?_ o
      intro held inReaped
      obtain ⟨before, kept⟩ := OrdMap.get?_filter_eq_some_iff.mp inReaped
      obtain rfl : held = o := Option.some.inj (before.symm.trans found)
      exact absurd (recent.symm.trans kept) Bool.false_ne_true

/-- The pass after a path failed. -/
theorem visitsOnce_from (follows : rules.Follows fun tried alt => alt ∉ tried)
    (select : Outstanding Body → Bool) (found : w.table.get? id = some o) (sound : o.Sound) :
    VisitsOnce rules w (w.retryAll cfg rules (fun _ _ => true) (fun _ o => o) select) id o := by
  cases selected : select o with
  | true =>
      exact (retryAll_visit follows steady_always found selected).visitsOnce sound
        fun _ _ => rfl
  | false =>
      refine visitsOnce_of_no_copy sound ?_
      refine copies_of_not_selected follows steady_always ?_ o
      intro held inTable
      obtain rfl : held = o := Option.some.inj (inTable.symm.trans found)
      exact selected

theorem triesNext_timer (follows : rules.Follows fun tried alt => alt ∉ tried)
    (found : w.table.get? id = some o) :
    TriesNext cfg rules w ((w.reap cfg).retryAll cfg rules (isDue cfg)
      (fun _ o => o.postpone w.session.now) fun _ => true) id o := by
  intro recent running clock path
  cases timer_visit follows found recent with
  | idle different kept nowhere =>
      obtain ⟨alt, alive, untried⟩ := path
      exact absurd untried (nowhere running clock alt alive)
  | tried attempt only alive fits =>
      have single : copies rules w _ id o = [attempt] := only
      rw [single]
      exact ⟨attempt, List.mem_singleton_self attempt, alive, fits⟩

end Work

namespace Controls

def closeWork (c : Controls) : Work CloseBody := ⟨c.session, c.closes, c.attempts⟩

def resetWork (c : Controls) : Work ResetReason := ⟨c.session, c.resets, c.attempts⟩

/-- What was recorded for an entry stays recorded while it lasts. -/
def KeepsRecorded {Body : Type} (table later : OrdMap Nat (Outstanding Body)) : Prop :=
  ∀ id o o', table.get? id = some o → later.get? id = some o' →
    ∀ path ∈ o.recorded, path ∈ o'.recorded

/-- The retries of a StreamClose or a StreamReset go to each of up to eight recorded paths at
most once and to every path they find. -/
theorem retries_visit_each_path (cfg : PickConfig) {c : Controls}
    (reachable : (machine cfg).Reachable c) :
    (∀ id o, c.closes.get? id = some o →
      c.closeWork.VisitsOnce (closeRules cfg.toSessionConfig)
        (c.closeWork.retryCloses cfg.toSessionConfig) id o ∧
      (∀ dead, c.closeWork.VisitsOnce (closeRules cfg.toSessionConfig)
        (c.closeWork.retryCloseFrom cfg.toSessionConfig dead) id o) ∧
      c.closeWork.TriesNext cfg.toSessionConfig (closeRules cfg.toSessionConfig)
        (c.closeWork.retryCloses cfg.toSessionConfig) id o) ∧
    (∀ id o, c.resets.get? id = some o →
      c.resetWork.VisitsOnce (resetRules cfg.toSessionConfig)
        (c.resetWork.retryResets cfg.toSessionConfig) id o ∧
      (∀ dead, c.resetWork.VisitsOnce (resetRules cfg.toSessionConfig)
        (c.resetWork.retryResetFrom cfg.toSessionConfig dead) id o) ∧
      c.resetWork.TriesNext cfg.toSessionConfig (resetRules cfg.toSessionConfig)
        (c.resetWork.retryResets cfg.toSessionConfig) id o) ∧
    ∀ action next, step cfg c action = some next →
      KeepsRecorded c.closes next.closes ∧ KeepsRecorded c.resets next.resets := by
  have sound := entriesSound_of_reachable reachable
  refine ⟨?_, ?_, ?_⟩
  · intro id o found
    have follows := follows_closeRules cfg.toSessionConfig
    exact ⟨Work.visitsOnce_timer follows found (sound.closes id o found),
      fun dead => Work.visitsOnce_from follows _ found (sound.closes id o found),
      Work.triesNext_timer follows found⟩
  · intro id o found
    have follows := follows_resetRules cfg.toSessionConfig
    exact ⟨Work.visitsOnce_timer follows found (sound.resets id o found),
      fun dead => Work.visitsOnce_from follows _ found (sound.resets id o found),
      Work.triesNext_timer follows found⟩
  · intro action next taken
    have carries := carries_step taken
    exact ⟨fun id o o' before after path => carries.closes.recorded before after,
      fun id o o' before after path => carries.resets.recorded before after⟩

theorem retries_visit_each_path_joined : ∃ c : Controls, (machine .standard).Reachable c ∧
    c.closeWork.VisitsOnce (closeRules SessionConfig.standard)
      (c.closeWork.retryCloses SessionConfig.standard) 1 (.first 1 0 ⟨false, some 0⟩) ∧
    c.resetWork.VisitsOnce (resetRules SessionConfig.standard)
      (c.resetWork.retryResetFrom SessionConfig.standard 1) 2 (.first 1 0 .timeout) := by
  have replayed : ∃ c, (machine .standard).run (.new true) joinedLater = some c ∧
      c.closes.get? 1 = some (.first 1 0 ⟨false, some 0⟩) ∧
      c.resets.get? 2 = some (.first 1 0 .timeout) := by
    refine ⟨_, rfl, ?_⟩
    decide +kernel
  obtain ⟨c, replay, closed, reset⟩ := replayed
  have reachable := (reachable_new .standard true).run replay
  obtain ⟨closes, resets, _⟩ := retries_visit_each_path .standard reachable
  exact ⟨c, reachable, (closes 1 _ closed).1, (resets 2 _ reset).2.1 1⟩

end Controls

end NyaLink
