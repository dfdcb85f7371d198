import StartPage.Proofs.Store.Solo

/-!
What the counters of a store say. Every update that a ready store commits, and the write that its
load may ask for, is counted when it is scheduled; every attempt is counted once it has ended, in
one of two ways. What was scheduled and not yet attempted is pending, waits in the queue, or was
overtaken, so the counters never run ahead of each other and never run back.
-/
namespace StartPage

def Tally.AtMost (tally later : Tally) : Prop :=
  tally.scheduled ≤ later.scheduled ∧ tally.completed ≤ later.completed ∧
    tally.failed ≤ later.failed

theorem Tally.AtMost.trans {first second third : Tally} (before : first.AtMost second)
    (after : second.AtMost third) : first.AtMost third :=
  ⟨before.1.trans after.1, before.2.1.trans after.2.1, before.2.2.trans after.2.2⟩

namespace Writer

def current? (writer : Writer) : Option Attempt :=
  match writer.activity with
  | .writing attempt => some attempt
  | _ => none

theorem current?_of_idle {writer : Writer} (idle : writer.activity = .idle) :
    writer.current? = none := by
  rw [current?, idle]

theorem current?_conclude (writer : Writer) (sequel : Sequel) (succeeded : Bool) :
    (writer.conclude sequel succeeded).current? = none := by
  cases sequel <;> rfl

/-- Every attempt, the pending revision and every command in the queue has a number of its own. -/
theorem Orderly.tally_le {writer : Writer} (orderly : writer.Orderly) (counted : writer.Counted) :
    writer.completed + writer.failed + writer.activity.writes + writer.pending.toList.length +
      (writer.queue.filterMap Command.revision?).length ≤ writer.scheduled := by
  have all := orderly.revisions_length_le
  rw [Writer.Counted] at counted
  rw [orderly.counted, ← counted]
  simpa [revisions, Nat.add_assoc] using all

end Writer

namespace Store

def current? (store : Store) : Option Attempt := store.writer.bind Writer.current?

/-- No write ended: the one in progress still is, and nothing but what is scheduled was counted. -/
structure Spared (store after : Store) : Prop where
  scheduled : store.tally.scheduled ≤ after.tally.scheduled
  completed : after.tally.completed = store.tally.completed
  failed : after.tally.failed = store.tally.failed
  current : ∀ attempt, store.current? = some attempt → after.current? = some attempt

namespace Spared

variable {store after last : Store}

theorem of_writer_eq (same : after.writer = store.writer) : store.Spared after where
  scheduled := by rw [tally, tally, same]
  completed := by rw [tally, tally, same]
  failed := by rw [tally, tally, same]
  current := by
    rw [current?, current?, same]
    exact fun _ writing => writing

theorem refl (store : Store) : store.Spared store := of_writer_eq rfl

theorem trans (first : store.Spared after) (second : after.Spared last) : store.Spared last where
  scheduled := first.scheduled.trans second.scheduled
  completed := second.completed.trans first.completed
  failed := second.failed.trans first.failed
  current := fun attempt writing => second.current attempt (first.current attempt writing)

theorem of_writer {before writer : Writer} (present : store.writer = some before)
    (scheduled : before.scheduled ≤ writer.scheduled)
    (completed : writer.completed = before.completed) (failed : writer.failed = before.failed)
    (current : ∀ attempt, before.current? = some attempt → writer.current? = some attempt) :
    store.Spared { store with writer := some writer } := by
  constructor
  · rw [tally, tally, present]
    exact scheduled
  · rw [tally, tally, present]
    exact completed
  · rw [tally, tally, present]
    exact failed
  · rw [current?, current?, present]
    exact current

theorem of_map (store : Store) {change : Writer → Writer}
    (scheduled : ∀ writer : Writer, writer.scheduled ≤ (change writer).scheduled)
    (counted : ∀ writer : Writer, (change writer).completed = writer.completed ∧
      (change writer).failed = writer.failed ∧ (change writer).activity = writer.activity) :
    store.Spared { store with writer := store.writer.map change } := by
  apply mapWriter_keep store.Spared (.refl store)
  intro writer present
  obtain ⟨completed, failed, activity⟩ := counted writer
  refine of_writer present (scheduled writer) completed failed fun attempt writing => ?_
  rwa [Writer.current?, activity]

theorem of_unwritten (unwritten : store.writer = none) (completed : after.tally.completed = 0)
    (failed : after.tally.failed = 0) : store.Spared after where
  scheduled := by
    rw [tally, unwritten]
    exact Nat.zero_le _
  completed := by rw [completed, tally, unwritten]
  failed := by rw [failed, tally, unwritten]
  current := by
    rw [current?, unwritten]
    intro attempt writing
    cases writing

end Spared

variable {store after : Store}

theorem schedule_spared (store : Store) (settings : Settings) :
    store.Spared ({ store with settings }.schedule) := by
  have same : store.Spared { store with settings } := .of_writer_eq rfl
  refine same.trans (Spared.of_map { store with settings } ?_ ?_)
  · intro writer
    unfold Writer.schedule
    split
    · exact Nat.le_refl _
    · exact Nat.le_succ _
  · intro writer
    unfold Writer.schedule Writer.send
    split <;> exact ⟨rfl, rfl, rfl⟩

theorem commit_spared (store : Store) (request : Except Error Patch) :
    store.Spared (store.commit request).1 := by
  rcases store.commit_cases request with same | ⟨patch, _, same⟩ | ⟨patch, _, same⟩ <;> rw [same]
  · exact .refl store
  · exact .of_writer_eq rfl
  · exact schedule_spared store _

theorem commits_spared {calls : List (Except Error Patch × Except Error Settings)}
    (commits : Audience.Commits Store.commit store calls after) : store.Spared after :=
  commits.keep (store.Spared ·)
    (fun host request spared => spared.trans (host.commit_spared request))
    (.refl store)

theorem commits_scheduled {calls : List (Except Error Patch × Except Error Settings)}
    (commits : Audience.Commits Store.commit store calls after) (orderly : store.Orderly)
    (opened : store.Open) (ready : store.phase = .ready) :
    after.tally.scheduled = store.tally.scheduled + (changes calls).length := by
  obtain ⟨writer, present⟩ := Option.isSome_iff_exists.mp (orderly.ready ready).1
  have running := (orderly.writer writer present).not_stopped (opened writer present)
  rw [tally, tally, commits_schedule commits ready, present, Option.map_some,
    Writer.schedule_all running]

theorem becomeReady_tally (store : Store) (loaded : Settings) (migrated : Bool) :
    (store.becomeReady loaded migrated).tally =
      ⟨(migrated || !store.queued.isEmpty).toNat, 0, 0⟩ := by
  rw [becomeReady_eq]
  cases migrated || !store.queued.isEmpty <;> rfl

end Store

namespace Timeline

variable {Place : Type} [Backend Place] {disturb : Place → Place → Prop}

/-- Runs with how many updates that are not empty their store committed while it was ready, those of
listeners among them, and with whether the load that completed scheduled a write. -/
inductive Reckoned (disturb : Place → Place → Prop) (start : Timeline Place) :
    Nat → Bool → Timeline Place → Prop where
  | start : Reckoned disturb start 0 false start
  | step {updates : Nat} {wrote : Bool} {time after : Timeline Place}
      (reckoned : Reckoned disturb start updates wrote time) (step : Step disturb time after)
      (same : after.store.phase = .ready ↔ time.store.phase = .ready) :
      Reckoned disturb start updates wrote after
  | loaded {updates : Nat} {earlier wrote : Bool} {time : Timeline Place} {tenant : Tenant}
      (reckoned : Reckoned disturb start updates earlier time)
      (reading : time.tenant.loads.reading.isSome = true)
      (step : time.tenant.stepLoad? time.now time.readDelay time.place = some tenant)
      (news : wrote = true ↔ time.store.HasNews time.readNow) :
      Reckoned disturb start
        (updates + (changes (time.tenant.live.readyCalls time.readNow)).length) wrote
        { time with tenant }
  | queued {updates : Nat} {wrote : Bool} {time : Timeline Place}
      (reckoned : Reckoned disturb start updates wrote time)
      (held : time.tenant.released = false) (unready : time.store.phase ≠ .ready)
      (patch : Patch) : Reckoned disturb start updates wrote (time.update patch).1
  | update {updates : Nat} {wrote : Bool} {time : Timeline Place}
      (reckoned : Reckoned disturb start updates wrote time)
      (held : time.tenant.released = false) (ready : time.store.phase = .ready) (patch : Patch) :
      Reckoned disturb start (updates + (changes (time.tenant.live.calls patch)).length) wrote
        (time.update patch).1

theorem Reckoned.run {start time : Timeline Place} {updates : Nat} {wrote : Bool}
    (reckoned : Reckoned disturb start updates wrote time) : Run disturb start time := by
  induction reckoned with
  | start => exact .start
  | step _ step _ ih => exact ih.step step
  | loaded _ _ step _ ih => exact ih.step (.turn (.gate step))
  | queued _ held _ patch ih => exact ih.update held patch
  | update _ held _ patch ih => exact ih.update held patch

theorem Run.reckoned {start time : Timeline Place} (run : Run disturb start time) :
    ∃ updates wrote, Reckoned disturb start updates wrote time := by
  induction run with
  | start => exact ⟨_, _, .start⟩
  | @step time _ _ step ih =>
    obtain ⟨updates, wrote, reckoned⟩ := ih
    rcases step_frame step with ⟨_, _, same⟩ | ⟨reading, tenant, rfl, ended⟩
    · exact ⟨_, _, reckoned.step step same⟩
    · exact ⟨_, _, reckoned.loaded reading ended (time.store.hasNews_iff time.readNow).symm⟩
  | @update time _ held patch ih =>
    obtain ⟨updates, wrote, reckoned⟩ := ih
    by_cases ready : time.store.phase = .ready
    · exact ⟨_, _, reckoned.update held ready patch⟩
    · exact ⟨_, _, reckoned.queued held ready patch⟩

section Fresh

variable {store : Store} {place : Place} {time after : Timeline Place}
variable {updates : Nat} {wrote : Bool}

theorem Run.unwritten (fresh : store.Fresh) (run : Run disturb (Timeline.start store place) time)
    (unready : time.store.phase ≠ .ready) : time.store.writer = none :=
  ((run.orderly fresh).unready unready).1

theorem Run.keyed {place : Memory} {time : Timeline Memory} (fresh : store.Fresh)
    (run : Run Memory.Faults (Timeline.start store place) time) {writer : Writer}
    (present : time.store.writer = some writer) : writer.key = time.store.config.key := by
  obtain ⟨config, chain, host, made, codec, new, rfl⟩ := id fresh
  have madeWith : (made.withCodec codec).MadeWith config chain codec := by
    rw [Store.new_eq new]
    exact ⟨rfl, rfl, rfl⟩
  obtain ⟨-, faithful, -⟩ :=
    (run.life fresh.writer).1.durable (Store.orderly_of_fresh fresh) fresh.writer madeWith
  exact (faithful.writer writer present).keyed

theorem Run.tally_of_unready (fresh : store.Fresh)
    (run : Run disturb (Timeline.start store place) time) (unready : time.store.phase ≠ .ready) :
    time.store.tally = {} := by
  rw [Store.tally, run.unwritten fresh unready]

theorem Reckoned.scheduled_eq (fresh : store.Fresh)
    (reckoned : Reckoned disturb (Timeline.start store place) updates wrote time) :
    time.store.tally.scheduled = updates + wrote.toNat := by
  induction reckoned with
  | start =>
    have unwritten : (Timeline.start store place).store.writer = none := fresh.writer
    rw [Store.tally, unwritten]
    rfl
  | @step updates wrote time after reckoned step same ih =>
    rw [← ih]
    by_cases ready : time.store.phase = .ready
    · exact (step.wentOn ready (reckoned.run.unread fresh ready)).scheduled
    · have unready : after.store.phase ≠ .ready := fun now => ready (same.mp now)
      rw [(reckoned.run.step step).tally_of_unready fresh unready,
        reckoned.run.tally_of_unready fresh ready]
  | @loaded updates earlier wrote time tenant reckoned reading step news ih =>
    have unready := (reckoned.run.life fresh.writer).2.reading reading
    rw [reckoned.run.tally_of_unready fresh unready] at ih
    have none : updates = 0 := by
      change 0 = updates + earlier.toNat at ih
      omega
    have opened : tenant.live = (time.tenant.live.becomeReady time.readNow).1 := by
      rcases Tenant.stepLoad?_cases step with ⟨-, live⟩ | ⟨absent, -⟩
      · exact live
      · rw [absent] at reading
        cases reading
    have scheduled := Store.commits_scheduled
      (time.tenant.live.becomeReady_commits time.readNow) (Store.becomeReady_orderly ..)
      (Store.becomeReady_open _ _ _) (Store.becomeReady_phase ..)
    have asked : wrote = ((time.store.readBack time.readNow).2 || !time.store.queued.isEmpty) :=
      Bool.eq_iff_iff.mpr (news.trans (time.store.hasNews_iff time.readNow))
    change tenant.live.host.tally.scheduled = _
    rw [opened, scheduled, Store.becomeReady_tally, asked, none]
    exact Nat.add_comm _ _ |>.trans (by rw [Nat.zero_add]; rfl)
  | @queued updates wrote time reckoned held unready patch ih =>
    have phase := (time.tenant.live.update_commits patch).keep
      (fun store => store.phase = time.store.phase)
      (fun host request kept => (host.commit_phase request).trans kept) rfl
    rw [← ih, reckoned.run.tally_of_unready fresh unready,
      (reckoned.run.update held patch).tally_of_unready fresh fun now => unready (phase ▸ now)]
  | @update updates wrote time reckoned held ready patch ih =>
    obtain ⟨-, tidy⟩ := reckoned.run.life fresh.writer
    have scheduled := Store.commits_scheduled (time.tenant.live.update_commits patch)
      (reckoned.run.orderly fresh) (tidy.held held) ready
    rw [Nat.add_right_comm, ← ih]
    exact scheduled

end Fresh

section Endings

variable {store : Store} {memory : Memory} {time after : Timeline Memory}

/-- How an attempt ended: its bytes are in the place and one more was completed, or the place and
the state of the store are as they were and one more failed. -/
inductive Ended (time after : Timeline Memory) (attempt : Attempt) : Prop where
  | completed {bytes : Bytes} (encoded : attempt.bytes = some bytes)
      (stored : after.place.get? time.store.config.key = some bytes)
      (writes : after.place.writes = time.place.writes + 1)
      (tally : after.store.tally =
        { time.store.tally with completed := time.store.tally.completed + 1 })
  | failed (place : after.place = time.place)
      (state : after.store = { time.store with writer := after.store.writer })
      (tally : after.store.tally = { time.store.tally with failed := time.store.tally.failed + 1 })

theorem finish_ended {writer : Writer} (present : time.store.writer = some writer)
    (keyed : writer.key = time.store.config.key) (attempt : Attempt) :
    Ended time
      { time with
        tenant := time.tenant.withWriter (writer.finish attempt time.place).1
        place := (writer.finish attempt time.place).2 } attempt := by
  have before : time.store.tally = ⟨writer.scheduled, writer.completed, writer.failed⟩ := by
    rw [Store.tally, present]
  cases encoded : attempt.bytes with
  | none =>
    simp only [Writer.finish, encoded]
    exact .failed rfl rfl (by rw [before]; rfl)
  | some bytes =>
    cases refused : time.place.failWrites with
    | true =>
      simp only [Writer.finish, encoded, Backend.write, Memory.write, refused, if_true]
      exact .failed rfl rfl (by rw [before]; rfl)
    | false =>
      simp only [Writer.finish, encoded, Backend.write, Memory.write, refused, Bool.false_eq_true,
        if_false]
      have stored := Memory.get?_put time.place writer.key time.store.config.key bytes
      rw [if_pos keyed.symm] at stored
      exact .completed encoded stored rfl (by rw [before]; rfl)

theorem Happens.outcome (fresh : store.Fresh)
    (run : Run Memory.Faults (Timeline.start store memory) time)
    (happens : Happens Memory.Faults time after) :
    (time.store.Spared after.store ∧ after.place.writes = time.place.writes) ∨
      ∃ attempt, time.store.current? = some attempt ∧ after.store.current? = none ∧
        Ended time after attempt := by
  cases happens with
  | update held patch =>
    exact .inl ⟨Store.commits_spared (time.tenant.live.update_commits patch), rfl⟩
  | step step =>
    cases step with
    | turn turn =>
      cases turn with
      | @writer writer _ _ present step =>
        cases step with
        | move idle move =>
          refine .inl ⟨Store.Spared.of_writer present ?_ ?_ ?_ ?_, rfl⟩
          · cases move <;> exact Nat.le_refl _
          · cases move <;> rfl
          · cases move <;> rfl
          · rw [Writer.current?_of_idle idle]
            nofun
        | finish writing =>
          rename_i attempt _
          have keyed := run.keyed fresh present
          refine .inr ⟨attempt, ?_, ?_, finish_ended present keyed attempt⟩
          · rw [Store.current?, present, Option.bind_some, Writer.current?, writing]
          · obtain ⟨succeeded, same⟩ := writer.finish_eq attempt time.place
            change (writer.finish attempt time.place).1.current? = none
            rw [same, Writer.current?_conclude]
      | close closable =>
        exact .inl ⟨.of_writer (Tenant.closable?_writer closable).1 (Nat.le_refl _) rfl rfl
          fun _ writing => writing, rfl⟩
      | gate step =>
        cases Tenant.stepLoad?_gate step with
        | finish reading =>
          -- A store that is still read for has no writer, so nothing was counted before.
          have unready := (run.life fresh.writer).2.reading (by rw [reading]; rfl)
          have unwritten := run.unwritten fresh unready
          have spared := Store.commits_spared (time.tenant.live.becomeReady_commits time.readNow)
          refine .inl ⟨.of_unwritten unwritten ?_ ?_, rfl⟩
          · exact spared.completed.trans (by rw [Store.becomeReady_tally])
          · exact spared.failed.trans (by rw [Store.becomeReady_tally])
        | pass => exact .inl ⟨.refl _, rfl⟩
        | begin => exact .inl ⟨.of_writer_eq rfl, rfl⟩
    | call call => cases call <;> exact .inl ⟨.refl _, rfl⟩
    | flush =>
      refine .inl ⟨Store.Spared.of_map time.store ?_ ?_, rfl⟩
      · intro writer
        exact writer.flush_scheduled.ge
      · intro writer
        unfold Writer.flush Writer.send
        split <;> exact ⟨rfl, rfl, rfl⟩
    | refuse accepts =>
      exact .inl ⟨.of_map time.store (fun _ => Nat.le_refl _) fun _ => ⟨rfl, rfl, rfl⟩, rfl⟩
    | release | wait | pace => exact .inl ⟨.refl _, rfl⟩
    | disturb disturbed =>
      obtain ⟨failReads, failWrites, rfl⟩ := disturbed
      exact .inl ⟨.refl _, rfl⟩

theorem Ended.atMost {attempt : Attempt} (ended : Ended time after attempt) :
    time.store.tally.AtMost after.store.tally := by
  cases ended with
  | completed _ _ _ tally =>
    rw [tally]
    exact ⟨Nat.le_refl _, Nat.le_succ _, Nat.le_refl _⟩
  | failed _ _ tally =>
    rw [tally]
    exact ⟨Nat.le_refl _, Nat.le_refl _, Nat.le_succ _⟩

theorem Happens.atMost (fresh : store.Fresh)
    (run : Run Memory.Faults (Timeline.start store memory) time)
    (happens : Happens Memory.Faults time after) : time.store.tally.AtMost after.store.tally := by
  rcases happens.outcome fresh run with ⟨spared, -⟩ | ⟨attempt, -, -, ended⟩
  · exact ⟨spared.scheduled, spared.completed.ge, spared.failed.ge⟩
  · exact ended.atMost

theorem Run.atMost {later : Timeline Memory} (fresh : store.Fresh)
    (run : Run Memory.Faults (Timeline.start store memory) time)
    (further : Run Memory.Faults time later) : time.store.tally.AtMost later.store.tally := by
  induction further with
  | start => exact ⟨Nat.le_refl _, Nat.le_refl _, Nat.le_refl _⟩
  | step earlier step ih => exact ih.trans (Happens.atMost fresh (run.trans earlier) (.step step))
  | update earlier held patch ih =>
    exact ih.trans (Happens.atMost fresh (run.trans earlier) (.update held patch))

theorem Happens.writes (fresh : store.Fresh)
    (run : Run Memory.Faults (Timeline.start store memory) time)
    (happens : Happens Memory.Faults time after)
    (writes : time.place.writes = memory.writes + time.store.tally.completed) :
    after.place.writes = memory.writes + after.store.tally.completed := by
  rcases happens.outcome fresh run with ⟨spared, kept⟩ | ⟨attempt, -, -, ended⟩
  · rw [kept, spared.completed, writes]
  · cases ended with
    | completed _ _ written tally => rw [written, tally, writes, Nat.add_assoc]
    | failed place _ tally => rw [place, tally, writes]

theorem Run.writes (fresh : store.Fresh)
    (run : Run Memory.Faults (Timeline.start store memory) time) :
    time.place.writes = memory.writes + time.store.tally.completed := by
  induction run with
  | start =>
    have unwritten : (Timeline.start store memory).store.writer = none := fresh.writer
    rw [Store.tally, unwritten]
    rfl
  | step earlier step ih => exact Happens.writes fresh earlier (.step step) ih
  | update earlier held patch ih => exact Happens.writes fresh earlier (.update held patch) ih

/-- The counters agree with what was asked of the store, with what the place has seen, and with what
is still to be done; they only rise, and an attempt that ends raises one of them by one. -/
theorem counters_account_for_every_attempt (fresh : store.Fresh)
    (run : Run Memory.Faults (Timeline.start store memory) time) :
    (∃ updates wrote, Reckoned Memory.Faults (Timeline.start store memory) updates wrote time) ∧
    (∀ updates wrote, Reckoned Memory.Faults (Timeline.start store memory) updates wrote time →
      time.store.tally.scheduled = updates + if wrote then 1 else 0) ∧
    time.place.writes = memory.writes + time.store.tally.completed ∧
    (∀ writer, time.store.writer = some writer →
      writer.completed + writer.failed + writer.activity.writes + writer.pending.toList.length +
        (writer.queue.filterMap Command.revision?).length ≤ writer.scheduled) ∧
    (∀ later, Run Memory.Faults time later → time.store.tally.AtMost later.store.tally) ∧
    ∀ after, Happens Memory.Faults time after →
      (∀ attempt, time.store.current? = some attempt → after.store.current? ≠ some attempt →
        Ended time after attempt) ∧
      ((∀ attempt, time.store.current? = some attempt → after.store.current? = some attempt) →
        after.store.tally.completed = time.store.tally.completed ∧
          after.store.tally.failed = time.store.tally.failed) := by
  refine ⟨run.reckoned, ?_, run.writes fresh, ?_, fun later => run.atMost fresh, ?_⟩
  · intro updates wrote reckoned
    rw [reckoned.scheduled_eq fresh]
    cases wrote <;> rfl
  · intro writer present
    have counted : writer.Counted :=
      (run.life fresh.writer).1.writer_keep (Store.lasting_counted Memory) fresh.writer present
    exact ((run.orderly fresh).writer writer present).tally_le counted
  · intro after happens
    rcases happens.outcome fresh run with ⟨spared, -⟩ | ⟨attempt, writing, gone, ended⟩
    · exact ⟨fun attempt writing stopped => absurd (spared.current attempt writing) stopped,
        fun _ => ⟨spared.completed, spared.failed⟩⟩
    · refine ⟨fun other begun _ => ?_, fun goes => ?_⟩
      · cases begun.symm.trans writing
        exact ended
      · cases gone.symm.trans (goes attempt writing)

def refusing : Timeline Memory :=
  ((((Timeline.start Store.plain {}).enterLoad.1.turns 2).failWrites true).update
    { clockFormat := some .twelveHour }).1.turns 2

theorem refusing_run : Run Memory.Faults (Timeline.start Store.plain {}) refusing := by
  have entered : Run Memory.Faults (Timeline.start Store.plain {})
      (Timeline.start Store.plain {}).enterLoad.1 := .step .start (.call (.load rfl))
  have failing := (entered.turns rfl 2).1.failWrites true
  exact ((failing.update rfl { clockFormat := some .twelveHour }).turns rfl 2).1

theorem refused_write_is_counted :
    ∃ updates wrote attempt after,
      Reckoned Memory.Faults (Timeline.start Store.plain {}) updates wrote refusing ∧
      (updates + if wrote then 1 else 0) = 1 ∧ refusing.place.writes = 0 ∧
      Happens Memory.Faults refusing after ∧ Ended refusing after attempt ∧
      after.store.tally = ⟨1, 0, 1⟩ ∧ after.place = refusing.place := by
  obtain ⟨⟨updates, wrote, reckoned⟩, scheduled, writes, -, -, next⟩ :=
    counters_account_for_every_attempt Store.plain_fresh refusing_run
  obtain ⟨attempt, writing⟩ : ∃ attempt, refusing.store.current? = some attempt := ⟨_, rfl⟩
  obtain ⟨after, stepped, counted, left, gone⟩ : ∃ after, refusing.ready? = some after ∧
      after.store.tally = ⟨1, 0, 1⟩ ∧ after.place = refusing.place ∧
      after.store.current? = none := ⟨_, rfl, rfl, rfl, rfl⟩
  have happens : Happens Memory.Faults refusing after := .step (.turn (ready?_turn rfl stepped))
  refine ⟨updates, wrote, attempt, after, reckoned, (scheduled _ _ reckoned).symm, writes, happens,
    (next after happens).1 attempt writing ?_, counted, left⟩
  rw [gone]
  nofun

end Endings

end Timeline
end StartPage
