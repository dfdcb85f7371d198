import StartPage.Proofs.Store.Numbering

/-!
A store that is ready, while no update changes anything. Only its writer goes on, with what it was
given before. When that is nothing it makes no attempt, whatever timers go off, flushes are sent and
handles are dropped; so the place is what others make of it.
-/
namespace StartPage

theorem Writer.Step.place_eq {Place : Type} [Backend Place] {writer after : Writer}
    {now delay : Nat} {place left : Place} (step : Writer.Step now delay writer place after left)
    (orderly : writer.Orderly) (none : writer.history = []) : left = place := by
  cases step with
  | move => rfl
  | finish writing =>
    have latest := (orderly.writing _ writing).1
    rw [orderly.attempts_eq_nil none] at latest
    cases latest

namespace Store

/-- Only the writer went on, and nothing more was given to it. -/
structure WentOn (store after : Store) : Prop where
  same : after = { store with writer := after.writer }
  history : after.writer.map Writer.history = store.writer.map Writer.history
  scheduled : after.tally.scheduled = store.tally.scheduled

namespace WentOn

variable {store after last : Store}

theorem refl (store : Store) : store.WentOn store := ⟨rfl, rfl, rfl⟩

theorem trans (first : store.WentOn after) (second : after.WentOn last) : store.WentOn last where
  same := by
    rw [second.same, first.same]
  history := second.history.trans first.history
  scheduled := second.scheduled.trans first.scheduled

theorem phase (wentOn : store.WentOn after) : after.phase = store.phase := by
  rw [wentOn.same]

theorem settings (wentOn : store.WentOn after) : after.settings = store.settings := by
  rw [wentOn.same]

theorem of_writer {before writer : Writer} (present : store.writer = some before)
    (history : writer.history = before.history) (scheduled : writer.scheduled = before.scheduled) :
    store.WentOn { store with writer := some writer } where
  same := rfl
  history := by rw [present, Option.map_some, Option.map_some, history]
  scheduled := by
    rw [tally, tally, present]
    exact scheduled

theorem of_map (store : Store) {change : Writer → Writer}
    (history : ∀ writer : Writer, (change writer).history = writer.history)
    (scheduled : ∀ writer : Writer, (change writer).scheduled = writer.scheduled) :
    store.WentOn { store with writer := store.writer.map change } := by
  apply mapWriter_keep store.WentOn (.refl store)
  intro writer present
  exact of_writer present (history writer) (scheduled writer)

end WentOn

end Store

namespace Timeline

variable {Place : Type}

theorem update_of_empty (time : Timeline Place) {patch : Patch} (empty : patch.isEmpty = true) :
    (time.update patch).1 = time := by
  rw [update, LiveStore.update, Store.update_of_empty _ empty]
  rfl

variable [Backend Place] {disturb : Place → Place → Prop}
variable {store : Store} {place : Place} {start time after later : Timeline Place}

theorem Calm.run (calm : Calm disturb time later) (run : Run disturb start time) :
    Run disturb start later := by
  induction calm with
  | start => exact run
  | step _ step ih => exact ih.step step
  | update _ empty ih =>
    rw [update_of_empty _ empty]
    exact ih

theorem Step.wentOn (step : Step disturb time after) (ready : time.store.phase = .ready)
    (unread : time.tenant.loads.reading = none) : time.store.WentOn after.store := by
  cases step with
  | turn turn =>
    cases turn with
    | writer present step => exact .of_writer present step.history.1 step.history.2
    | close closable => exact .of_writer (Tenant.closable?_writer closable).1 rfl rfl
    | gate step =>
      cases Tenant.stepLoad?_gate step with
      | finish reads => cases unread.symm.trans reads
      | pass => exact .refl _
      | begin _ _ unready => exact absurd ready unready
  | call call => cases call <;> exact .refl _
  | flush => exact .of_map _ Writer.flush_history Writer.flush_scheduled
  | refuse => exact .of_map _ (fun _ => rfl) (fun _ => rfl)
  | release | wait | pace | disturb => exact .refl _

section Ready

variable (fresh : store.Fresh) (run : Run disturb (Timeline.start store place) time)
variable (ready : time.store.phase = .ready)
include fresh run ready

theorem Calm.wentOn (calm : Calm disturb time later) : time.store.WentOn later.store := by
  induction calm with
  | start => exact .refl _
  | step earlier step ih =>
    have still := ih.phase.trans ready
    exact ih.trans (step.wentOn still ((earlier.run run).unread fresh still))
  | update _ empty ih =>
    rw [update_of_empty _ empty]
    exact ih

/-- As long as nothing was scheduled, and no update changes anything, the place is left alone. -/
theorem Calm.place_kept {View : Type} (view : Place → View)
    (blind : ∀ before after, disturb before after → view after = view before)
    (none : time.store.tally.scheduled = 0) (calm : Calm disturb time later) :
    view later.place = view time.place := by
  induction calm with
  | start => rfl
  | @step middle after earlier step ih =>
    cases step with
    | turn turn =>
      cases turn with
      | @writer writer _ _ present step =>
        have kept := ((earlier.run run).orderly fresh).writer writer present
        have given : writer.history = [] := by
          have scheduled := (earlier.wentOn fresh run ready).scheduled.trans none
          rw [Store.tally, present] at scheduled
          exact List.length_eq_zero_iff.mp (kept.counted.symm.trans scheduled)
        rw [step.place_eq kept given]
        exact ih
      | gate | close => exact ih
    | call call => cases call <;> exact ih
    | disturb disturbed => exact (blind _ _ disturbed).trans ih
    | flush | refuse | release | wait | pace => exact ih
  | update _ empty ih =>
    rw [update_of_empty _ empty]
    exact ih

end Ready

end Timeline
end StartPage
