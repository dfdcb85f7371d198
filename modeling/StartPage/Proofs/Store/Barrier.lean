import StartPage.Proofs.Store.Owed

/-!
Every flush of a store that is held is answered, whatever else goes on. Until then the writer
attempts nothing that was scheduled later; at the turn that answers it the writer is idle, nothing
is pending, and the last attempt is for the newest state that was scheduled before the flush.
-/
namespace StartPage

namespace Timeline

variable {Place : Type} [Backend Place] {disturb : Place → Place → Prop}
variable {begun time after : Timeline Place} {before : List Settings} {ticket count bound : Nat}

/-- Runs in which the writer takes at least so many turns. -/
inductive Attended (disturb : Place → Place → Prop) (begun : Timeline Place) :
    Nat → Timeline Place → Prop where
  | start : Attended disturb begun 0 begun
  | step {count : Nat} {time after : Timeline Place} (attended : Attended disturb begun count time)
      (step : Step disturb time after) : Attended disturb begun count after
  | update {count : Nat} {time : Timeline Place} (attended : Attended disturb begun count time)
      (held : time.tenant.released = false) (patch : Patch) :
      Attended disturb begun count (time.update patch).1
  | writer {count : Nat} {time : Timeline Place} {writer after : Writer} {left : Place}
      (attended : Attended disturb begun count time) (present : time.store.writer = some writer)
      (step : Writer.Step time.now time.writeDelay writer time.place after left) :
      Attended disturb begun (count + 1)
        { time with tenant := time.tenant.withWriter after, place := left }

theorem Attended.run (attended : Attended disturb begun count time) : Run disturb begun time := by
  induction attended with
  | start => exact .start
  | step _ step ih => exact ih.step step
  | update _ held patch ih => exact ih.update held patch
  | writer _ present step ih => exact ih.step (.turn (.writer present step))

theorem Run.attended (run : Run disturb begun time) : Attended disturb begun 0 time := by
  induction run with
  | start => exact .start
  | step _ step ih => exact ih.step step
  | update _ held patch ih => exact ih.update held patch

/-- What a timeline and a flush keep that is waited for. -/
structure Owing (before : List Settings) (ticket left : Nat) (time : Timeline Place) : Prop where
  tidy : time.Tidy
  orderly : time.store.Orderly
  owes : time.store.Owes before ticket left

theorem Owing.life {later : Store} {place : Place} (owing : time.Owing before ticket bound)
    (life : Store.Life disturb time.store time.place later place) :
    later.Orderly ∧ later.Owes before ticket bound :=
  life.keep (fun store _ => store.Orderly ∧ store.Owes before ticket bound)
    ⟨owing.orderly, owing.owes⟩ fun deed kept => ⟨deed.orderly kept.1, deed.owes kept.1 kept.2⟩

theorem Owing.step (owing : time.Owing before ticket bound) (step : Step disturb time after) :
    after.Owing before ticket bound := by
  obtain ⟨life, tidy⟩ := step_life .fresh owing.tidy step
  obtain ⟨orderly, owes⟩ := owing.life life
  exact ⟨tidy, orderly, owes⟩

theorem Attended.owing (attended : Attended disturb begun count time)
    (owing : begun.Owing before ticket bound) : time.Owing before ticket (bound - count) := by
  induction attended with
  | start => exact owing
  | step _ step ih => exact ih.step step
  | @update _ time _ held patch ih =>
    have itself : Store.Life disturb time.store time.place time.store time.place := .fresh
    obtain ⟨life, tidy⟩ := update_life itself ih.tidy held patch
    obtain ⟨orderly, owes⟩ := ih.life life
    exact ⟨tidy, orderly, owes⟩
  | writer _ present step ih =>
    have turned : Step disturb _ _ := .turn (.writer present step)
    exact { ih.step turned with owes := Store.withWriter_owes ih.owes ih.orderly present step }

theorem ready?_isSome_of_writer {writer : Writer} (alone : time.leaving = [])
    (present : time.store.writer = some writer)
    (step : (writer.step? time.now time.writeDelay time.place).isSome = true) :
    time.ready?.isSome = true := by
  have others : time.stepLeaving? = none := by simp [stepLeaving?, alone, stepFirst?]
  have found : time.tenant.store.writer = some writer := present
  have stepped : (time.tenant.stepWriter? time.now time.writeDelay time.place).isSome = true := by
    rw [Tenant.stepWriter?, found]
    simpa using step
  rw [ready?, others, Option.none_or, stepTenant?, Option.isSome_map, Tenant.step?]
  split
  · rfl
  · rw [Option.isSome_or, stepped, Bool.true_or]

theorem next?_isSome_of_writing {writer : Writer} {attempt : Attempt} (alone : time.leaving = [])
    (unread : time.tenant.loads.reading = none) (present : time.store.writer = some writer)
    (writing : writer.activity = .writing attempt) : (time.next? none).isSome = true := by
  have found : time.tenant.store.writer = some writer := present
  have due : time.due? = some attempt.ends := by
    simp [due?, Tenant.due, alone, unread, found, Writer.due?, writing]
  let later : Timeline Place := { time with now := max time.now attempt.ends }
  have step : (writer.step? later.now later.writeDelay later.place).isSome = true := by
    have ended : attempt.ends ≤ max time.now attempt.ends := Nat.le_max_right _ _
    rw [Writer.step?, writing]
    dsimp only
    rw [if_pos ended]
    rfl
  have ready : later.ready?.isSome = true := ready?_isSome_of_writer alone present step
  rw [next?]
  split
  · rfl
  · rw [due]
    exact ready

theorem next?_isSome_of_owes {writer : Writer} {since : List Settings} {left : Nat}
    (alone : time.leaving = []) (unread : time.tenant.loads.reading = none)
    (present : time.store.writer = some writer)
    (owes : writer.Owes before since ticket left) : (time.next? none).isSome = true := by
  cases activity : writer.activity with
  | stopped => exact absurd (.inl activity) owes.going
  | writing attempt => exact next?_isSome_of_writing alone unread present activity
  | idle =>
    cases owes with
    | writing writing => cases activity.symm.trans writing
    | waiting queue =>
      have step := Writer.step?_isSome_of_queue time.now time.writeDelay time.place activity
        (queue ▸ List.append_ne_nil_of_right_ne_nil _ (List.cons_ne_nil _ _))
      obtain ⟨stepped, found⟩ :=
        Option.isSome_iff_exists.mp (ready?_isSome_of_writer alone present step)
      rw [next?, found]
      rfl

omit [Backend Place] in
theorem isAnswered_eq {writer : Writer} (present : time.store.writer = some writer) (ticket : Nat) :
    time.isAnswered ticket = decide (ticket < writer.answered) := by
  rw [isAnswered, present]
  rfl

omit [Backend Place] in
theorem writer_of_isAnswered (answered : time.isAnswered ticket = true) :
    ∃ writer, time.store.writer = some writer ∧ ticket < writer.answered := by
  cases present : time.store.writer with
  | none =>
    rw [isAnswered, present] at answered
    cases answered
  | some writer =>
    rw [isAnswered_eq present] at answered
    exact ⟨writer, rfl, of_decide_eq_true answered⟩

theorem Owing.awaited {made : Store} {place : Place} (fresh : made.Fresh)
    (run : Run disturb (start made place) time) (owing : time.Owing before ticket bound) :
    (time.awaitFlush ticket).isAnswered ticket = true := by
  let goal : Timeline Place → Bool := fun time =>
    time.isAnswered ticket || time.store.writer.all Writer.isStopped
  obtain ⟨run, alone, kept⟩ : Run disturb (start made place) (time.run goal none) ∧
      (time.run goal none).leaving = [] ∧ (time.run goal none).Owing before ticket bound := by
    refine run_keep goal none (fun time => Run disturb (start made place) time ∧
      time.leaving = [] ∧ time.Owing before ticket bound) ?_ ⟨run, run.leaving, owing⟩
    rintro time after ⟨run, alone, owing⟩ stepped
    obtain ⟨later, forward, turn⟩ := next?_turn alone stepped
    have waits : Step disturb time _ := .wait time later forward
    have turned : Step disturb _ after := .turn turn
    obtain ⟨run, alone⟩ := run.next alone stepped
    exact ⟨run, alone, (owing.step waits).step turned⟩
  obtain ⟨writer, present, answered | ⟨since, -, owes⟩⟩ := kept.owes
  · exact (isAnswered_eq present ticket).trans (decide_eq_true answered)
  · have ready := kept.orderly.ready_of_writer present
    have goesOn := next?_isSome_of_owes alone (run.unread fresh ready) present owes
    rcases run_stops goal none time with reached | stuck
    · rcases Bool.or_eq_true_iff.mp reached with answered | stopped
      · exact answered
      · rw [present, Option.all_some, owes.running] at stopped
        cases stopped
    · rw [stuck] at goesOn
      cases goesOn

omit [Backend Place] in
theorem update_answered {writer : Writer} (present : time.store.writer = some writer)
    (ready : time.store.phase = .ready) (patch : Patch) :
    ∃ next, (time.update patch).1.store.writer = some next ∧ next.answered = writer.answered := by
  have committed := Store.commits_schedule (time.tenant.live.update_commits patch) ready
  have found : time.tenant.live.host.writer = some writer := present
  rw [found] at committed
  exact ⟨_, committed, Writer.schedule_all_answered _ writer⟩

theorem Step.answered {writer : Writer} (tidy : time.Tidy) (ready : time.store.phase = .ready)
    (present : time.store.writer = some writer) (step : Step disturb time after) :
    (∃ next left, Writer.Step time.now time.writeDelay writer time.place next left ∧
      after.store.writer = some next) ∨
    ∃ next, after.store.writer = some next ∧ next.answered = writer.answered := by
  cases step with
  | turn turn =>
    cases turn with
    | writer found step =>
      cases present.symm.trans found
      exact .inl ⟨_, _, step, rfl⟩
    | gate step =>
      cases Tenant.stepLoad?_gate step with
      | finish reading => exact absurd ready (tidy.reading (congrArg Option.isSome reading))
      | pass | begin => exact .inr ⟨writer, present, rfl⟩
    | close closable =>
      cases present.symm.trans (Tenant.closable?_writer closable).1
      exact .inr ⟨_, rfl, rfl⟩
  | call call => cases call <;> exact .inr ⟨writer, present, rfl⟩
  | flush => exact .inr ⟨_, congrArg (Option.map _) present, Writer.flush_answered writer⟩
  | refuse => exact .inr ⟨_, congrArg (Option.map _) present, rfl⟩
  | release | wait | pace | disturb => exact .inr ⟨writer, present, rfl⟩

theorem Owing.answers {since : List Settings} {current next : Writer}
    (owing : time.Owing before ticket bound) (present : time.store.writer = some current)
    (owes : current.Owes before since ticket bound) (happens : Happens disturb time after)
    (found : after.store.writer = some next) (answered : ticket < next.answered) :
    next.Answers before since ticket := by
  have ready := owing.orderly.ready_of_writer present
  have unanswered := owes.unanswered
  cases happens with
  | update held patch =>
    obtain ⟨other, same, kept⟩ := update_answered present ready patch
    cases same.symm.trans found
    omega
  | step step =>
    rcases step.answered owing.tidy ready present with ⟨other, left, step, same⟩ | ⟨other, same, kept⟩
    · cases same.symm.trans found
      rcases owes.step (owing.orderly.writer current present) step with ⟨fewer, -, owes⟩ | answers
      · exact absurd owes.unanswered (Nat.not_le_of_lt answered)
      · exact answers
    · cases same.symm.trans found
      omega

section Asking

variable {made : Store} {place : Place} {writer : Writer}

theorem askFlush_owing (fresh : made.Fresh) (run : Run disturb (start made place) time)
    (held : time.tenant.released = false) (present : time.store.writer = some writer) :
    time.askFlush.Owing writer.history writer.asked writer.flush.work := by
  have asked := run.step (.flush held)
  have tidy := (run.life fresh.writer).2
  have owes := Writer.Orderly.owes_flush ((run.orderly fresh).writer writer present)
    (run.accountable fresh present) (tidy.held held writer present)
  have history : writer.flush.history = writer.history ++ [] := by
    rw [Writer.flush_history, List.append_nil]
  exact ⟨(asked.life fresh.writer).2, asked.orderly fresh, writer.flush,
    congrArg (Option.map _) present, .inr ⟨[], history, owes⟩⟩

theorem flush_ok (fresh : made.Fresh) (run : Run disturb (start made place) time)
    (held : time.tenant.released = false) : time.flush.2 = .ok () := by
  rw [flush]
  cases present : time.store.writer with
  | none => rfl
  | some writer =>
    have opened := (run.life fresh.writer).2.held held writer present
    have running := ((run.orderly fresh).writer writer present).not_stopped opened
    have answered := (askFlush_owing fresh run held present).awaited fresh (run.step (.flush held))
    simp only [running, Bool.false_eq_true, if_false, answered, if_true]

end Asking

/-- A flush that is sent to a ready store is answered, whatever else goes on, and at the latest at
the turn of the writer that the work standing before it allows for. As long as it is not answered
the writer runs, attempts nothing that was scheduled later and keeps all of it in the queue; a flush
that it reaches with nothing pending makes no attempt. At the turn that answers it the writer is
idle and has nothing pending, and the last attempt is for the newest state scheduled before. -/
theorem flush_is_barrier {made : Store} {place : Place} {time : Timeline Place} (fresh : made.Fresh)
    (run : Run disturb (start made place) time) (ready : time.store.phase = .ready)
    (held : time.tenant.released = false) :
    time.flush.2 = .ok () ∧
    ∃ writer, time.store.writer = some writer ∧
      ∀ {count : Nat} {later : Timeline Place}, Attended disturb time.askFlush count later →
        (later.awaitFlush writer.asked).isAnswered writer.asked = true ∧
        ∃ current, later.store.writer = some current ∧
          (∀ {rest : List Command}, current.queue = .flush :: rest → current.activity = .idle →
            current.pending = none → ∀ {now delay : Nat} {next : Writer} {left : Place},
              Writer.Step now delay current later.place next left →
                left = later.place ∧ next.attempts = current.attempts ∧
                  next.answered = current.answered + 1) ∧
          (later.isAnswered writer.asked = false →
            count < writer.flush.work ∧ current.isStopped = false ∧
            ∃ since, current.HoldsBack writer.history since ∧
              ∀ {after : Timeline Place}, Happens disturb later after →
                after.isAnswered writer.asked = true →
                  ∃ next, after.store.writer = some next ∧
                    next.Answers writer.history since writer.asked) := by
  obtain ⟨writer, present⟩ := Option.isSome_iff_exists.mp ((run.orderly fresh).ready ready).1
  refine ⟨flush_ok fresh run held, writer, present, ?_⟩
  intro count later attended
  have begun := askFlush_owing fresh run held present
  have owing := attended.owing begun
  have whole := (run.step (.flush held)).trans attended.run
  obtain ⟨current, found, owes⟩ := owing.owes
  refine ⟨owing.awaited fresh whole, current, found, ?_, ?_⟩
  · intro rest queue idle pending now delay next left step
    exact step.reached idle pending queue
  · intro unanswered
    rw [isAnswered_eq found, decide_eq_false_iff_not] at unanswered
    obtain ⟨since, history, owes⟩ := owes.resolve_left unanswered
    have holds := owes.holdsBack (owing.orderly.writer current found) history
    refine ⟨Nat.lt_of_sub_pos owes.left_pos, owes.running, since, holds, ?_⟩
    intro after happens answered
    obtain ⟨next, reached, within⟩ := writer_of_isAnswered answered
    exact ⟨next, reached, owing.answers found owes happens reached within⟩

end Timeline

def pressed : Timeline Memory :=
  let failing := ((Timeline.start Store.plain {}).enterLoad.1.turns 2).failWrites true
  (failing.update { clockFormat := some .twelveHour }).1

/-- A flush is asked for, another state is scheduled, another flush is asked for, and the writer
has begun the write that the first flush waits for. -/
def besieged : Timeline Memory :=
  (pressed.askFlush.update { clockFormat := some .twentyFourHour }).1.askFlush.turns 2

theorem pressed_run : Timeline.Run Memory.Faults (Timeline.start Store.plain {}) pressed := by
  have entered : Timeline.Run Memory.Faults (Timeline.start Store.plain {})
      (Timeline.start Store.plain {}).enterLoad.1 := .step .start (.call (.load rfl))
  exact ((entered.turns rfl 2).1.failWrites true).update rfl { clockFormat := some .twelveHour }

theorem besieged_attended : Timeline.Attended Memory.Faults pressed.askFlush 0 besieged := by
  have begun : Timeline.Run Memory.Faults pressed.askFlush _ := .start
  have updated := begun.update rfl { clockFormat := some .twentyFourHour }
  exact ((updated.step (.flush rfl)).turns rfl 2).1.attended

theorem failed_flush_answered_before_later_state :
    ∃ writer next since, pressed.store.writer = some writer ∧
      (besieged.turns 1).store.writer = some next ∧ next.failed = 1 ∧ since ≠ [] ∧
      next.Answers writer.history since writer.asked := by
  obtain ⟨-, writer, present, barrier⟩ :=
    Timeline.flush_is_barrier Store.plain_fresh pressed_run rfl rfl
  obtain ⟨-, current, found, -, holding⟩ := barrier besieged_attended
  cases present
  cases found
  obtain ⟨-, -, since, holds, answering⟩ := holding rfl
  have turned : Timeline.Happens Memory.Faults besieged (besieged.turns 1) :=
    .step (.turn (Timeline.ready?_turn rfl rfl))
  obtain ⟨next, reached, answers⟩ := answering turned rfl
  refine ⟨_, next, since, rfl, reached, ?_, ?_, answers⟩
  · cases reached
    rfl
  · rintro rfl
    have counted := congrArg List.length holds.history
    exact absurd counted (by decide)

end StartPage
