import StartPage.Proofs.Store.Durability

/-!
What an answered flush says. Every flush that was asked for is answered, waits in the queue, or has
its write in progress. While the flush that was sent last is not answered, nothing stands behind it
in the queue; so when it is answered and nothing was sent since, the writer is at rest.
-/
namespace StartPage

def Command.isFlush : Command → Bool
  | .schedule _ => false
  | .flush => true

def Activity.flushes : Activity → Nat
  | .writing attempt => if attempt.sequel = .answerFlush then 1 else 0
  | _ => 0

namespace Writer

/-- Every flush that was asked for is answered, waits in the queue, or has its write in
progress. -/
def Accountable (writer : Writer) : Prop :=
  writer.asked =
    writer.answered + writer.queue.countP Command.isFlush + writer.activity.flushes

/-- The last command in the queue is a flush, or it was one and was answered, or will be when the
write has ended. -/
def Flushing (writer : Writer) : Prop :=
  writer.queue.getLast? = some .flush ∨
    writer.queue = [] ∧ writer.pending = none ∧
      (writer.activity = .idle ∨
        ∃ attempt, writer.activity = .writing attempt ∧ attempt.sequel = .answerFlush)

section Commands

variable {writer : Writer}

theorem schedule_accountable (accountable : writer.Accountable) (settings : Settings) :
    (writer.schedule settings).Accountable := by
  unfold Writer.schedule Writer.send
  split
  · exact accountable
  · simpa [Accountable, Command.isFlush] using accountable

theorem flush_accountable (accountable : writer.Accountable) : writer.flush.Accountable := by
  unfold Writer.flush Writer.send
  split
  · exact accountable
  · simp only [Accountable, List.countP_append, List.countP_singleton, Command.isFlush,
      if_true] at accountable ⊢
    omega

theorem flush_eq (running : writer.isStopped = false) :
    writer.flush =
      { writer with queue := writer.queue ++ [.flush], asked := writer.asked + 1 } := by
  simp [Writer.flush, Writer.send, running]

theorem flush_flushing (running : writer.isStopped = false) : writer.flush.Flushing := by
  rw [flush_eq running]
  exact .inl List.getLast?_concat

theorem flush_asked (running : writer.isStopped = false) :
    writer.flush.asked = writer.asked + 1 := by
  rw [flush_eq running]

theorem Flushing.quiescent (flushing : writer.Flushing) (accountable : writer.Accountable)
    (answered : writer.asked ≤ writer.answered) : writer.Quiescent := by
  rw [Accountable] at accountable
  rcases flushing with last | ⟨queue, pending, idle | ⟨attempt, writing, sequel⟩⟩
  · have waits : 0 < writer.queue.countP Command.isFlush :=
      List.countP_pos_iff.mpr ⟨.flush, List.mem_of_getLast? last, rfl⟩
    omega
  · refine ⟨queue, pending, ?_⟩
    intro attempt writing
    cases idle.symm.trans writing
  · have busy : writer.activity.flushes = 1 := by simp [Activity.flushes, writing, sequel]
    omega

end Commands

section Turns

variable {Place : Type} [Backend Place] {writer after : Writer} {now delay : Nat}
variable {place left : Place}

theorem flushes_conclude (writer : Writer) (sequel : Sequel) (succeeded : Bool) :
    (writer.conclude sequel succeeded).activity.flushes = 0 := by
  cases sequel <;> rfl

theorem Step.accountable (step : Step now delay writer place after left)
    (accountable : writer.Accountable) : after.Accountable := by
  rw [Accountable] at accountable
  cases step with
  | move idle move =>
    rw [idle] at accountable
    cases move with
    | receive queue =>
      rw [queue] at accountable
      simpa [Accountable, idle, Command.isFlush] using accountable
    | answer queue | flush queue =>
      rw [queue] at accountable
      simp only [Accountable, begin, idle, Activity.flushes, List.countP_cons, Command.isFlush,
        if_true] at accountable ⊢
      omega
    | expire | drain | stop => exact accountable
  | finish writing =>
    rename_i attempt _
    obtain ⟨succeeded, same⟩ := writer.finish_eq attempt place
    rw [writing] at accountable
    rw [same, Accountable, flushes_conclude]
    simp only [conclude, Activity.flushes] at accountable ⊢
    omega

theorem Step.asked (step : Step now delay writer place after left) : after.asked = writer.asked := by
  cases step with
  | move _ move => cases move <;> rfl
  | finish writing =>
    rename_i attempt _
    obtain ⟨succeeded, same⟩ := writer.finish_eq attempt place
    rw [same]
    rfl

theorem last_of_rest {command : Command} {rest : List Command}
    (last : (command :: rest).getLast? = some .flush) :
    rest = [] ∧ command = .flush ∨ rest.getLast? = some .flush := by
  cases rest with
  | nil => exact .inl ⟨rfl, Option.some.inj last⟩
  | cons next rest => exact .inr (by rwa [List.getLast?_cons_cons] at last)

theorem Step.flushing_of_waiting (step : Step now delay writer place after left)
    (last : writer.queue.getLast? = some .flush) : after.Flushing := by
  cases step with
  | move idle move =>
    cases move with
    | receive queue =>
      rw [queue] at last
      rcases last_of_rest last with ⟨-, other⟩ | last
      · cases other
      · exact .inl last
    | flush queue =>
      rw [queue] at last
      rcases last_of_rest last with ⟨rfl, -⟩ | last
      · exact .inr ⟨rfl, rfl, .inr ⟨_, rfl, rfl⟩⟩
      · exact .inl last
    | answer queue pending =>
      rw [queue] at last
      rcases last_of_rest last with ⟨rfl, -⟩ | last
      · exact .inr ⟨rfl, pending, .inl idle⟩
      · exact .inl last
    | expire => exact .inl last
    | drain queue | stop queue =>
      rw [queue] at last
      cases last
  | finish writing =>
    rename_i attempt _
    obtain ⟨succeeded, same⟩ := writer.finish_eq attempt place
    rw [same]
    exact .inl last

theorem Step.flushing_of_taken (step : Step now delay writer place after left)
    (opened : writer.closed = false) (queue : writer.queue = []) (pending : writer.pending = none)
    (resting : writer.activity = .idle ∨
      ∃ attempt, writer.activity = .writing attempt ∧ attempt.sequel = .answerFlush) :
    after.Flushing := by
  cases step with
  | move idle move =>
    cases move with
    | receive other | flush other | answer other => cases queue.symm.trans other
    | expire other | drain _ other => cases pending.symm.trans other
    | stop _ _ closed => cases opened.symm.trans closed
  | finish writing =>
    rename_i attempt _
    obtain ⟨succeeded, same⟩ := writer.finish_eq attempt place
    rcases resting with idle | ⟨current, now, sequel⟩
    · cases idle.symm.trans writing
    · cases writing.symm.trans now
      rw [same]
      refine .inr ⟨queue, pending, .inl ?_⟩
      rw [conclude, sequel]
      rfl

theorem Step.flushing (step : Step now delay writer place after left)
    (opened : writer.closed = false) (flushing : writer.Flushing) : after.Flushing := by
  rcases flushing with last | ⟨queue, pending, resting⟩
  · exact step.flushing_of_waiting last
  · exact step.flushing_of_taken opened queue pending resting

end Turns

end Writer

theorem Store.lasting_accountable (Place : Type) [Backend Place] :
    Store.Lasting Place Writer.Accountable where
  fresh _ := rfl
  schedule _ settings accountable := Writer.schedule_accountable accountable settings
  flush _ := Writer.flush_accountable
  close _ accountable := accountable
  refuse _ _ accountable := accountable
  step step := step.accountable

namespace Timeline

variable {Place : Type} [Backend Place] {disturb : Place → Place → Prop}

/-- The store is ready, and waits for the answer to the flush that was sent last. -/
structure Awaiting (disturb : Place → Place → Prop) (start : Timeline Place) (settings : Settings)
    (asked : Nat) (time : Timeline Place) : Prop where
  run : Run disturb start time
  alone : time.leaving = []
  held : time.tenant.released = false
  ready : time.store.phase = .ready
  settings : time.store.settings = settings
  flushing : ∃ writer, time.store.writer = some writer ∧ writer.Flushing ∧ writer.asked = asked

variable {made : Store} {place : Place} {time after flushed : Timeline Place}
variable {settings : Settings} {asked : Nat}

theorem Awaiting.next {limit : Option Nat} (fresh : made.Fresh)
    (awaiting : Awaiting disturb (start made place) settings asked time)
    (stepped : time.next? limit = some after) :
    Awaiting disturb (start made place) settings asked after := by
  obtain ⟨run, alone⟩ := awaiting.run.next awaiting.alone stepped
  obtain ⟨later, -, turn⟩ := next?_turn awaiting.alone stepped
  have tidy := (awaiting.run.life fresh.writer).2
  cases turn with
  | writer present step =>
    obtain ⟨writer, found, flushing, counted⟩ := awaiting.flushing
    cases found.symm.trans present
    have opened := tidy.held awaiting.held _ found
    exact { awaiting with
      run, alone
      flushing := ⟨_, rfl, step.flushing opened flushing, step.asked.trans counted⟩ }
  | gate step =>
    cases Tenant.stepLoad?_gate step with
    | finish reading =>
      have unready := tidy.reading (congrArg Option.isSome reading)
      exact absurd awaiting.ready unready
    | pass => exact { awaiting with run, alone }
    | begin _ _ unready => exact absurd awaiting.ready unready
  | close closable =>
    have kept : time.tenant.closable? = none := by simp [Tenant.closable?, awaiting.held]
    cases kept.symm.trans closable

theorem Run.accountable (fresh : made.Fresh) (run : Run disturb (Timeline.start made place) time)
    {writer : Writer} (present : time.store.writer = some writer) : writer.Accountable :=
  (run.life fresh.writer).1.writer_keep (Store.lasting_accountable Place) fresh.writer present

theorem askFlush_awaiting {writer : Writer} (run : Run disturb (start made place) time)
    (ready : time.store.phase = .ready) (held : time.tenant.released = false)
    (present : time.store.writer = some writer) (running : writer.isStopped = false) :
    Awaiting disturb (start made place) time.store.settings (writer.asked + 1) time.askFlush where
  run := run.step (.flush held)
  alone := run.leaving
  held := held
  ready := ready
  settings := rfl
  flushing := by
    have sent : time.askFlush.store.writer = some writer.flush := congrArg (Option.map _) present
    exact ⟨writer.flush, sent, writer.flush_flushing running, writer.flush_asked running⟩

theorem flush_eq_turns {writer : Writer} (present : time.store.writer = some writer)
    (running : writer.isStopped = false) (count : Nat)
    (waits : ∀ earlier < count, ((time.askFlush.turns earlier).isAnswered writer.asked ||
      (time.askFlush.turns earlier).store.writer.all Writer.isStopped) = false)
    (answered : (time.askFlush.turns count).isAnswered writer.asked = true) :
    time.flush = (time.askFlush.turns count, .ok ()) := by
  have awaited : time.askFlush.awaitFlush writer.asked = time.askFlush.turns count :=
    run_eq_turns _ _ count waits (by rw [answered, Bool.true_or])
  simp only [flush, present, running, Bool.false_eq_true, if_false, awaited, answered, if_true]

/-- A flush that is answered leaves a writer at rest, and the settings as they were. -/
theorem flush_rests (fresh : made.Fresh) (run : Run disturb (start made place) time)
    (ready : time.store.phase = .ready) (held : time.tenant.released = false)
    (answered : time.flush = (flushed, .ok ())) :
    Run disturb (start made place) flushed ∧ flushed.store.settings = time.store.settings ∧
      ∃ writer, flushed.store.writer = some writer ∧ writer.Quiescent := by
  have tidy := (run.life fresh.writer).2
  have orderly := run.orderly fresh
  obtain ⟨writer, present⟩ := Option.isSome_iff_exists.mp (orderly.ready ready).1
  have running : writer.isStopped = false :=
    (orderly.writer writer present).not_stopped (tidy.held held writer present)
  have awaiting : Awaiting disturb (start made place) time.store.settings (writer.asked + 1)
      (time.askFlush.awaitFlush writer.asked) :=
    run_keep _ _ _ (fun kept stepped => kept.next fresh stepped)
      (askFlush_awaiting run ready held present running)
  simp only [flush, present, running, Bool.false_eq_true, if_false] at answered
  split at answered
  case isFalse => cases answered
  case isTrue within =>
    obtain ⟨rfl, -⟩ := Prod.mk.inj answered
    obtain ⟨last, found, flushing, counted⟩ := awaiting.flushing
    have all : last.asked ≤ last.answered := by
      rw [isAnswered, found, Option.any_some, decide_eq_true_eq] at within
      omega
    exact ⟨awaiting.run, awaiting.settings, last, found,
      flushing.quiescent (awaiting.run.accountable fresh found) all⟩

end Timeline
end StartPage
