import StartPage.Proofs.Store.Acts
import StartPage.Proofs.Store.Chronicle
import StartPage.Proofs.Store.Flush
import StartPage.Proofs.Store.Rhythm

/-!
What is left to do when a store is gone. Its writer is closed: nothing is sent to it any more, and
what it received or will find in its queue is written without waiting for the window, the newest
revision only. Then it stops. A timer that goes off while commands still wait would have the pending
revision written as well; the clock's own order of turns has the commands received first.
-/
namespace StartPage

namespace Writer

/-- What was not attempted yet: the pending revision and those in the queue. -/
def waiting (writer : Writer) : List Revision :=
  writer.pending.toList ++ writer.queue.filterMap Command.revision?

/-- The revision that was scheduled last, unless it was attempted. -/
def owed (writer : Writer) : List Revision :=
  match writer.history.getLast? with
  | none => []
  | some settings =>
    if ∃ attempt ∈ writer.attempts, attempt.revision.number = writer.history.length then []
    else [⟨writer.history.length, settings⟩]

theorem revisions_eq (writer : Writer) :
    writer.revisions = writer.attempts.reverse.map (·.revision) ++ writer.waiting := rfl

/-- A writer that goes on from where another stands and is given nothing more. -/
structure Ebbs (start writer : Writer) : Prop where
  closed : writer.closed = true
  revisions : writer.revisions.Sublist start.revisions
  newest : writer.revisions.getLast? = start.revisions.getLast?
  attempts : start.attempts <:+ writer.attempts
  stopping : writer.Stopping → writer.waiting = []

section Turns

variable {Place : Type} [Backend Place] {start writer after : Writer} {now delay : Nat}
variable {place left : Place}

theorem finish_spares (writer : Writer) (attempt : Attempt) (place : Place) :
    (writer.finish attempt place).1.attempts = writer.attempts ∧
      (writer.finish attempt place).1.queue = writer.queue ∧
      (writer.finish attempt place).1.pending = writer.pending := by
  obtain ⟨succeeded, same⟩ := writer.finish_eq attempt place
  rw [same]
  exact ⟨rfl, rfl, rfl⟩

theorem Step.stopping_waiting (step : Step now delay writer place after left)
    (stopping : writer.Stopping → writer.waiting = []) (ended : after.Stopping) :
    after.waiting = [] := by
  cases step with
  | move idle move =>
    cases move with
    | receive | answer => exact absurd ended (not_stopping_of_idle idle)
    | flush | expire => exact absurd ended (begin_not_stopping _ _ (by decide))
    | drain queue =>
      simp [waiting, begin, queue]
    | stop queue pending => simp [waiting, queue, pending]
  | finish writing =>
    rename_i attempt _
    obtain ⟨succeeded, same⟩ := writer.finish_eq attempt place
    rw [same] at ended ⊢
    by_cases stop : attempt.sequel = .stop
    · exact stopping (.inr ⟨attempt, writing, stop⟩)
    · have idle : (writer.conclude attempt.sequel succeeded).activity = .idle := if_neg stop
      exact absurd ended (not_stopping_of_idle idle)

theorem Ebbs.step (ebbs : start.Ebbs writer) (step : Step now delay writer place after left) :
    start.Ebbs after where
  closed := step.closed.trans ebbs.closed
  revisions := step.revisions.1.trans ebbs.revisions
  newest := step.revisions.2.trans ebbs.newest
  attempts := ebbs.attempts.trans step.precedes.attempts
  stopping := step.stopping_waiting ebbs.stopping

theorem Ebbs.refuse (ebbs : start.Ebbs writer) (encode : Settings → Option Bytes) :
    start.Ebbs { writer with encode } :=
  { ebbs with }

end Turns

section Owed

variable {start writer : Writer} {further : List Attempt}

theorem Orderly.ebbs (orderly : writer.Orderly) (opened : writer.closed = false) :
    writer.Ebbs writer.close where
  closed := rfl
  revisions := .refl _
  newest := rfl
  attempts := List.suffix_refl _
  stopping := by
    intro stopping
    cases opened.symm.trans (orderly.stopping stopping)

theorem Ebbs.further_sublist (ebbs : start.Ebbs writer)
    (attempts : writer.attempts = further ++ start.attempts) :
    (further.reverse.map (·.revision)).Sublist start.waiting := by
  have revisions := ebbs.revisions
  rw [revisions_eq, revisions_eq, attempts, List.reverse_append, List.map_append,
    List.append_assoc, List.append_sublist_append_left] at revisions
  exact (List.sublist_append_left _ _).trans revisions

theorem Ebbs.latest (ebbs : start.Ebbs writer) (orderly : start.Orderly)
    (done : writer.waiting = []) :
    writer.attempts.head?.map (·.revision) =
      start.history.getLast?.map fun settings => ⟨start.history.length, settings⟩ := by
  have newest := ebbs.newest.trans orderly.newest
  rw [revisions_eq, done, List.append_nil, List.getLast?_map, List.getLast?_reverse] at newest
  exact newest

theorem Ebbs.owed_of_same (ebbs : start.Ebbs writer) (orderly : start.Orderly)
    (done : writer.waiting = []) (same : writer.attempts = start.attempts) : start.owed = [] := by
  have latest := ebbs.latest orderly done
  rw [owed]
  cases last : start.history.getLast? with
  | none => rfl
  | some settings =>
    rw [last, Option.map_some, Option.map_eq_some_iff] at latest
    obtain ⟨attempt, head, revision⟩ := latest
    have made : attempt ∈ start.attempts := same ▸ List.mem_of_mem_head? head
    exact if_pos ⟨attempt, made, congrArg Revision.number revision⟩

theorem Ebbs.owed_of_last (ebbs : start.Ebbs writer) (orderly : start.Orderly)
    (done : writer.waiting = []) {last : Attempt}
    (attempts : writer.attempts = last :: start.attempts) : start.owed = [last.revision] := by
  have latest := ebbs.latest orderly done
  rw [attempts, List.head?_cons, Option.map_some] at latest
  obtain ⟨settings, newest, revision⟩ := Option.map_eq_some_iff.mp latest.symm
  -- The numbers of attempts rise, so the number of the last was not attempted before.
  have rising := orderly.rising.sublist ebbs.revisions
  rw [revisions_eq, done, List.append_nil, attempts, List.reverse_cons, List.map_append,
    List.pairwise_append] at rising
  have fresh : ¬ ∃ attempt ∈ start.attempts, attempt.revision.number = start.history.length := by
    rintro ⟨attempt, made, number⟩
    have below := rising.2.2 attempt.revision
      (List.mem_map_of_mem (List.mem_reverse.mpr made)) last.revision List.mem_cons_self
    rw [number, ← revision] at below
    exact Nat.lt_irrefl _ below
  rw [owed, newest]
  exact (if_neg fresh).trans (congrArg (fun revision => [revision]) revision)

end Owed

theorem Accountable.unflushed {writer : Writer} (accountable : writer.Accountable)
    (answered : writer.asked = writer.answered) : Command.flush ∉ writer.queue := by
  intro waits
  have counted : 0 < writer.queue.countP Command.isFlush :=
    List.countP_pos_iff.mpr ⟨.flush, waits, rfl⟩
  rw [Accountable] at accountable
  omega

section Prompt

variable {Place : Type} [Backend Place] {start writer after : Writer} {now delay : Nat}
variable {place left : Place}

/-- A writer that received everything before it made an attempt, and one attempt at most. -/
structure Drains (start writer : Writer) : Prop extends start.Ebbs writer where
  unflushed : Command.flush ∉ writer.queue
  once : writer.attempts = start.attempts ∨
    ∃ last, writer.attempts = last :: start.attempts ∧ writer.waiting = []

theorem queue_of_waiting (unflushed : Command.flush ∉ writer.queue)
    (nothing : writer.waiting = []) : writer.queue = [] ∧ writer.pending = none := by
  obtain ⟨pending, queue⟩ := List.append_eq_nil_iff.mp nothing
  refine ⟨List.eq_nil_iff_forall_not_mem.mpr fun command member => ?_, by simpa using pending⟩
  cases command with
  | schedule revision => simpa using List.filterMap_eq_nil_iff.mp queue _ member
  | flush => exact unflushed member

/-- A writer of whom no flush is asked begins to write only when its queue is empty. -/
theorem step?_attempts (unflushed : Command.flush ∉ writer.queue)
    (stepped : writer.step? now delay place = some (after, left)) (waits : writer.queue ≠ []) :
    after.attempts = writer.attempts := by
  cases step?_step stepped with
  | finish => exact (finish_spares ..).1
  | move idle =>
    cases queue : writer.queue with
    | nil => exact absurd queue waits
    | cons command rest =>
      cases command with
      | flush => exact absurd (queue ▸ List.mem_cons_self) unflushed
      | schedule revision =>
        simp only [step?, idle, advance?, queue, Option.map_some, Option.some.injEq,
          Prod.mk.injEq] at stepped
        rw [← stepped.1]

theorem Step.unflushed (step : Step now delay writer place after left)
    (unflushed : Command.flush ∉ writer.queue) : Command.flush ∉ after.queue := by
  cases step with
  | move _ move =>
    cases move with
    | receive queue | flush queue | answer queue =>
      exact fun member => unflushed (queue ▸ List.mem_cons_of_mem _ member)
    | expire | drain | stop => exact unflushed
  | finish =>
    rw [(finish_spares ..).2.1]
    exact unflushed

theorem Step.attempts_of_prompt (step : Step now delay writer place after left)
    (unflushed : Command.flush ∉ writer.queue)
    (prompt : writer.queue ≠ [] → after.attempts = writer.attempts) :
    after.attempts = writer.attempts ∨
      ∃ last, after.attempts = last :: writer.attempts ∧ after.waiting = [] := by
  cases step with
  | move _ move =>
    cases move with
    | receive | answer | stop => exact .inl rfl
    | flush queue => exact absurd (queue ▸ List.mem_cons_self) unflushed
    | expire =>
      have queue : writer.queue = [] := by
        by_contra waits
        exact List.cons_ne_self _ _ (prompt waits)
      exact .inr ⟨_, rfl, by simp [waiting, begin, queue]⟩
    | drain queue => exact .inr ⟨_, rfl, by simp [waiting, begin, queue]⟩
  | finish => exact .inl (finish_spares ..).1

theorem Step.attempts_of_nothing (step : Step now delay writer place after left)
    (queue : writer.queue = []) (pending : writer.pending = none) :
    after.attempts = writer.attempts ∧ after.waiting = [] := by
  cases step with
  | move _ move =>
    cases move with
    | receive other | flush other | answer other => cases queue.symm.trans other
    | expire other | drain _ other => cases pending.symm.trans other
    | stop => exact ⟨rfl, by simp [waiting, queue, pending]⟩
  | finish =>
    rename_i attempt _ _
    obtain ⟨attempts, emptied, nothing⟩ := writer.finish_spares attempt place
    exact ⟨attempts, by simp [waiting, emptied, nothing, queue, pending]⟩

theorem Drains.step (drains : start.Drains writer) (step : Step now delay writer place after left)
    (prompt : writer.queue ≠ [] → after.attempts = writer.attempts) : start.Drains after := by
  refine { toEbbs := drains.toEbbs.step step, unflushed := step.unflushed drains.unflushed,
           once := ?_ }
  rcases drains.once with same | ⟨last, attempts, waiting⟩
  · rw [← same]
    exact step.attempts_of_prompt drains.unflushed prompt
  · obtain ⟨queue, pending⟩ := queue_of_waiting drains.unflushed waiting
    obtain ⟨kept, nothing⟩ := step.attempts_of_nothing queue pending
    exact .inr ⟨last, kept.trans attempts, nothing⟩

theorem Drains.refuse (drains : start.Drains writer) (encode : Settings → Option Bytes) :
    start.Drains { writer with encode } :=
  { drains with toEbbs := drains.toEbbs.refuse encode }

theorem activity_of_stopped (stopped : writer.isStopped = true) : writer.activity = .stopped := by
  unfold isStopped at stopped
  split at stopped
  · assumption
  · cases stopped

/-- At most what is owed is attempted, and all of it before the writer stops. -/
theorem Drains.further (drains : start.Drains writer) (orderly : start.Orderly) :
    ∃ further, writer.attempts = further ++ start.attempts ∧
      (further = [] ∨ further.map (·.revision) = start.owed) ∧
      (writer.isStopped = true → further.map (·.revision) = start.owed) := by
  rcases drains.once with same | ⟨last, attempts, waiting⟩
  · refine ⟨[], same, .inl rfl, fun stopped => ?_⟩
    have stopping : writer.Stopping := .inl (activity_of_stopped stopped)
    exact (drains.owed_of_same orderly (drains.stopping stopping) same).symm
  · have owed := drains.owed_of_last orderly waiting attempts
    exact ⟨[last], attempts, .inr owed.symm, fun _ => owed.symm⟩

theorem step?_of_closed (closed : writer.closed = true)
    (still : writer.step? now delay place = none) :
    writer.isStopped = true ∨
      ∃ attempt, writer.activity = .writing attempt ∧ now < attempt.ends := by
  cases activity : writer.activity with
  | stopped => exact .inl (by rw [isStopped, activity])
  | writing attempt =>
    refine .inr ⟨attempt, rfl, Nat.lt_of_not_le fun ended => ?_⟩
    rw [step?_writing activity, if_pos ended] at still
    cases still
  | idle =>
    rw [step?_idle activity, Option.map_eq_none_iff, advance?] at still
    split at still
    · cases still
    · cases still
    · cases still
    · rw [if_pos closed] at still
      cases still
    · rw [if_pos closed] at still
      cases still

theorem Step.running (step : Step now delay writer place after left) :
    writer.isStopped = false := by
  cases step with
  | move idle => rw [isStopped, idle]
  | finish writing => rw [isStopped, writing]

theorem Step.began (step : Step now delay writer place after left) :
    after.attempts = writer.attempts ∧
        max now (after.receptive now) = max now (writer.receptive now) ∨
      ∃ last, after.attempts = last :: writer.attempts ∧
        last.began = max now (writer.receptive now) := by
  cases step with
  | move idle move =>
    rw [receptive_idle idle, Nat.max_self]
    cases move with
    | receive | answer =>
      exact .inl ⟨rfl, (congrArg _ (receptive_idle idle now)).trans (Nat.max_self now)⟩
    | stop => exact .inl ⟨rfl, Nat.max_self now⟩
    | flush | expire | drain => exact .inr ⟨_, rfl, rfl⟩
  | finish writing ended =>
    rename_i attempt
    obtain ⟨succeeded, same⟩ := writer.finish_eq attempt place
    rw [same, receptive_writing writing, Nat.max_eq_left ended]
    refine .inl ⟨rfl, ?_⟩
    have rested : (writer.conclude attempt.sequel succeeded).receptive now = now := by
      cases sequel : attempt.sequel <;> rfl
    rw [rested, Nat.max_self]

end Prompt

end Writer

namespace Timeline

variable {Place : Type}

/-- Nothing holds the store any more, and its writer knows. -/
structure Forsaken (time : Timeline Place) (writer : Writer) : Prop where
  released : time.tenant.released = true
  unread : time.tenant.loads.reading = none
  unawaited : time.tenant.loads.waiting = []
  present : time.tenant.store.writer = some writer
  closed : writer.closed = true

variable [Backend Place] {disturb : Place → Place → Prop} {made : Store} {place : Place}
variable {time dropped after : Timeline Place} {writer start : Writer}

/-- The timer goes off only when no command waits. -/
def Heeds (time : Timeline Place) : List (Act Place) → Prop
  | [] => True
  | act :: acts =>
    (act = .turn .timer → ∀ writer, time.store.writer = some writer → writer.queue = []) ∧
      (time.occur act).Heeds acts

section Forsaken

omit [Backend Place] in
theorem closable?_forsaken (closable : time.tenant.closable? = some writer) :
    { time with tenant := time.tenant.withWriter writer.close }.Forsaken writer.close := by
  unfold Tenant.closable? at closable
  obtain ⟨gone, -⟩ := Option.ite_none_right_eq_some.mp closable
  obtain ⟨released, quiet⟩ := Bool.and_eq_true_iff.mp gone
  simp only [Loads.isQuiet, Bool.and_eq_true, Option.isNone_iff_eq_none,
    List.isEmpty_iff] at quiet
  exact ⟨released, quiet.1, quiet.2, rfl, rfl⟩

theorem Forsaken.stepWriter? (forsaken : time.Forsaken writer) :
    time.tenant.stepWriter? time.now time.writeDelay time.place =
      (writer.step? time.now time.writeDelay time.place).map fun (writer, place) =>
        (time.tenant.withWriter writer, place) := by
  rw [Tenant.stepWriter?, forsaken.present]

theorem Forsaken.stepLoad? (forsaken : time.Forsaken writer) (now delay : Nat) (place : Place) :
    time.tenant.stepLoad? now delay place = none := by
  rw [Tenant.stepLoad?, forsaken.unread, forsaken.unawaited]

omit [Backend Place] in
theorem Forsaken.closable? (forsaken : time.Forsaken writer) : time.tenant.closable? = none := by
  simp [Tenant.closable?, forsaken.present, forsaken.closed]

omit [Backend Place] in
theorem Forsaken.cancel (forsaken : time.Forsaken writer) (ticket : Nat) :
    time.tenant.loads.cancel ticket = time.tenant.loads := by
  simp [Loads.cancel, Loads.isReading, forsaken.unread, forsaken.unawaited]

theorem Forsaken.turn (forsaken : time.Forsaken writer) {next : Writer} {left : Place}
    (step : Writer.Step time.now time.writeDelay writer time.place next left) :
    { time with tenant := time.tenant.withWriter next, place := left }.Forsaken next :=
  { forsaken with present := rfl, closed := step.closed.trans forsaken.closed }

/-- What an act makes of a writer that nothing is sent to: it may change the codec, or be a turn,
which only the timer can take in another way than `Writer.step?` does. -/
inductive Reached (time : Timeline Place) (writer : Writer) (act : Act Place) : Writer → Prop where
  | codec (encode : Settings → Option Bytes) : Reached time writer act { writer with encode }
  | turned {next : Writer} {left : Place}
      (step : Writer.Step time.now time.writeDelay writer time.place next left)
      (taken : writer.step? time.now time.writeDelay time.place = some (next, left) ∨
        act = .turn .timer) : Reached time writer act next

theorem Forsaken.occur (forsaken : time.Forsaken writer) (act : Act Place) :
    ∃ next, (time.occur act).Forsaken next ∧ time.Reached writer act next := by
  have unheard {after : Timeline Place} (kept : after.Forsaken writer) :
      ∃ next, after.Forsaken next ∧ time.Reached writer act next :=
    ⟨writer, kept, .codec writer.encode⟩
  have refused (called : Timeline Place) : (time.call called).Forsaken writer := by
    rwa [Timeline.call, if_pos forsaken.released]
  cases act with
  | update | load | flush => exact unheard (refused _)
  | cancel ticket =>
    have same := forsaken.cancel ticket
    exact unheard { forsaken with
      unread := (congrArg Loads.reading same).trans forsaken.unread
      unawaited := (congrArg Loads.waiting same).trans forsaken.unawaited }
  | release => exact unheard { forsaken with released := rfl }
  | listen | wait | pace | disturb => exact unheard { forsaken with }
  | refuse accepts =>
    exact ⟨_, ⟨forsaken.released, forsaken.unread, forsaken.unawaited,
      congrArg (Option.map _) forsaken.present, forsaken.closed⟩, .codec _⟩
  | turn task =>
    cases taken : time.turn? task with
    | none => exact unheard (by rwa [Timeline.occur, taken, Option.getD_none])
    | some after =>
      rw [Timeline.occur, taken, Option.getD_some]
      cases task with
      | writer =>
        rw [turn?, forsaken.stepWriter?, Option.map_map] at taken
        obtain ⟨⟨next, left⟩, stepped, rfl⟩ := Option.map_eq_some_iff.mp taken
        have step := Writer.step?_step stepped
        exact ⟨next, forsaken.turn step, .turned step (.inl stepped)⟩
      | timer =>
        have present : time.store.writer = some writer := forsaken.present
        rw [turn?, present, Option.bind_some] at taken
        obtain ⟨next, expired, rfl⟩ := Option.map_eq_some_iff.mp taken
        have step : Writer.Step time.now time.writeDelay writer time.place next time.place :=
          Writer.expire?_step expired
        exact ⟨next, forsaken.turn step, .turned step (.inr rfl)⟩
      | gate =>
        rw [turn?, forsaken.stepLoad?, Option.map_none] at taken
        cases taken
      | closing =>
        rw [turn?, forsaken.closable?, Option.map_none] at taken
        cases taken

theorem Forsaken.perform_keep (Kept : Writer → Prop)
    (refused : ∀ {writer} encode, Kept writer → Kept { writer with encode })
    (stepped : ∀ {now delay : Nat} {writer after : Writer} {place left : Place}, Kept writer →
      Writer.Step now delay writer place after left → Kept after)
    (forsaken : time.Forsaken writer) (kept : Kept writer) (acts : List (Act Place)) :
    ∃ last, (time.perform acts).Forsaken last ∧ Kept last := by
  induction acts generalizing time writer with
  | nil => exact ⟨writer, forsaken, kept⟩
  | cons act acts ih =>
    obtain ⟨next, forsaken, reached⟩ := forsaken.occur act
    cases reached with
    | codec encode => exact ih forsaken (refused encode kept)
    | turned step => exact ih forsaken (stepped kept step)

/-- Draining is kept as long as the timer does not win over commands. -/
theorem Forsaken.perform_drains (forsaken : time.Forsaken writer) (drains : start.Drains writer)
    {acts : List (Act Place)} (heeds : time.Heeds acts) :
    ∃ last, (time.perform acts).Forsaken last ∧ start.Drains last := by
  induction acts generalizing time writer with
  | nil => exact ⟨writer, forsaken, drains⟩
  | cons act acts ih =>
    obtain ⟨heeded, heeds⟩ := heeds
    obtain ⟨next, later, reached⟩ := forsaken.occur act
    cases reached with
    | codec encode => exact ih later (drains.refuse encode) heeds
    | turned step taken =>
      refine ih later (drains.step step ?_) heeds
      rcases taken with stepped | timer
      · exact Writer.step?_attempts drains.unflushed stepped
      · exact fun waits => absurd (heeded timer writer forsaken.present) waits

theorem Forsaken.busy (forsaken : time.Forsaken writer) (running : writer.isStopped = false)
    (free : ∀ attempt, writer.activity ≠ .writing attempt) : (time.turn? .writer).isSome := by
  rw [turn?, forsaken.stepWriter?, Option.map_map, Option.isSome_map]
  by_contra still
  rcases Writer.step?_of_closed forsaken.closed (Option.not_isSome_iff_eq_none.mp still) with
    stopped | ⟨attempt, writing, -⟩
  · cases running.symm.trans stopped
  · exact free attempt writing

end Forsaken

section Clock

/-- The clock's own order of turns, with a moment at which what is owed is attempted. -/
structure Subsides (start : Writer) (moment : Nat) (time : Timeline Place) (writer : Writer) : Prop
    extends time.Forsaken writer, start.Drains writer where
  alone : time.leaving = []
  timed : writer.attempts = start.attempts ∧
      max time.now (writer.receptive time.now) = moment ∨
    ∃ last, writer.attempts = last :: start.attempts ∧ last.began = moment

variable {moment : Nat}

theorem Subsides.ready? (subsides : time.Subsides start moment writer) :
    time.ready? = (writer.step? time.now time.writeDelay time.place).map fun (writer, place) =>
      { time with tenant := time.tenant.withWriter writer, place } := by
  have others : time.stepLeaving? = none := by simp [stepLeaving?, subsides.alone, stepFirst?]
  rw [Timeline.ready?, others, Option.none_or, stepTenant?, Tenant.step?, subsides.closable?,
    subsides.stepLoad?, subsides.stepWriter?, Option.map_none, Option.or_none, Option.map_map]
  rfl

omit [Backend Place] in
theorem Subsides.due? (subsides : time.Subsides start moment writer) :
    time.due? = writer.due? := by
  rw [Timeline.due?, Tenant.due, subsides.alone, subsides.present, subsides.unread]
  cases due : writer.due? <;> simp [due]

theorem Subsides.turn (subsides : time.Subsides start moment writer)
    (taken : time.ready? = some after) : ∃ next, after.Subsides start moment next := by
  rw [subsides.ready?] at taken
  obtain ⟨⟨next, left⟩, stepped, rfl⟩ := Option.map_eq_some_iff.mp taken
  have step := Writer.step?_step stepped
  have forsaken := subsides.toForsaken.turn step
  have drains := subsides.step step (Writer.step?_attempts subsides.unflushed stepped)
  refine ⟨next, { forsaken, drains with alone := subsides.alone, timed := ?_ }⟩
  rcases subsides.timed with ⟨same, ready⟩ | ⟨last, made, began⟩
  · rw [← same, ← ready]
    exact step.began
  · have waiting : writer.waiting = [] := by
      rcases subsides.once with same | ⟨_, _, waiting⟩
      · exact absurd (made.symm.trans same) (List.cons_ne_self _ _)
      · exact waiting
    obtain ⟨queue, pending⟩ := Writer.queue_of_waiting subsides.unflushed waiting
    exact .inr ⟨last, (step.attempts_of_nothing queue pending).1.trans made, began⟩

theorem Subsides.still (subsides : time.Subsides start moment writer)
    (still : time.ready? = none) :
    writer.isStopped = true ∨
      ∃ attempt, writer.activity = .writing attempt ∧ time.now < attempt.ends := by
  rw [subsides.ready?, Option.map_eq_none_iff] at still
  exact Writer.step?_of_closed subsides.toForsaken.closed still

omit [Backend Place] in
theorem Subsides.wait {attempt : Attempt} (subsides : time.Subsides start moment writer)
    (writing : writer.activity = .writing attempt) :
    { time with now := max time.now attempt.ends }.Subsides start moment writer := by
  refine { subsides with timed := subsides.timed.imp_left fun ⟨same, ready⟩ => ⟨same, ?_⟩ }
  rw [Writer.receptive_writing writing] at ready ⊢
  rw [← ready, Nat.max_assoc, Nat.max_self]

theorem Subsides.next (subsides : time.Subsides start moment writer)
    (stepped : time.next? none = some after) : ∃ next, after.Subsides start moment next := by
  unfold next? at stepped
  split at stepped
  · rename_i taken
    exact subsides.turn (taken.trans stepped)
  · rename_i still
    rw [subsides.due?, Writer.due?] at stepped
    rcases subsides.still still with stopped | ⟨attempt, writing, -⟩
    · rw [Writer.activity_of_stopped stopped] at stepped
      cases stepped
    · rw [writing] at stepped
      exact (subsides.wait writing).turn stepped

theorem Subsides.stopped (subsides : time.Subsides start moment writer)
    (stuck : time.next? none = none) : writer.isStopped = true := by
  unfold next? at stuck
  split at stuck
  · cases stuck
  · rename_i still
    refine (subsides.still still).resolve_right ?_
    rintro ⟨attempt, writing, -⟩
    rw [subsides.due?, Writer.due?, writing] at stuck
    rcases (subsides.wait writing).still stuck with stopped | ⟨other, same, early⟩
    · cases (Writer.activity_of_stopped stopped).symm.trans writing
    · cases writing.symm.trans same
      exact Nat.not_lt_of_le (Nat.le_max_right _ _) early

omit [Backend Place] in
theorem Subsides.began {further : List Attempt} (subsides : time.Subsides start moment writer)
    (attempts : writer.attempts = further ++ start.attempts) :
    ∀ attempt ∈ further, attempt.began = moment := by
  rcases subsides.timed with ⟨same, -⟩ | ⟨last, made, began⟩
  · rw [List.append_left_eq_self.mp (attempts.symm.trans same)]
    nofun
  · have only : further = [last] := List.append_cancel_right (attempts.symm.trans made)
    simpa [only] using began

theorem Subsides.run (subsides : time.Subsides start moment writer) :
    ∃ last, (time.run (fun _ => false) none).Subsides start moment last ∧
      last.isStopped = true := by
  obtain ⟨last, subsided⟩ := run_keep (fun _ => false) none
    (fun time => ∃ writer, time.Subsides start moment writer)
    (fun ⟨_, subsides⟩ stepped => subsides.next stepped) ⟨writer, subsides⟩
  exact ⟨last, subsided, subsided.stopped (run_stuck none time)⟩

end Clock

/-- When the last that held a store is gone, its writer attempts the revision scheduled last, unless
that was attempted before, and nothing else; it does not wait for the window, only for the write in
progress to end. Then it stops, and nothing is attempted any more. Should the timer win over
commands that wait, what waits may be attempted as well, in its order, but the last comes last. -/
theorem dropped_store_drains (fresh : made.Fresh)
    (run : Run disturb (Timeline.start made place) time)
    (present : time.store.writer = some writer) (answered : writer.asked = writer.answered)
    (drops : time.turn? .closing = some dropped) :
    (∃ last further, (dropped.run (fun _ => false) none).store.writer = some last ∧
      last.isStopped = true ∧ last.attempts = further ++ writer.attempts ∧
      further.map (·.revision) = writer.owed ∧
      ∀ attempt ∈ further, attempt.began = max time.now (writer.receptive time.now)) ∧
    ∀ acts, ∃ last further, (dropped.perform acts).store.writer = some last ∧
      last.attempts = further ++ writer.attempts ∧
      (dropped.Heeds acts →
        (further = [] ∨ further.map (·.revision) = writer.owed) ∧
          (last.isStopped = true → further.map (·.revision) = writer.owed)) ∧
      (last.isStopped = false → (∀ attempt, last.activity ≠ .writing attempt) →
        ((dropped.perform acts).turn? .writer).isSome = true) ∧
      (further.reverse.map (·.revision)).Sublist writer.waiting ∧
      (last.isStopped = true →
        last.attempts.head?.map (·.revision) =
            (writer.history.getLast?.map fun settings => ⟨writer.history.length, settings⟩) ∧
          ∀ more, ∃ after, ((dropped.perform acts).perform more).store.writer = some after ∧
            after.isStopped = true ∧ after.attempts = last.attempts) := by
  obtain ⟨found, closable, rfl⟩ := Option.map_eq_some_iff.mp drops
  obtain ⟨same, opened⟩ := Tenant.closable?_writer closable
  cases present.symm.trans same
  have orderly := (run.orderly fresh).writer writer present
  have forsaken := closable?_forsaken closable
  have ebbs := orderly.ebbs opened
  have drains : writer.Drains writer.close :=
    { toEbbs := ebbs
      unflushed := (run.accountable fresh present).unflushed answered
      once := .inl rfl }
  constructor
  · have subsides : Subsides writer (max time.now (writer.receptive time.now)) _ writer.close :=
      { forsaken, drains with alone := run.leaving, timed := .inl ⟨rfl, rfl⟩ }
    obtain ⟨last, subsided, stopped⟩ := subsides.run
    obtain ⟨further, attempts, -, owed⟩ := subsided.further orderly
    exact ⟨last, further, subsided.present, stopped, attempts, owed stopped,
      subsided.began attempts⟩
  · intro acts
    obtain ⟨last, later, ebbed⟩ := forsaken.perform_keep writer.Ebbs
      (fun encode kept => kept.refuse encode) (fun kept step => kept.step step) ebbs acts
    obtain ⟨further, attempts⟩ := ebbed.attempts
    refine ⟨last, further, later.present, attempts.symm, fun heeds => ?_, later.busy,
      ebbed.further_sublist attempts.symm, fun stopped => ?_⟩
    · obtain ⟨other, found, drained⟩ := forsaken.perform_drains drains heeds
      cases later.present.symm.trans found.present
      obtain ⟨made, same, rest⟩ := drained.further orderly
      cases List.append_cancel_right (attempts.trans same)
      exact rest
    · have done := ebbed.stopping (.inl (Writer.activity_of_stopped stopped))
      refine ⟨ebbed.latest orderly done, fun more => ?_⟩
      -- A stopped writer takes no turn, so nothing further changes it.
      obtain ⟨after, found, kept⟩ := later.perform_keep
        (fun after => after.isStopped = true ∧ after.attempts = last.attempts)
        (fun _ kept => kept)
        (fun kept step => by cases step.running.symm.trans kept.1) ⟨stopped, rfl⟩ more
      exact ⟨after, found.present, kept⟩

/-- A store that is let go of while its first write is in progress and two revisions wait. -/
def abandoned : Timeline Memory :=
  (Timeline.start Store.plain {}).perform
    [.load, .turn .gate, .turn .gate, .pace 0 20, .update { clockFormat := some .twelveHour },
      .turn .writer, .wait 50, .turn .writer, .wait 5,
      .update { clockFormat := some .twentyFourHour }, .update { clockFormat := some .twelveHour },
      .release]

theorem abandoned_write_is_followed_by_the_last :
    ∃ dropped writer last further, abandoned.turn? .closing = some dropped ∧
      abandoned.store.writer = some writer ∧
      (dropped.run (fun _ => false) none).store.writer = some last ∧ last.isStopped = true ∧
      last.attempts = further ++ writer.attempts ∧
      (further.map fun attempt => (attempt.revision.number, attempt.began)) = [(3, 70)] := by
  have run : Run (fun _ _ => True) (Timeline.start Store.plain {}) abandoned :=
    perform_run .start _
  obtain ⟨writer, present, owed, freed, answered⟩ : ∃ writer, abandoned.store.writer = some writer ∧
      writer.owed.map (·.number) = [3] ∧ max abandoned.now (writer.receptive abandoned.now) = 70 ∧
      writer.asked = writer.answered := ⟨_, rfl, rfl, rfl, rfl⟩
  obtain ⟨dropped, drops⟩ : ∃ dropped, abandoned.turn? .closing = some dropped := ⟨_, rfl⟩
  obtain ⟨⟨last, further, found, stopped, attempts, revisions, began⟩, -⟩ :=
    dropped_store_drains Store.plain_fresh run present answered drops
  refine ⟨dropped, writer, last, further, drops, present, found, stopped, attempts, ?_⟩
  have numbers : further.map (·.revision.number) = [3] := by
    rw [← owed, ← revisions, List.map_map]
    rfl
  calc further.map (fun attempt => (attempt.revision.number, attempt.began))
      = further.map (fun attempt => (attempt.revision.number, 70)) :=
        List.map_congr_left fun attempt member => by rw [began attempt member, freed]
    _ = (further.map (·.revision.number)).map (·, 70) := by rw [List.map_map, Function.comp_def]
    _ = [(3, 70)] := by rw [numbers, List.map_singleton]

/-- A store that is let go of when the window of its first revision has just passed, with a second
one on its way. -/
def lapsed : Timeline Memory :=
  (Timeline.start Store.plain {}).perform
    [.load, .turn .gate, .turn .gate, .update { clockFormat := some .twelveHour }, .turn .writer,
      .wait 50, .update { clockFormat := some .twentyFourHour }, .release]

/-- A store that is let go of when settings that are written already are scheduled once more. -/
def restated : Timeline Memory :=
  (Timeline.start Store.plain {}).perform
    [.load, .turn .gate, .turn .gate, .update { clockFormat := some .twelveHour }, .turn .writer,
      .wait 50, .turn .timer, .turn .writer, .update { clockFormat := some .twelveHour }, .release]

/-- A timer that wins over a command has both revisions written; and what counts as attempted is the
revision, for settings that were written before are written again. -/
theorem drained_twice_and_again :
    (∃ dropped writer last, Run (fun _ _ => True) (Timeline.start Store.plain {}) lapsed ∧
      lapsed.turn? .closing = some dropped ∧ lapsed.store.writer = some writer ∧
      writer.asked = writer.answered ∧ writer.attempts = [] ∧
      writer.deadline = some lapsed.now ∧ writer.queue.length = 1 ∧
      (dropped.perform (.turn .timer :: List.replicate 4 (.turn .writer))).store.writer = some last ∧
      last.isStopped = true ∧
      (last.attempts.map fun attempt => (attempt.revision.number, attempt.began)) =
        [(2, 50), (1, 50)]) ∧
    ∃ dropped writer last, Run (fun _ _ => True) (Timeline.start Store.plain {}) restated ∧
      restated.turn? .closing = some dropped ∧ restated.store.writer = some writer ∧
      writer.asked = writer.answered ∧
      (writer.attempts.map (·.revision.settings)).head? = writer.history.getLast? ∧
      (dropped.perform (List.replicate 3 (.turn .writer))).store.writer = some last ∧
      last.isStopped = true ∧ last.attempts.length = writer.attempts.length + 1 :=
  ⟨⟨_, _, _, perform_run .start _, rfl, rfl, rfl, rfl, rfl, rfl, rfl, rfl, rfl⟩,
    _, _, _, perform_run .start _, rfl, rfl, rfl, rfl, rfl, rfl, rfl⟩

end Timeline
end StartPage
