import Mathlib.Data.List.Basic
import StartPage.Proofs.Store.Life

/-!
The order in which a writer keeps what it was given. `revisions` lists what was attempted, what
is pending and what waits in the queue. A turn of the writer may drop the pending revision in
favour of a newer one and changes nothing else in this list, so its numbers rise and it ends with
the newest revision there is.
-/
namespace StartPage

def Command.revision? : Command → Option Revision
  | .schedule revision => some revision
  | .flush => none

@[simp] theorem Command.revision?_schedule (revision : Revision) :
    (Command.schedule revision).revision? = some revision := rfl

@[simp] theorem Command.revision?_flush : Command.flush.revision? = none := rfl

namespace Writer

/-- What was attempted, is pending or waits in the queue, in this order. -/
def revisions (writer : Writer) : List Revision :=
  writer.attempts.reverse.map (·.revision) ++
    (writer.pending.toList ++ writer.queue.filterMap Command.revision?)

/-- The writer stopped, or will stop when its write has ended. -/
def Stopping (writer : Writer) : Prop :=
  writer.activity = .stopped ∨
    ∃ attempt, writer.activity = .writing attempt ∧ attempt.sequel = .stop

structure Orderly (writer : Writer) : Prop where
  counted : writer.scheduled = writer.history.length
  rising : writer.revisions.Pairwise (·.number < ·.number)
  known : ∀ revision ∈ writer.revisions,
    0 < revision.number ∧ writer.history[revision.number - 1]? = some revision.settings
  newest : writer.revisions.getLast? =
    writer.history.getLast?.map fun settings => ⟨writer.history.length, settings⟩
  timed : writer.deadline.isSome = writer.pending.isSome
  writing : ∀ attempt, writer.activity = .writing attempt →
    writer.attempts.head? = some attempt ∧ writer.pending = none
  stopping : writer.Stopping → writer.closed = true

theorem orderly_fresh (store : Store) : store.freshWriter.Orderly where
  counted := rfl
  rising := .nil
  known := nofun
  newest := rfl
  timed := rfl
  writing := nofun
  stopping := by rintro (stopped | ⟨_, writing, _⟩) <;> contradiction

theorem Orderly.number_le {writer : Writer} (orderly : writer.Orderly) {revision : Revision}
    (member : revision ∈ writer.revisions) : revision.number ≤ writer.history.length := by
  have found := (orderly.known revision member).2
  have below := (List.getElem?_eq_some_iff.mp found).1
  omega

theorem Orderly.attempts_eq_nil {writer : Writer} (orderly : writer.Orderly)
    (none : writer.history = []) : writer.attempts = [] := by
  apply List.eq_nil_iff_forall_not_mem.mpr
  intro attempt member
  have made : attempt.revision ∈ writer.revisions := by
    apply List.mem_append_left
    exact List.mem_map_of_mem (List.mem_reverse.mpr member)
  have positive := (orderly.known _ made).1
  have within := orderly.number_le made
  rw [none] at within
  exact Nat.not_lt_of_le within positive

section Commands

variable {writer : Writer}

theorem Orderly.not_stopped (orderly : writer.Orderly) (opened : writer.closed = false) :
    writer.isStopped = false := by
  unfold isStopped
  split
  · rename_i stopped
    cases opened.symm.trans (orderly.stopping (.inl stopped))
  · rfl

theorem schedule_eq (running : writer.isStopped = false) (settings : Settings) :
    writer.schedule settings =
      { writer with
        queue := writer.queue ++ [.schedule ⟨writer.scheduled + 1, settings⟩]
        scheduled := writer.scheduled + 1
        history := writer.history ++ [settings] } := by
  simp [schedule, send, running]

theorem schedule_revisions (running : writer.isStopped = false) (settings : Settings) :
    (writer.schedule settings).revisions =
      writer.revisions ++ [⟨writer.scheduled + 1, settings⟩] := by
  rw [schedule_eq running]
  simp [revisions]

theorem schedule_orderly (orderly : writer.Orderly) (opened : writer.closed = false)
    (settings : Settings) : (writer.schedule settings).Orderly := by
  have running := orderly.not_stopped opened
  have revisions := schedule_revisions running settings
  rw [schedule_eq running] at revisions ⊢
  refine { orderly with counted := ?_, rising := ?_, known := ?_, newest := ?_ }
  · simp [orderly.counted]
  · -- The new number is beyond all that were given so far.
    rw [revisions, List.pairwise_append]
    refine ⟨orderly.rising, List.pairwise_singleton _ _, ?_⟩
    intro older member newer last
    rw [List.mem_singleton.mp last, orderly.counted]
    exact Nat.lt_succ_of_le (orderly.number_le member)
  · intro revision member
    rw [revisions] at member
    rcases List.mem_append.mp member with older | last
    · obtain ⟨positive, found⟩ := orderly.known revision older
      exact ⟨positive, List.getElem?_append_left (List.getElem?_eq_some_iff.mp found).1 ▸ found⟩
    · rw [List.mem_singleton.mp last, orderly.counted]
      simp
  · rw [revisions, orderly.counted]
    simp

theorem flush_history (writer : Writer) : writer.flush.history = writer.history := by
  unfold Writer.flush Writer.send
  split <;> rfl

theorem flush_scheduled (writer : Writer) : writer.flush.scheduled = writer.scheduled := by
  unfold Writer.flush Writer.send
  split <;> rfl

theorem flush_orderly (orderly : writer.Orderly) : writer.flush.Orderly := by
  unfold Writer.flush Writer.send
  split
  · exact orderly
  · -- A flush waits in the queue but carries no revision.
    have same : ∀ flushed : Writer, flushed.attempts = writer.attempts →
        flushed.pending = writer.pending → flushed.queue = writer.queue ++ [.flush] →
        flushed.revisions = writer.revisions := by
      intro flushed attempts pending queue
      simp [revisions, attempts, pending, queue]
    have revisions := same { writer with
      queue := writer.queue ++ [.flush], asked := writer.asked + 1 } rfl rfl rfl
    exact { orderly with
      rising := revisions ▸ orderly.rising
      known := revisions ▸ orderly.known
      newest := revisions ▸ orderly.newest }

end Commands

section Turns

variable {Place : Type} [Backend Place] {writer after : Writer} {now delay : Nat}
variable {place left : Place}

theorem begin_revisions (writer : Writer) (revision : Revision) (sequel : Sequel) :
    (writer.begin now delay revision sequel).revisions =
      writer.attempts.reverse.map (·.revision) ++
        revision :: writer.queue.filterMap Command.revision? := by
  simp [revisions, begin]

theorem conclude_revisions (sequel : Sequel) (succeeded : Bool) :
    (writer.conclude sequel succeeded).revisions = writer.revisions := rfl

theorem finish_eq (writer : Writer) (attempt : Attempt) (place : Place) :
    ∃ succeeded, (writer.finish attempt place).1 = writer.conclude attempt.sequel succeeded := by
  unfold finish
  split
  · exact ⟨false, rfl⟩
  · split
    · exact ⟨true, rfl⟩
    · exact ⟨false, rfl⟩

theorem Step.history (step : Step now delay writer place after left) :
    after.history = writer.history ∧ after.scheduled = writer.scheduled := by
  cases step with
  | move _ move => cases move <;> exact ⟨rfl, rfl⟩
  | finish =>
    rename_i attempt _ _
    obtain ⟨succeeded, same⟩ := writer.finish_eq attempt place
    rw [same]
    exact ⟨rfl, rfl⟩

/-- Only the pending revision is ever dropped, when a newer one takes its place. -/
theorem Step.revisions (step : Step now delay writer place after left) :
    after.revisions.Sublist writer.revisions ∧
      after.revisions.getLast? = writer.revisions.getLast? := by
  have of_eq : after.revisions = writer.revisions →
      after.revisions.Sublist writer.revisions ∧
        after.revisions.getLast? = writer.revisions.getLast? :=
    fun same => same ▸ ⟨.refl _, rfl⟩
  cases step with
  | move _ move =>
    cases move with
    | receive queue =>
      -- What was pending falls out; the revision received stands after it and stays.
      rename_i revision rest
      have before : writer.revisions = writer.attempts.reverse.map (·.revision) ++
          (writer.pending.toList ++ revision :: rest.filterMap Command.revision?) := by
        simp [Writer.revisions, queue]
      rw [before, ← List.append_assoc, List.getLast?_append_of_ne_nil _ (by simp),
        List.append_assoc]
      exact ⟨(List.sublist_append_right _ _).append_left _,
        List.getLast?_append_of_ne_nil _ (by simp)⟩
    | flush queue pending =>
      apply of_eq
      rw [begin_revisions]
      simp [Writer.revisions, queue, pending, List.filterMap_cons]
    | answer queue pending => exact of_eq (by simp [Writer.revisions, queue, List.filterMap_cons])
    | expire pending =>
      apply of_eq
      rw [begin_revisions]
      simp [Writer.revisions, pending]
    | drain _ pending =>
      apply of_eq
      rw [begin_revisions]
      simp [Writer.revisions, pending]
    | stop => exact of_eq rfl
  | finish =>
    rename_i attempt _ _
    obtain ⟨succeeded, same⟩ := writer.finish_eq attempt place
    exact of_eq (same ▸ conclude_revisions _ _)

theorem begin_timed (writer : Writer) (revision : Revision) (sequel : Sequel) :
    (writer.begin now delay revision sequel).deadline.isSome =
      (writer.begin now delay revision sequel).pending.isSome := rfl

theorem begin_writing (writer : Writer) (revision : Revision) (sequel : Sequel) (attempt : Attempt)
    (writing : (writer.begin now delay revision sequel).activity = .writing attempt) :
    (writer.begin now delay revision sequel).attempts.head? = some attempt ∧
      (writer.begin now delay revision sequel).pending = none := by
  cases writing
  exact ⟨rfl, rfl⟩

theorem begin_not_stopping (writer : Writer) (revision : Revision) {sequel : Sequel}
    (going : sequel ≠ .stop) : ¬ (writer.begin now delay revision sequel).Stopping := by
  rintro (stopped | ⟨attempt, writing, stop⟩)
  · cases stopped
  · cases writing
    exact going stop

theorem not_stopping_of_idle (idle : writer.activity = .idle) : ¬ writer.Stopping := by
  rintro (stopped | ⟨attempt, writing, _⟩)
  · cases idle.symm.trans stopped
  · cases idle.symm.trans writing

theorem Step.timed (step : Step now delay writer place after left) (orderly : writer.Orderly) :
    after.deadline.isSome = after.pending.isSome := by
  cases step with
  | move _ move =>
    cases move with
    | receive => rfl
    | answer _ pending => simp [pending]
    | stop => exact orderly.timed
    | flush | expire | drain => exact begin_timed ..
  | finish =>
    rename_i attempt _ _
    obtain ⟨succeeded, same⟩ := writer.finish_eq attempt place
    exact same ▸ orderly.timed

theorem Step.writing (step : Step now delay writer place after left) (attempt : Attempt)
    (writing : after.activity = .writing attempt) :
    after.attempts.head? = some attempt ∧ after.pending = none := by
  cases step with
  | move idle move =>
    cases move with
    | receive | answer => cases idle.symm.trans writing
    | stop => cases writing
    | flush | expire | drain => exact begin_writing _ _ _ attempt writing
  | finish =>
    rename_i ended _ _
    obtain ⟨succeeded, same⟩ := writer.finish_eq ended place
    rw [same] at writing
    unfold conclude at writing
    dsimp only at writing
    split at writing <;> cases writing

theorem Step.stopping (step : Step now delay writer place after left) (orderly : writer.Orderly)
    (stopping : after.Stopping) : after.closed = true := by
  rw [step.closed]
  cases step with
  | move idle move =>
    cases move with
    | receive | answer => exact absurd stopping (not_stopping_of_idle idle)
    | flush | expire => exact absurd stopping (begin_not_stopping _ _ (by decide))
    | drain _ _ closed => exact closed
    | stop _ _ closed => exact closed
  | finish writing =>
    rename_i ended _
    obtain ⟨succeeded, same⟩ := writer.finish_eq ended place
    -- A write that is to stop the writer was begun only once the writer was closed.
    by_cases stop : ended.sequel = .stop
    · exact orderly.stopping (.inr ⟨ended, writing, stop⟩)
    · rw [same] at stopping
      have idle : (writer.conclude ended.sequel succeeded).activity = .idle := if_neg stop
      exact absurd stopping (not_stopping_of_idle idle)

theorem Step.orderly (step : Step now delay writer place after left) (orderly : writer.Orderly) :
    after.Orderly where
  counted := by rw [step.history.1, step.history.2, orderly.counted]
  rising := orderly.rising.sublist step.revisions.1
  known := by
    rw [step.history.1]
    exact fun revision member => orderly.known revision (step.revisions.1.subset member)
  newest := by rw [step.revisions.2, step.history.1, orderly.newest]
  timed := step.timed orderly
  writing := step.writing
  stopping := step.stopping orderly

end Turns

end Writer

namespace Store

/-- Before it is ready a store has no writer and the default settings; afterwards it has a
writer, queues nothing, and the newest thing scheduled is its settings. -/
structure Orderly (store : Store) : Prop where
  unready : store.phase ≠ .ready → store.writer = none ∧ store.settings = .default
  ready : store.phase = .ready → store.writer.isSome = true ∧ store.queued = []
  writer : ∀ writer, store.writer = some writer → writer.Orderly
  current : ∀ writer, store.writer = some writer →
    ∀ settings ∈ writer.history.getLast?, settings = store.settings

variable {store : Store}

theorem Orderly.ready_of_writer (orderly : store.Orderly) {writer : Writer}
    (present : store.writer = some writer) : store.phase = .ready := by
  by_contra unready
  cases (orderly.unready unready).1.symm.trans present

theorem schedule_orderly (orderly : store.Orderly) (opened : store.Open)
    {settings : Settings} (ready : store.phase = .ready) :
    ({ store with settings }.schedule).Orderly := by
  obtain ⟨writer, present⟩ := Option.isSome_iff_exists.mp (orderly.ready ready).1
  have kept := orderly.writer writer present
  have scheduled : ({ store with settings }.schedule).writer = some (writer.schedule settings) := by
    simp [schedule, present]
  refine ⟨fun unready => absurd ready unready, fun _ => ⟨by rw [scheduled]; rfl,
    (orderly.ready ready).2⟩, ?_, ?_⟩
  · intro after found
    cases scheduled.symm.trans found
    exact Writer.schedule_orderly kept (opened writer present) settings
  · intro after found newest member
    cases scheduled.symm.trans found
    rw [Writer.schedule_eq (kept.not_stopped (opened writer present))] at member
    have same : settings = newest := by simpa using member
    exact same.symm

theorem commit_orderly (orderly : store.Orderly) (opened : store.Open)
    (request : Except Error Patch) : (store.commit request).1.Orderly := by
  rcases store.commit_cases request with same | ⟨patch, unready, same⟩ | ⟨patch, ready, same⟩ <;>
    rw [same]
  · exact orderly
  · exact { orderly with ready := fun ready => absurd ready unready }
  · exact schedule_orderly orderly opened ready

theorem opening_orderly (store : Store) (loaded : Settings) : (store.opening loaded).Orderly where
  unready := fun unready => absurd rfl unready
  ready := fun _ => ⟨rfl, rfl⟩
  writer := by
    rintro writer ⟨⟩
    exact Writer.orderly_fresh store
  current := by
    rintro writer ⟨⟩
    nofun

theorem becomeReady_orderly (store : Store) (loaded : Settings) (migrated : Bool) :
    (store.becomeReady loaded migrated).Orderly := by
  rw [becomeReady_eq]
  split
  · refine schedule_orderly (opening_orderly store loaded) ?_ rfl
    rintro writer ⟨⟩
    rfl
  · exact opening_orderly store loaded

theorem withWriter_orderly (orderly : store.Orderly) {before after : Writer}
    (present : store.writer = some before) (kept : after.Orderly)
    (history : after.history = before.history) : { store with writer := some after }.Orderly where
  unready := fun unready => nomatch present.symm.trans (orderly.unready unready).1
  ready := fun ready => ⟨rfl, (orderly.ready ready).2⟩
  writer := by
    rintro writer ⟨⟩
    exact kept
  current := by
    rintro writer ⟨⟩
    rw [history]
    exact orderly.current before present

theorem mapWriter_orderly (orderly : store.Orderly) {change : Writer → Writer}
    (kept : ∀ writer, store.writer = some writer → (change writer).Orderly)
    (history : ∀ writer : Writer, (change writer).history = writer.history) :
    { store with writer := store.writer.map change }.Orderly := by
  apply mapWriter_keep Orderly orderly
  intro writer present
  exact withWriter_orderly orderly present (kept writer present) (history writer)

theorem Deed.orderly {Place : Type} [Backend Place] {disturb : Place → Place → Prop}
    {store after : Store} {place left : Place} (deed : Deed disturb store place after left)
    (orderly : store.Orderly) : after.Orderly := by
  cases deed with
  | commit opened request => exact commit_orderly orderly opened request
  | begin unready =>
    exact { orderly with unready := fun _ => orderly.unready unready, ready := nofun }
  | ready => exact becomeReady_orderly ..
  | writer present step =>
    exact withWriter_orderly orderly present (step.orderly (orderly.writer _ present)) step.history.1
  | close present =>
    have kept := orderly.writer _ present
    exact withWriter_orderly orderly present { kept with stopping := fun _ => rfl } rfl
  | flush =>
    exact mapWriter_orderly orderly
      (fun writer present => Writer.flush_orderly (orderly.writer writer present))
      Writer.flush_history
  | refuse accepts =>
    apply mapWriter_orderly orderly
    · intro writer present
      exact { orderly.writer writer present with }
    · intro writer
      rfl
  | disturb => exact orderly

theorem orderly_of_fresh (fresh : store.Fresh) : store.Orderly := by
  obtain ⟨config, chain, host, made, codec, new, rfl⟩ := fresh
  rw [new_eq new]
  refine ⟨fun _ => ⟨rfl, rfl⟩, (fun ready => nomatch ready), ?_, ?_⟩
  · rintro writer ⟨⟩
  · rintro writer ⟨⟩

end Store

theorem Timeline.Run.orderly {Place : Type} [Backend Place] {disturb : Place → Place → Prop}
    {store : Store} {place : Place} {time : Timeline Place} (fresh : store.Fresh)
    (run : Timeline.Run disturb (Timeline.start store place) time) : time.store.Orderly :=
  (run.life fresh.writer).1.keep (fun store _ => store.Orderly) (Store.orderly_of_fresh fresh)
    Store.Deed.orderly

end StartPage
