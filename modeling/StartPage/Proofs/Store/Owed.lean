import StartPage.Proofs.Store.Flush
import StartPage.Proofs.Store.Receipts

/-!
A flush among other commands. The queue keeps what was sent before it in front of it and what was
sent later behind it, and the writer takes nothing from behind before the flush is answered. So the
answer comes with the newest of what stood in front written last and everything behind still in the
queue. Each turn of the writer brings the answer nearer, and nothing that others do puts it off.
-/
namespace StartPage

def newest? (history : List Settings) : Option Revision :=
  history.getLast?.map fun settings => ⟨history.length, settings⟩

theorem numbered_append (count : Nat) (states : List Settings) (last : Settings) :
    numbered count (states ++ [last]) =
      numbered count states ++ [⟨count + states.length + 1, last⟩] := by
  induction states generalizing count with
  | nil => rfl
  | cons first rest ih =>
    rw [List.cons_append, numbered, ih, numbered, List.length_cons, Nat.add_assoc count 1,
      Nat.add_comm 1, List.cons_append]

namespace Writer

/-- What is written, or stands to be written, before anything behind the front of the queue. -/
def revisionsBefore (writer : Writer) (front : List Command) : List Revision :=
  writer.attempts.reverse.map (·.revision) ++
    (writer.pending.toList ++ front.filterMap Command.revision?)

/-- How many turns at most it takes to answer a flush that has only the front of the queue before
it. -/
def turnsBefore (writer : Writer) (front : List Command) : Nat :=
  3 * (front.length + 1) + (if writer.pending.isSome then 2 else 0) + activityWork writer.activity

/-- The flush with this ticket is not answered yet. It was sent after `before` had been scheduled,
and `since` came later. At most `left` turns of the writer bring the answer. -/
inductive Owes (before since : List Settings) (ticket left : Nat) (writer : Writer) : Prop where
  | waiting {front back : List Command} (queue : writer.queue = front ++ .flush :: back)
      (turn : writer.answered + front.countP Command.isFlush + writer.activity.flushes = ticket)
      (going : ¬ writer.Stopping)
      (ahead : (writer.revisionsBefore front).getLast? = newest? before)
      (behind : back.filterMap Command.revision? = numbered before.length since)
      (near : writer.turnsBefore front ≤ left)
  | writing {attempt : Attempt} (writing : writer.activity = .writing attempt)
      (answers : attempt.sequel = .answerFlush) (turn : writer.answered = ticket)
      (ahead : (writer.revisionsBefore []).getLast? = newest? before)
      (behind : writer.queue.filterMap Command.revision? = numbered before.length since)
      (near : 2 ≤ left)

structure Answers (before since : List Settings) (ticket : Nat) (writer : Writer) : Prop where
  answered : writer.answered = ticket + 1
  idle : writer.activity = .idle
  pending : writer.pending = none
  written : writer.attempts.head?.map (·.revision) = newest? before
  behind : writer.queue.filterMap Command.revision? = numbered before.length since

/-- Before a flush is answered nothing is attempted that was scheduled after it, and all of that
waits at the end of the queue. -/
structure HoldsBack (before since : List Settings) (writer : Writer) : Prop where
  history : writer.history = before ++ since
  early : ∀ attempt ∈ writer.attempts, attempt.revision.number ≤ before.length
  behind : numbered before.length since <:+ writer.queue.filterMap Command.revision?

variable {before since : List Settings} {ticket left : Nat} {writer after : Writer}

theorem Owes.unanswered (owes : writer.Owes before since ticket left) :
    writer.answered ≤ ticket := by
  cases owes with
  | waiting _ turn => omega
  | writing _ _ turn => omega

theorem not_stopping_of_answering {attempt : Attempt} (writing : writer.activity = .writing attempt)
    (answers : attempt.sequel = .answerFlush) : ¬ writer.Stopping := by
  rintro (stopped | ⟨other, same, stop⟩)
  · cases writing.symm.trans stopped
  · cases writing.symm.trans same
    cases answers.symm.trans stop

theorem Owes.going (owes : writer.Owes before since ticket left) : ¬ writer.Stopping := by
  cases owes with
  | waiting _ _ going => exact going
  | writing writing answers => exact not_stopping_of_answering writing answers

theorem Owes.running (owes : writer.Owes before since ticket left) : writer.isStopped = false := by
  unfold isStopped
  split
  · rename_i stopped
    exact absurd (.inl stopped) owes.going
  · rfl

theorem Owes.mono {more : Nat} (owes : writer.Owes before since ticket left) (le : left ≤ more) :
    writer.Owes before since ticket more := by
  cases owes with
  | waiting queue turn going ahead behind near =>
    exact .waiting queue turn going ahead behind (Nat.le_trans near le)
  | writing writing answers turn ahead behind near =>
    exact .writing writing answers turn ahead behind (Nat.le_trans near le)

theorem Owes.left_pos (owes : writer.Owes before since ticket left) : 0 < left := by
  cases owes with
  | waiting _ _ _ _ _ near =>
    rw [turnsBefore] at near
    omega
  | writing _ _ _ _ _ near => omega

theorem number_le_of_newest {revisions : List Revision}
    (rising : revisions.Pairwise (·.number < ·.number))
    (newest : revisions.getLast? = newest? before) {revision : Revision}
    (member : revision ∈ revisions) : revision.number ≤ before.length := by
  rcases List.eq_nil_or_concat' revisions with rfl | ⟨older, last, rfl⟩
  · cases member
  · rw [List.getLast?_concat, newest?] at newest
    obtain ⟨settings, -, rfl⟩ := Option.map_eq_some_iff.mp newest.symm
    rcases List.mem_append.mp member with older | last
    · exact Nat.le_of_lt
        ((List.pairwise_append.mp rising).2.2 _ older _ (List.mem_singleton_self _))
    · rw [List.mem_singleton.mp last]

theorem mem_revisionsBefore {attempt : Attempt} (member : attempt ∈ writer.attempts)
    (front : List Command) : attempt.revision ∈ writer.revisionsBefore front :=
  List.mem_append_left _ (List.mem_map_of_mem (List.mem_reverse.mpr member))

theorem Owes.holdsBack (owes : writer.Owes before since ticket left) (orderly : writer.Orderly)
    (history : writer.history = before ++ since) : writer.HoldsBack before since := by
  cases owes with
  | @waiting front back queue _ _ ahead behind =>
    have split : writer.revisions =
        writer.revisionsBefore front ++ back.filterMap Command.revision? := by
      simp [revisions, revisionsBefore, queue, List.filterMap_cons]
    have rising := orderly.rising.sublist (split ▸ List.sublist_append_left _ _)
    refine ⟨history, ?_, ?_⟩
    · intro attempt member
      exact number_le_of_newest rising ahead (mem_revisionsBefore member front)
    · rw [queue, List.filterMap_append, ← behind]
      exact List.suffix_append _ _
  | writing _ _ _ ahead behind =>
    have rising : (writer.revisionsBefore []).Pairwise (·.number < ·.number) :=
      orderly.rising.sublist (.append_left (.append_left (List.nil_sublist _) _) _)
    refine ⟨history, ?_, behind ▸ List.suffix_rfl⟩
    intro attempt member
    exact number_le_of_newest rising ahead (mem_revisionsBefore member [])

theorem schedule_answered (writer : Writer) (settings : Settings) :
    (writer.schedule settings).answered = writer.answered := by
  unfold Writer.schedule Writer.send
  split <;> rfl

theorem schedule_all_answered (states : List Settings) (writer : Writer) :
    (states.foldl Writer.schedule writer).answered = writer.answered := by
  induction states generalizing writer with
  | nil => rfl
  | cons settings rest ih => exact (ih _).trans (schedule_answered writer settings)

theorem flush_answered (writer : Writer) : writer.flush.answered = writer.answered := by
  unfold Writer.flush Writer.send
  split <;> rfl

section Commands

theorem Owes.schedule (owes : writer.Owes before since ticket left)
    (counted : writer.scheduled = before.length + since.length) (settings : Settings) :
    (writer.schedule settings).Owes before (since ++ [settings]) ticket left := by
  rw [schedule_eq owes.running, counted]
  have sent : ∀ commands : List Command,
      commands.filterMap Command.revision? = numbered before.length since →
      (commands ++ [Command.schedule ⟨before.length + since.length + 1, settings⟩]).filterMap
        Command.revision? = numbered before.length (since ++ [settings]) := by
    intro commands behind
    rw [List.filterMap_append, behind, numbered_append]
    rfl
  cases owes with
  | @waiting front back queue turn going ahead behind near =>
    have queued : writer.queue ++ [.schedule ⟨before.length + since.length + 1, settings⟩] =
        front ++ .flush :: (back ++ [.schedule ⟨before.length + since.length + 1, settings⟩]) := by
      rw [queue, List.append_assoc, List.cons_append]
    exact .waiting queued turn going ahead (sent back behind) near
  | writing writing answers turn ahead behind near =>
    exact .writing writing answers turn ahead (sent _ behind) near

theorem Owes.flush (owes : writer.Owes before since ticket left) :
    writer.flush.Owes before since ticket left := by
  have other : ∀ commands : List Command,
      (commands ++ [Command.flush]).filterMap Command.revision? =
        commands.filterMap Command.revision? := by
    intro commands
    rw [List.filterMap_append]
    exact List.append_nil _
  rw [flush_eq owes.running]
  cases owes with
  | @waiting front back queue turn going ahead behind near =>
    have queued : writer.queue ++ [.flush] = front ++ .flush :: (back ++ [.flush]) := by
      rw [queue, List.append_assoc, List.cons_append]
    exact .waiting queued turn going ahead ((other back).trans behind) near
  | writing writing answers turn ahead behind near =>
    exact .writing writing answers turn ahead ((other _).trans behind) near

theorem Owes.close (owes : writer.Owes before since ticket left) :
    writer.close.Owes before since ticket left := by
  cases owes with
  | waiting queue turn going ahead behind near =>
    exact .waiting queue turn going ahead behind near
  | writing writing answers turn ahead behind near =>
    exact .writing writing answers turn ahead behind near

theorem Owes.refuse (owes : writer.Owes before since ticket left)
    (encode : Settings → Option Bytes) :
    { writer with encode }.Owes before since ticket left := by
  cases owes with
  | waiting queue turn going ahead behind near =>
    exact .waiting queue turn going ahead behind near
  | writing writing answers turn ahead behind near =>
    exact .writing writing answers turn ahead behind near

theorem Orderly.owes_flush (orderly : writer.Orderly) (accountable : writer.Accountable)
    (opened : writer.closed = false) :
    writer.flush.Owes writer.history [] writer.asked writer.flush.work := by
  rw [flush_eq (orderly.not_stopped opened)]
  have going : ¬ writer.Stopping := by
    intro stopping
    cases opened.symm.trans (orderly.stopping stopping)
  rw [Accountable] at accountable
  refine .waiting rfl ?_ going orderly.newest rfl ?_
  · exact accountable.symm
  · simp [work, turnsBefore]

end Commands

section Turns

variable {Place : Type} [Backend Place] {now delay : Nat} {place place' : Place}

theorem cons_eq_append_flush {command : Command} {rest front back : List Command}
    (queue : command :: rest = front ++ .flush :: back) :
    (front = [] ∧ command = .flush ∧ rest = back) ∨
      ∃ further, front = command :: further ∧ rest = further ++ .flush :: back := by
  cases front with
  | nil =>
    obtain ⟨same, rfl⟩ := List.cons.inj queue
    exact .inl ⟨rfl, same, rfl⟩
  | cons first further =>
    obtain ⟨rfl, same⟩ := List.cons.inj queue
    exact .inr ⟨further, rfl, same⟩

theorem getLast?_receive (writer : Writer) (revision : Revision) (front queue : List Command)
    (deadline : Option Nat) :
    (({ writer with queue, pending := some revision, deadline } : Writer).revisionsBefore
      front).getLast? = (writer.revisionsBefore (.schedule revision :: front)).getLast? := by
  have later : ∀ older : List Revision,
      (older ++ revision :: front.filterMap Command.revision?).getLast? =
        (revision :: front.filterMap Command.revision?).getLast? :=
    fun older => List.getLast?_append_of_ne_nil older (List.cons_ne_nil _ _)
  simp only [revisionsBefore, Option.toList_some, List.singleton_append, List.filterMap_cons,
    Command.revision?_schedule, ← List.append_assoc, later]

theorem revisionsBefore_begin {revision : Revision} (pending : writer.pending = some revision)
    (front queue : List Command) (sequel : Sequel) :
    (({ writer with queue } : Writer).begin now delay revision sequel).revisionsBefore front =
      writer.revisionsBefore front := by
  simp [revisionsBefore, begin, pending]

theorem revisionsBefore_flush (writer : Writer) (front : List Command) :
    writer.revisionsBefore (.flush :: front) = writer.revisionsBefore front := rfl

theorem countP_flush (front : List Command) :
    (Command.flush :: front).countP Command.isFlush = front.countP Command.isFlush + 1 :=
  List.countP_cons_of_pos rfl

theorem turnsBefore_begin (now delay : Nat) {revision : Revision} {writer : Writer}
    (idle : writer.activity = .idle) (pending : writer.pending = some revision)
    (front queue : List Command) (sequel : Sequel) :
    (({ writer with queue } : Writer).begin now delay revision sequel).turnsBefore front <
      writer.turnsBefore front := by
  simp [turnsBefore, begin, idle, pending, activityWork]

theorem turnsBefore_mono (writer : Writer) {command : Command} {front : List Command} :
    writer.turnsBefore front ≤ writer.turnsBefore (command :: front) := by
  simp only [turnsBefore, List.length_cons]
  omega

theorem turnsBefore_conclude {attempt : Attempt} (writing : writer.activity = .writing attempt)
    (succeeded : Bool) (front : List Command) :
    (writer.conclude attempt.sequel succeeded).turnsBefore front < writer.turnsBefore front := by
  cases attempt.sequel <;> simp [turnsBefore, conclude, writing, activityWork]

theorem Owes.move (owes : writer.Owes before since ticket left) (idle : writer.activity = .idle)
    (move : writer.Move now delay after) :
    (∃ fewer < left, after.Owes before since ticket fewer) ∨ after.Answers before since ticket := by
  cases owes with
  | writing writing => cases idle.symm.trans writing
  | @waiting front back queue turn going ahead behind near =>
    rw [idle] at turn
    have still := not_stopping_of_idle idle
    cases move with
    | receive first =>
      rcases cons_eq_append_flush (first.symm.trans queue) with ⟨_, same, _⟩ | ⟨further, rfl, rfl⟩
      · cases same
      · refine .inl ⟨_, ?_, .waiting rfl ?_ still ?_ behind (Nat.le_refl _)⟩
        · simp only [turnsBefore, List.length_cons, Option.isSome_some, if_true] at near ⊢
          omega
        · rwa [List.countP_cons_of_neg Bool.false_ne_true, ← idle] at turn
        · rw [getLast?_receive, ahead]
    | flush first pending =>
      have fewer := fun front queue => turnsBefore_begin now delay idle pending front queue
        .answerFlush
      rcases cons_eq_append_flush (first.symm.trans queue) with ⟨rfl, _, rfl⟩ | ⟨further, rfl, rfl⟩
      · refine .inl ⟨2, ?_, .writing rfl rfl turn ?_ behind (Nat.le_refl _)⟩
        · simp only [turnsBefore, List.length_nil] at near
          omega
        · rw [revisionsBefore_begin pending, ahead]
      · refine .inl ⟨_, ?_, .waiting rfl ?_ (begin_not_stopping _ _ nofun) ?_ behind (Nat.le_refl _)⟩
        · exact Nat.lt_of_lt_of_le (fewer further _) (Nat.le_trans (turnsBefore_mono writer) near)
        · rw [countP_flush] at turn
          change writer.answered + further.countP Command.isFlush + 1 = ticket
          exact turn
        · rw [revisionsBefore_begin pending, ← revisionsBefore_flush, ahead]
    | answer first pending =>
      rcases cons_eq_append_flush (first.symm.trans queue) with ⟨rfl, _, rfl⟩ | ⟨further, rfl, rfl⟩
      · have written : (writer.attempts.reverse.map (·.revision)).getLast? = newest? before := by
          simpa [revisionsBefore, pending] using ahead
        refine .inr ⟨congrArg (· + 1) turn, idle, pending, ?_, behind⟩
        rwa [List.getLast?_map, List.getLast?_reverse] at written
      · refine .inl ⟨_, ?_, .waiting rfl ?_ still ahead behind (Nat.le_refl _)⟩
        · simp only [turnsBefore, List.length_cons] at near ⊢
          omega
        · rw [countP_flush, ← idle] at turn
          change writer.answered + 1 + further.countP Command.isFlush + writer.activity.flushes =
            ticket
          omega
    | expire pending =>
      refine .inl ⟨_, ?_, .waiting queue turn (begin_not_stopping _ _ nofun) ?_ behind
        (Nat.le_refl _)⟩
      · exact Nat.lt_of_lt_of_le
          (turnsBefore_begin now delay idle pending front writer.queue .resume) near
      · rw [← ahead]
        exact congrArg _ (revisionsBefore_begin pending front writer.queue .resume)
    | drain empty | stop empty =>
      rw [empty] at queue
      cases front <;> cases queue

/-- Every turn of the writer brings the answer nearer, or gives it. -/
theorem Owes.step (owes : writer.Owes before since ticket left) (orderly : writer.Orderly)
    (step : Step now delay writer place after place') :
    (∃ fewer < left, after.Owes before since ticket fewer) ∨ after.Answers before since ticket := by
  cases step with
  | move idle move => exact owes.move idle move
  | finish writing =>
    rename_i attempt _
    obtain ⟨succeeded, same⟩ := writer.finish_eq attempt place
    rw [same]
    cases owes with
    | @waiting front back queue turn going ahead behind near =>
      have goesOn : attempt.sequel ≠ .stop := fun stop => going (.inr ⟨attempt, writing, stop⟩)
      have idle : (writer.conclude attempt.sequel succeeded).activity = .idle := if_neg goesOn
      refine .inl ⟨_, ?_, .waiting queue ?_ (not_stopping_of_idle idle) ahead behind
        (Nat.le_refl _)⟩
      · exact Nat.lt_of_lt_of_le (turnsBefore_conclude writing succeeded front) near
      · rw [writing] at turn
        rw [idle]
        exact (Nat.add_right_comm writer.answered _ _).trans turn
    | @writing current writing' answers turn ahead behind near =>
      cases writing'.symm.trans writing
      have pending := (orderly.writing attempt writing).2
      have written : (writer.attempts.reverse.map (·.revision)).getLast? = newest? before := by
        simpa [revisionsBefore, pending] using ahead
      rw [answers]
      refine .inr ⟨congrArg (· + 1) turn, rfl, pending, ?_, behind⟩
      rwa [List.getLast?_map, List.getLast?_reverse] at written

theorem Step.reached (step : Step now delay writer place after place')
    (idle : writer.activity = .idle) (pending : writer.pending = none) {rest : List Command}
    (queue : writer.queue = .flush :: rest) :
    place' = place ∧ after.attempts = writer.attempts ∧ after.answered = writer.answered + 1 := by
  cases step with
  | finish writing => cases idle.symm.trans writing
  | move _ move =>
    cases move with
    | answer => exact ⟨rfl, rfl, rfl⟩
    | receive other => cases queue.symm.trans other
    | flush _ other | expire other => cases pending.symm.trans other
    | drain other | stop other => cases queue.symm.trans other

theorem step?_isSome_of_queue (now delay : Nat) (place : Place) (idle : writer.activity = .idle)
    (waits : writer.queue ≠ []) : (writer.step? now delay place).isSome = true := by
  rw [step?, idle, Option.isSome_map]
  cases queue : writer.queue with
  | nil => exact absurd queue waits
  | cons command rest =>
    rw [advance?, queue]
    cases command with
    | schedule => rfl
    | flush => cases pending : writer.pending <;> rfl

theorem Step.answered_le (step : Step now delay writer place after place') :
    writer.answered ≤ after.answered := by
  cases step with
  | move _ move =>
    cases move with
    | answer => exact Nat.le_succ _
    | receive | flush | expire | drain | stop => exact Nat.le_refl _
  | finish =>
    rename_i attempt _ _
    obtain ⟨succeeded, same⟩ := writer.finish_eq attempt place
    rw [same]
    exact Nat.le_add_right _ _

end Turns

end Writer

namespace Store

def Owes (before : List Settings) (ticket left : Nat) (store : Store) : Prop :=
  ∃ writer, store.writer = some writer ∧
    (ticket < writer.answered ∨
      ∃ since, writer.history = before ++ since ∧ writer.Owes before since ticket left)

variable {before : List Settings} {ticket left : Nat} {store after : Store}

theorem Owes.mono {more : Nat} (owes : store.Owes before ticket left) (le : left ≤ more) :
    store.Owes before ticket more := by
  obtain ⟨writer, present, owes⟩ := owes
  exact ⟨writer, present, owes.imp_right fun ⟨since, history, owes⟩ => ⟨since, history, owes.mono le⟩⟩

theorem schedule_owes (owes : store.Owes before ticket left) (orderly : store.Orderly)
    (opened : store.Open) (settings : Settings) :
    ({ store with settings }.schedule).Owes before ticket left := by
  obtain ⟨writer, present, owes⟩ := owes
  have kept := orderly.writer writer present
  have scheduled := Writer.schedule_eq (kept.not_stopped (opened writer present)) settings
  refine ⟨writer.schedule settings, by simp [schedule, present], ?_⟩
  rcases owes with answered | ⟨since, history, owes⟩
  · left
    rwa [scheduled]
  · refine .inr ⟨since ++ [settings], ?_, owes.schedule ?_ settings⟩
    · rw [scheduled, history, List.append_assoc]
    · rw [kept.counted, history, List.length_append]

theorem mapWriter_owes (owes : store.Owes before ticket left) {change : Writer → Writer}
    (answered : ∀ writer : Writer, (change writer).answered = writer.answered)
    (history : ∀ writer : Writer, (change writer).history = writer.history)
    (kept : ∀ (writer : Writer) (since : List Settings), writer.Owes before since ticket left →
      (change writer).Owes before since ticket left) :
    { store with writer := store.writer.map change }.Owes before ticket left := by
  obtain ⟨writer, present, owes⟩ := owes
  refine ⟨change writer, congrArg (Option.map change) present, ?_⟩
  rw [answered, history]
  exact owes.imp_right fun ⟨since, same, owes⟩ => ⟨since, same, kept writer since owes⟩

theorem withWriter_owes {Place : Type} [Backend Place] {now delay : Nat} {place left' : Place}
    {writer next : Writer} (owes : store.Owes before ticket left) (orderly : store.Orderly)
    (present : store.writer = some writer) (step : Writer.Step now delay writer place next left') :
    { store with writer := some next }.Owes before ticket (left - 1) := by
  obtain ⟨other, found, owes⟩ := owes
  cases present.symm.trans found
  refine ⟨next, rfl, ?_⟩
  rcases owes with answered | ⟨since, history, owes⟩
  · exact .inl (Nat.lt_of_lt_of_le answered step.answered_le)
  · rcases owes.step (orderly.writer writer present) step with ⟨fewer, less, owes⟩ | answers
    · exact .inr ⟨since, step.history.1.trans history, owes.mono (Nat.le_sub_one_of_lt less)⟩
    · exact .inl (answers.answered ▸ Nat.lt_succ_self _)

theorem Deed.owes {Place : Type} [Backend Place] {disturb : Place → Place → Prop}
    {place left' : Place} (deed : Deed disturb store place after left') (orderly : store.Orderly)
    (owes : store.Owes before ticket left) : after.Owes before ticket left := by
  cases deed with
  | commit opened request =>
    rcases store.commit_cases request with same | ⟨patch, _, same⟩ | ⟨patch, _, same⟩ <;> rw [same]
    · exact owes
    · exact owes
    · exact schedule_owes owes orderly opened _
  | ready unready =>
    obtain ⟨writer, present, _⟩ := owes
    exact absurd (orderly.ready_of_writer present) unready
  | writer present step =>
    exact (withWriter_owes owes orderly present step).mono (Nat.sub_le left 1)
  | close present =>
    obtain ⟨_, found, owes⟩ := owes
    cases present.symm.trans found
    exact ⟨_, rfl, owes.imp_right fun ⟨since, history, owes⟩ => ⟨since, history, owes.close⟩⟩
  | flush =>
    exact mapWriter_owes owes Writer.flush_answered Writer.flush_history
      fun writer since owes => owes.flush
  | refuse accepts =>
    exact mapWriter_owes owes (fun _ => rfl) (fun _ => rfl) fun writer since owes => owes.refuse _
  | begin | disturb => exact owes

end Store

end StartPage
