import StartPage.Proofs.Store.Durability
import StartPage.Proofs.Store.Rhythm

/-!
The quiet window. From a writer at rest on, a course has updates at any times, turns in any
order, and clocks that never run past something that can be done; nothing is flushed and the
store is held. A write then begins at the end of every window that no further receipt falls
into, for the revision received last, and never otherwise.
-/
namespace StartPage.Timeline

variable {Place : Type}

/-- The receipts of what an update gives the writer. -/
def receipts (time : Timeline Place) (patch : Patch) : List Receipt :=
  match time.store.writer with
  | some writer =>
    (numbered writer.scheduled (changes (time.tenant.live.calls patch))).map fun revision =>
      ⟨revision, writer.receptive time.now⟩
  | none => []

/-- A held and ready store, alone on its place, whose writer keeps its rhythm. -/
structure Paced (window : Nat) (earlier : List Attempt) (log : List Receipt)
    (time : Timeline Place) : Prop where
  held : time.tenant.released = false
  ready : time.store.phase = .ready
  unread : time.tenant.loads.reading = none
  alone : time.leaving = []
  rhythm : ∃ writer seen waiting begun, time.store.writer = some writer ∧ seen ++ waiting = log ∧
    writer.Rhythm window time.now earlier seen waiting begun

section Paced

variable {window : Nat} {earlier : List Attempt} {log : List Receipt}
variable {time after : Timeline Place}

theorem Paced.call (paced : time.Paced window earlier log) (call : Call time after) :
    after.Paced window earlier log := by
  obtain ⟨writer, seen, waiting, begun, present, rfl, rhythm⟩ := paced.rhythm
  cases call with
  | load | listen =>
    exact { paced with rhythm := ⟨_, _, _, _, present, rfl, rhythm⟩ }
  | cancel ticket =>
    have unread : (time.tenant.loads.cancel ticket).reading = none := by
      by_contra reading
      have before := cancel_reading (Option.ne_none_iff_isSome.mp reading)
      rw [paced.unread] at before
      cases before
    exact { paced with unread, rhythm := ⟨_, _, _, _, present, rfl, rhythm⟩ }

theorem Paced.due? {writer : Writer} (paced : time.Paced window earlier log)
    (present : time.store.writer = some writer) : time.due? = writer.due? := by
  have found : time.tenant.store.writer = some writer := present
  rw [Timeline.due?, Tenant.due, paced.alone, paced.unread, found]
  cases due : writer.due? <;> simp [due]

theorem Paced.update (paced : time.Paced window earlier log) (patch : Patch) :
    (time.update patch).1.Paced window earlier (log ++ time.receipts patch) := by
  obtain ⟨writer, seen, waiting, begun, present, rfl, rhythm⟩ := paced.rhythm
  have commits := time.tenant.live.update_commits patch
  have ready := commits.keep (fun store => store.phase = .ready)
    (fun host request kept => (Store.commit_phase host request).trans kept) paced.ready
  have scheduled := Store.commits_schedule commits paced.ready
  rw [receipts, present]
  refine { paced with
    ready
    rhythm := ⟨_, seen, _, begun, scheduled.trans (congrArg _ present),
      (List.append_assoc ..).symm, rhythm.extend ?_ ?_⟩ }
  · rw [List.map_map]
    exact List.map_id _
  · intro receipt member
    obtain ⟨revision, _, rfl⟩ := List.mem_map.mp member
    rfl

theorem Paced.refuse (paced : time.Paced window earlier log) (accepts : Settings → Bool) :
    (time.refuse accepts).Paced window earlier log := by
  obtain ⟨writer, seen, waiting, begun, present, rfl, rhythm⟩ := paced.rhythm
  refine { paced with
    rhythm := ⟨_, seen, waiting, begun, congrArg (Option.map _) present, rfl, ?_⟩ }
  exact { rhythm with standing := rhythm.standing.congr rfl rfl rfl }

section Turns

variable [Backend Place]

theorem Paced.turn (paced : time.Paced window earlier log) (apart : Writer.Apart window log)
    (turn : Turn time after) : after.Paced window earlier log := by
  obtain ⟨writer, seen, waiting, begun, present, rfl, rhythm⟩ := paced.rhythm
  cases turn with
  | writer found step =>
    cases present.symm.trans found
    obtain ⟨seen', waiting', begun', same, kept⟩ := rhythm.step apart step
    exact { paced with rhythm := ⟨_, _, _, _, rfl, same, kept⟩ }
  | gate step =>
    cases Tenant.stepLoad?_gate step with
    | finish reading => cases paced.unread.symm.trans reading
    | pass =>
      exact { paced with rhythm := ⟨_, _, _, _, present, rfl, rhythm⟩ }
    | begin _ _ unready => exact absurd paced.ready unready
  | close closable =>
    unfold Tenant.closable? at closable
    rw [paced.held] at closable
    cases closable

theorem Paced.still {writer : Writer} (paced : time.Paced window earlier log)
    (present : time.store.writer = some writer) (still : time.ready? = none) :
    writer.step? time.now time.writeDelay time.place = none := by
  have stepped := Option.map_eq_none_iff.mp (Option.or_eq_none_iff.mp still).2
  have closable : time.tenant.closable? = none := by
    rw [Tenant.closable?, paced.held]
    rfl
  have stepped : time.tenant.stepWriter? time.now time.writeDelay time.place = none := by
    rw [Tenant.step?, closable] at stepped
    exact (Option.or_eq_none_iff.mp stepped).1
  have found : time.tenant.store.writer = some writer := present
  rw [Tenant.stepWriter?, found] at stepped
  exact Option.map_eq_none_iff.mp stepped

theorem Paced.wait {later : Nat} (paced : time.Paced window earlier log)
    (forward : time.now ≤ later) (still : time.ready? = none)
    (undue : ∀ due ∈ time.due?, later ≤ due) :
    { time with now := later }.Paced window earlier log := by
  obtain ⟨writer, seen, waiting, begun, present, rfl, rhythm⟩ := paced.rhythm
  have kept := rhythm.wait (paced.still present still) forward
    (paced.due? present ▸ undue)
  exact { paced with rhythm := ⟨_, _, _, _, present, rfl, kept⟩ }

end Turns

end Paced

variable [Backend Place] {disturb : Place → Place → Prop}

/-- What a timeline becomes by updates, and the receipts of all that they gave the writer. -/
inductive Course (disturb : Place → Place → Prop) (origin : Timeline Place) :
    List Receipt → Timeline Place → Prop where
  | start : Course disturb origin [] origin
  | turn {log : List Receipt} {time after : Timeline Place}
      (course : Course disturb origin log time) (turn : Turn time after) :
      Course disturb origin log after
  | call {log : List Receipt} {time after : Timeline Place}
      (course : Course disturb origin log time) (call : Call time after) :
      Course disturb origin log after
  | pace {log : List Receipt} {time : Timeline Place} (course : Course disturb origin log time)
      (readDelay writeDelay : Nat) : Course disturb origin log { time with readDelay, writeDelay }
  | refuse {log : List Receipt} {time : Timeline Place} (course : Course disturb origin log time)
      (accepts : Settings → Bool) : Course disturb origin log (time.refuse accepts)
  | disturb {log : List Receipt} {time : Timeline Place} {place : Place}
      (course : Course disturb origin log time) (disturbed : disturb time.place place) :
      Course disturb origin log { time with place }
  | wait {log : List Receipt} {time : Timeline Place} (course : Course disturb origin log time)
      (later : Nat) (forward : time.now ≤ later) (still : time.ready? = none)
      (undue : ∀ due ∈ time.due?, later ≤ due) :
      Course disturb origin log { time with now := later }
  | update {log : List Receipt} {time : Timeline Place} (course : Course disturb origin log time)
      (patch : Patch) : Course disturb origin (log ++ time.receipts patch) (time.update patch).1

theorem Course.paced {window : Nat} {earlier : List Attempt} {origin time : Timeline Place}
    {log : List Receipt} (start : origin.Paced window earlier [])
    (course : Course disturb origin log time) (apart : Writer.Apart window log) :
    time.Paced window earlier log := by
  induction course with
  | start => exact start
  | turn _ turn ih => exact (ih apart).turn apart turn
  | call _ call ih => exact (ih apart).call call
  | refuse _ accepts ih => exact (ih apart).refuse accepts
  | wait _ _ forward still undue ih => exact (ih apart).wait forward still undue
  | update _ patch ih => exact (ih (List.isChain_append.mp apart).1).update patch
  | pace _ _ _ ih | disturb _ _ ih =>
    exact { ih apart with }

def Settled (time : Timeline Place) (limit : Nat) : Prop :=
  time.now ≤ limit ∧ time.ready? = none ∧ ∀ due ∈ time.due?, limit < due

section Clock

variable {window : Nat} {earlier : List Attempt} {log : List Receipt}
variable {origin time after : Timeline Place} {limit : Nat}

theorem Paced.ready_at_due {due : Nat} (paced : time.Paced window earlier log)
    (still : time.ready? = none) (found : time.due? = some due) :
    time.now ≤ due ∧ { time with now := due }.ready? ≠ none := by
  obtain ⟨writer, seen, waiting, begun, present, rfl, rhythm⟩ := paced.rhythm
  obtain ⟨forward, stepped⟩ := rhythm.due_step (paced.still present still)
    ((paced.due? present).symm.trans found)
  constructor
  · exact forward
  · intro none
    have paced' : { time with now := due }.Paced window earlier (seen ++ waiting) :=
      paced.wait forward still fun other same => by
        cases found.symm.trans same
        exact Nat.le_refl _
    rw [paced'.still present none] at stepped
    cases stepped

theorem Course.next (course : Course disturb origin log time)
    (paced : time.Paced window earlier log) (forward : time.now ≤ limit)
    (stepped : time.next? (some limit) = some after) :
    Course disturb origin log after ∧ after.now ≤ limit := by
  unfold next? at stepped
  split at stepped
  · rename_i ready
    cases stepped
    have turn := ready?_turn paced.alone ready
    exact ⟨course.turn turn, turn.now ▸ forward⟩
  · rename_i still
    split at stepped
    · contradiction
    · rename_i due found
      obtain ⟨within, ready⟩ := Option.ite_none_right_eq_some.mp stepped
      -- What is due is not overdue, so the clock moves to it exactly.
      have later := (paced.ready_at_due still found).1
      rw [Nat.max_eq_right later] at ready
      have waited := course.wait due later still fun other same => by
        cases found.symm.trans same
        exact Nat.le_refl _
      have turn : Turn { time with now := due } after := ready?_turn paced.alone ready
      exact ⟨waited.turn turn, turn.now ▸ of_decide_eq_true within⟩

theorem Paced.settled (paced : time.Paced window earlier log) (forward : time.now ≤ limit)
    (stuck : time.next? (some limit) = none) : time.Settled limit := by
  unfold next? at stuck
  split at stuck
  · contradiction
  · rename_i still
    refine ⟨forward, still, ?_⟩
    intro due found
    obtain ⟨later, ready⟩ := paced.ready_at_due still found
    rw [Option.mem_def.mp found] at stuck
    by_contra within
    have reached : (some limit).all (fun last => due ≤ last) = true :=
      decide_eq_true (Nat.le_of_not_lt within)
    simp only [if_pos reached, Nat.max_eq_right later] at stuck
    exact ready stuck

/-- The clock's own order of turns stays on course and leaves nothing that could be done. -/
theorem Course.run (start : origin.Paced window earlier []) (apart : Writer.Apart window log)
    (course : Course disturb origin log time) (forward : time.now ≤ limit) :
    Course disturb origin log (time.run (fun _ => false) (some limit)) ∧
      (time.run (fun _ => false) (some limit)).Settled limit := by
  obtain ⟨course, forward⟩ := run_keep (fun _ => false) (some limit)
    (fun time => Course disturb origin log time ∧ time.now ≤ limit)
    (fun kept stepped => kept.1.next (kept.1.paced start apart) kept.2 stepped) ⟨course, forward⟩
  exact ⟨course, (course.paced start apart).settled forward (run_stuck _ _)⟩

theorem Run.paced {store : Store} {place : Place} {writer : Writer} (fresh : store.Fresh)
    (run : Run disturb (Timeline.start store place) time) (held : time.tenant.released = false)
    (present : time.store.writer = some writer) (idle : writer.activity = .idle)
    (queue : writer.queue = []) (pending : writer.pending = none) :
    time.Paced writer.window writer.attempts [] := by
  have tidy := (run.life fresh.writer).2
  have orderly := run.orderly fresh
  have ready : time.store.phase = .ready := by
    by_contra unready
    cases (orderly.unready unready).1.symm.trans present
  have unread := run.unread fresh ready
  -- A deadline runs only while something is pending.
  have deadline : writer.deadline = none := by
    have timed := (orderly.writer writer present).timed
    rw [pending] at timed
    exact Option.isNone_iff_eq_none.mp (by simpa using timed)
  refine ⟨held, ready, unread, run.leaving, writer, [], [], [], present, rfl, ?_⟩
  exact ⟨rfl, tidy.held held writer present, queue, ⟨[], rfl, rfl⟩, nofun, .nil, nofun, nofun,
    .resting idle pending deadline⟩

end Clock

/-- From a writer at rest on, and unless a receipt falls on the very end of a window, the writes
begun are those for the receipts that no other follows within the window, each at the end of its
window. A burst is written once, as its last update left it, and no write begins less than the
window after something was received. -/
theorem writes_begin_after_quiet_windows {store : Store} {place : Place}
    {origin time : Timeline Place} {writer : Writer} {log : List Receipt} (fresh : store.Fresh)
    (run : Run disturb (Timeline.start store place) origin)
    (held : origin.tenant.released = false) (present : origin.store.writer = some writer)
    (idle : writer.activity = .idle) (queue : writer.queue = []) (pending : writer.pending = none)
    (course : Course disturb origin log time) (apart : Writer.Apart writer.window log)
    (duration : Nat) :
    ∃ after begun, (time.elapse duration).store.writer = some after ∧
      after.attempts = begun ++ writer.attempts ∧
      begun.reverse.map Attempt.stamp =
        ((outlast writer.window log).filter
          (·.time + writer.window ≤ time.now + duration)).map (Receipt.expiry writer.window) ∧
      (log.IsChain (fun receipt next => next.time < receipt.time + writer.window) →
        ∀ last ∈ log.getLast?, last.time + writer.window ≤ time.now + duration →
          begun.map Attempt.stamp = [last.expiry writer.window]) ∧
      ∀ attempt ∈ begun, ∀ receipt ∈ log, receipt.time ≤ attempt.began →
        receipt.time + writer.window ≤ attempt.began := by
  have start := run.paced fresh held present idle queue pending
  obtain ⟨course, forward, still, undue⟩ :=
    course.run start apart (Nat.le_add_right time.now duration)
  have paced := course.paced start apart
  obtain ⟨after, seen, waiting, begun, found, rfl, rhythm⟩ := paced.rhythm
  have settled := rhythm.settled apart (paced.still found still) forward
    (paced.due? found ▸ undue)
  obtain ⟨later, attempts, stamps⟩ := rhythm.attempted
  rw [settled] at stamps
  refine ⟨after, later, found, attempts, stamps, ?_, ?_⟩
  · intro burst last final ended
    have kept : [last].filter (·.time + writer.window ≤ time.now + duration) = [last] := by
      simp [ended]
    rw [outlast_burst burst last final, kept, List.map_reverse] at stamps
    exact List.reverse_injective stamps
  · -- An attempt is for a receipt that outlasts the window, so nothing came in within it.
    intro attempt member receipt known early
    have stamped : attempt.stamp ∈ later.reverse.map Attempt.stamp :=
      List.mem_map_of_mem (List.mem_reverse.mpr member)
    rw [stamps] at stamped
    obtain ⟨other, outlasts, same⟩ := List.mem_map.mp stamped
    have began : other.time + writer.window = attempt.began := congrArg Prod.snd same
    have separate := outlast_separates rhythm.rising (List.mem_of_mem_filter outlasts) known
      (began ▸ early)
    omega

def rested : Timeline Memory :=
  { (Timeline.start Store.plain {}).enterLoad.1.turns 2 with readDelay := 0, writeDelay := 20 }

theorem rested_run : Run Memory.Faults (Timeline.start Store.plain {}) rested := by
  have entered : Run Memory.Faults (Timeline.start Store.plain {})
      (Timeline.start Store.plain {}).enterLoad.1 := .step .start (.call (.load rfl))
  exact (entered.turns rfl 2).1.step (.pace _ 0 20)

/-- Two updates within a window; a third while the second is written. -/
def crowded : Timeline Memory :=
  let counting := { (rested.update (Patch.empty.showWidget .gemini true)).1.turns 1 with now := 30 }
  let writing := { (counting.update (Patch.empty.setRemoved [.gemini])).1.turns 2 with now := 90 }
  (writing.update (Patch.empty.setStackOrder [])).1

theorem crowded_course :
    ∃ first second third, Course Memory.Faults rested
      [⟨⟨1, first⟩, 0⟩, ⟨⟨2, second⟩, 30⟩, ⟨⟨3, third⟩, 100⟩] crowded := by
  have first := (Course.start : Course Memory.Faults rested [] rested).update
    (Patch.empty.showWidget .gemini true)
  have counting : Course Memory.Faults rested _
      { (rested.update (Patch.empty.showWidget .gemini true)).1.turns 1 with now := 30 } :=
    (first.turn (ready?_turn rfl rfl)).wait 30 (by decide) rfl (by rintro _ ⟨⟩; decide)
  have second := counting.update (Patch.empty.setRemoved [.gemini])
  have due := (second.turn (ready?_turn rfl rfl)).wait 80 (by decide) rfl (by rintro _ ⟨⟩; decide)
  have writing := (due.turn (ready?_turn rfl rfl)).wait 90 (by decide) rfl (by rintro _ ⟨⟩; decide)
  exact ⟨_, _, _, writing.update (Patch.empty.setStackOrder [])⟩

/-- What comes during a write is received when the write ends. -/
theorem crowded_updates_take_two_writes :
    ∃ writer after begun second third, rested.store.writer = some writer ∧
      (crowded.elapse 200).store.writer = some after ∧ after.attempts = begun ++ writer.attempts ∧
      begun.reverse.map Attempt.stamp = [(⟨2, second⟩, 80), (⟨3, third⟩, 150)] := by
  obtain ⟨first, second, third, course⟩ := crowded_course
  have apart : Writer.Apart 50
      [⟨⟨1, first⟩, 0⟩, ⟨⟨2, second⟩, 30⟩, ⟨⟨3, third⟩, 100⟩] := by
    simp [Writer.Apart]
  obtain ⟨after, begun, found, attempts, stamps, _⟩ :=
    writes_begin_after_quiet_windows Store.plain_fresh rested_run rfl rfl rfl rfl rfl course apart 200
  exact ⟨_, after, begun, second, third, rfl, found, attempts, stamps⟩

end StartPage.Timeline
