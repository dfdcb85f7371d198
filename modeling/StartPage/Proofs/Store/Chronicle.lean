import Mathlib.Data.Option.Basic
import StartPage.Proofs.Store.Owed

/-!
The course of loading. Whoever watches a store from one moment to the next sees its phases change,
reads begin and end, and its writer appear. In every run that is one story: reads are begun one
after another and cut short when their load is cancelled, until one is used; then the writer is
spawned, the store is ready, and everyone who listens is told once. Before that nothing was written,
counted or told.
-/
namespace StartPage

/-- What can be seen of a store and its loads. -/
inductive Event where
  | moved (phase : Phase)
  | began (ticket : Nat)
  | ended (ticket : Nat) (fate : ReadFate)
  | spawned
deriving DecidableEq

/-- A writer that went on: it was given more, attempted more and answered more. -/
structure Writer.Precedes (writer next : Writer) : Prop where
  history : writer.history <+: next.history
  attempts : writer.attempts <:+ next.attempts
  answered : writer.answered ≤ next.answered

namespace Timeline

variable {Place : Type}

def reader (time : Timeline Place) : Option Nat := time.tenant.loads.reading.map (·.1)

/-- What an observer sees who looks at a timeline at two moments. -/
def observe (time after : Timeline Place) : List Event :=
  let before := time.tenant.loads
  let loads := after.tenant.loads
  ((loads.reads.take (loads.reads.length - before.reads.length)).reverse.map fun read =>
      .ended read.1 read.2) ++
    (if time.store.writer.isNone && after.store.writer.isSome then [.spawned] else []) ++
    (if after.store.phase = time.store.phase then [] else [.moved after.store.phase]) ++
    (if loads.reading = before.reading then [] else (loads.reading.map (.began ·.1)).toList)

variable [Backend Place] {disturb : Place → Place → Prop}

/-- A run, and all that was seen in it. -/
inductive Chronicle (disturb : Place → Place → Prop) (start : Timeline Place) :
    List Event → Timeline Place → Prop where
  | start : Chronicle disturb start [] start
  | next {log : List Event} {time after : Timeline Place}
      (chronicle : Chronicle disturb start log time) (happens : Happens disturb time after) :
      Chronicle disturb start (log ++ observe time after) after

end Timeline

def cutShort (tickets : List Nat) : List Event :=
  tickets.flatMap fun ticket => [.began ticket, .ended ticket .cut]

/-- What was seen up to a phase in which this load reads. -/
inductive Course : Phase → Option Nat → List Event → Prop where
  | uninitialized : Course .uninitialized none []
  | loading (tickets : List Nat) : Course .loading none (.moved .loading :: cutShort tickets)
  | reading (tickets : List Nat) (ticket : Nat) :
      Course .loading (some ticket) (.moved .loading :: (cutShort tickets ++ [.began ticket]))
  | ready (tickets : List Nat) (ticket : Nat) :
      Course .ready none
        (.moved .loading ::
          (cutShort tickets ++ [.began ticket, .ended ticket .used, .spawned, .moved .ready]))

namespace Course

variable {phase : Phase} {ticket : Nat} {log : List Event}

theorem cutShort_concat (tickets : List Nat) (ticket : Nat) :
    cutShort (tickets ++ [ticket]) = cutShort tickets ++ [.began ticket, .ended ticket .cut] := by
  simp [cutShort]

theorem begin (course : Course phase none log) (unready : phase ≠ .ready) (ticket : Nat) :
    Course .loading (some ticket)
      (log ++ ((if phase = .loading then [] else [.moved .loading]) ++ [.began ticket])) := by
  cases course with
  | uninitialized => exact .reading [] ticket
  | loading tickets => exact .reading tickets ticket
  | ready => exact absurd rfl unready

theorem unready (course : Course phase (some ticket) log) : phase ≠ .ready := by
  cases course
  exact nofun

theorem cut (course : Course phase (some ticket) log) :
    Course phase none (log ++ [.ended ticket .cut]) := by
  cases course with
  | reading tickets =>
    have cut := Course.loading (tickets ++ [ticket])
    rw [cutShort_concat] at cut
    rwa [List.cons_append, List.append_assoc]

theorem opened (course : Course phase (some ticket) log) :
    Course .ready none (log ++ [.ended ticket .used, .spawned, .moved .ready]) := by
  cases course with
  | reading tickets =>
    have opened := Course.ready tickets ticket
    rwa [List.cons_append, List.append_assoc]

end Course

namespace Timeline

section Observing

variable {Place : Type} {time after : Timeline Place} {ticket ends : Nat}

theorem unspawned (writer : Option Writer) : (writer.isNone && writer.isSome) = false := by
  cases writer <;> rfl

theorem observe_goesOn (phase : after.store.phase = time.store.phase)
    (reading : after.tenant.loads.reading = time.tenant.loads.reading)
    (reads : after.tenant.loads.reads = time.tenant.loads.reads)
    (writer : Option.Rel Writer.Precedes time.store.writer after.store.writer) :
    time.observe after = [] := by
  have kept : (time.store.writer.isNone && after.store.writer.isSome) = false := by
    generalize time.store.writer = before at writer
    generalize after.store.writer = next at writer
    cases writer <;> rfl
  simp [observe, phase, reading, reads, kept]

theorem observe_begins (free : time.tenant.loads.reading = none)
    (reading : after.tenant.loads.reading = some (ticket, ends))
    (reads : after.tenant.loads.reads = time.tenant.loads.reads)
    (store : after.store = { time.store with phase := .loading }) :
    time.observe after =
      (if time.store.phase = .loading then [] else [.moved .loading]) ++ [.began ticket] := by
  simp [observe, store, free, reading, reads, unspawned, eq_comm]

theorem observe_cuts (reading : time.tenant.loads.reading = some (ticket, ends))
    (loads : after.tenant.loads = time.tenant.loads.cancel ticket)
    (store : after.store = time.store) : time.observe after = [.ended ticket .cut] := by
  have cut : time.tenant.loads.cancel ticket =
      { time.tenant.loads with
        reading := none
        fates := (ticket, .cancelled) :: time.tenant.loads.fates
        reads := (ticket, .cut) :: time.tenant.loads.reads } := by
    simp [Loads.cancel, Loads.isReading, reading]
  simp [observe, store, loads, cut, reading, unspawned]

theorem observe_opens (unready : time.store.phase ≠ .ready) (unwritten : time.store.writer = none)
    (reading : time.tenant.loads.reading = some (ticket, ends))
    (free : after.tenant.loads.reading = none)
    (reads : after.tenant.loads.reads = (ticket, .used) :: time.tenant.loads.reads)
    (ready : after.store.phase = .ready) (spawned : after.store.writer.isSome = true) :
    time.observe after = [.ended ticket .used, .spawned, .moved .ready] := by
  simp [observe, unwritten, spawned, ready, unready.symm, reading, free, reads]

end Observing

variable {Place : Type} [Backend Place] {disturb : Place → Place → Prop}
variable {start time after : Timeline Place} {log : List Event}

theorem Chronicle.run (chronicle : Chronicle disturb start log time) : Run disturb start time := by
  induction chronicle with
  | start => exact .start
  | next _ happens ih =>
    cases happens with
    | step step => exact ih.step step
    | update held patch => exact ih.update held patch

theorem Run.chronicle (run : Run disturb start time) : ∃ log, Chronicle disturb start log time := by
  induction run with
  | start => exact ⟨[], .start⟩
  | step _ step ih =>
    obtain ⟨log, chronicle⟩ := ih
    exact ⟨_, chronicle.next (.step step)⟩
  | update _ held patch ih =>
    obtain ⟨log, chronicle⟩ := ih
    exact ⟨_, chronicle.next (.update held patch)⟩

/-- What happens to the gate: a load begins to read, has its read cut short, makes the store ready,
or nothing. -/
inductive Passage (disturb : Place → Place → Prop) (time after : Timeline Place) : Prop where
  | begins {ticket ends : Nat} (free : time.tenant.loads.reading = none)
      (unready : time.store.phase ≠ .ready)
      (reading : after.tenant.loads.reading = some (ticket, ends))
      (reads : after.tenant.loads.reads = time.tenant.loads.reads)
      (live : after.tenant.live =
        { time.tenant.live with host := { time.store with phase := .loading } })
      (place : after.place = time.place)
  | cuts {ticket ends : Nat} (reading : time.tenant.loads.reading = some (ticket, ends))
      (loads : after.tenant.loads = time.tenant.loads.cancel ticket)
      (live : after.tenant.live = time.tenant.live) (place : after.place = time.place)
  | opens {ticket ends : Nat} (reading : time.tenant.loads.reading = some (ticket, ends))
      (free : after.tenant.loads.reading = none)
      (reads : after.tenant.loads.reads = (ticket, .used) :: time.tenant.loads.reads)
      (stored : Except StorageError (Option Bytes))
      (live : after.tenant.live = (time.tenant.live.becomeReady stored).1)
  | goesOn (phase : after.store.phase = time.store.phase)
      (session : after.store.session = time.store.session)
      (reading : after.tenant.loads.reading = time.tenant.loads.reading)
      (reads : after.tenant.loads.reads = time.tenant.loads.reads)
      (writer : Option.Rel Writer.Precedes time.store.writer after.store.writer)
      (heard : time.store.phase ≠ .ready → after.tenant.live.heard = time.tenant.live.heard)
      (place : time.store.phase ≠ .ready →
        after.place = time.place ∨ disturb time.place after.place)

end Timeline

namespace Writer

variable {writer : Writer}

theorem Precedes.refl (writer : Writer) : writer.Precedes writer :=
  ⟨List.prefix_rfl, List.suffix_rfl, Nat.le_refl _⟩

theorem Precedes.trans {next last : Writer} (first : writer.Precedes next)
    (second : next.Precedes last) : writer.Precedes last :=
  ⟨first.history.trans second.history, first.attempts.trans second.attempts,
    Nat.le_trans first.answered second.answered⟩

theorem schedule_precedes (writer : Writer) (settings : Settings) :
    writer.Precedes (writer.schedule settings) := by
  unfold Writer.schedule Writer.send
  split
  · exact .refl writer
  · exact ⟨List.prefix_append _ _, List.suffix_rfl, Nat.le_refl _⟩

theorem schedule_all_precedes (states : List Settings) (writer : Writer) :
    writer.Precedes (states.foldl Writer.schedule writer) := by
  induction states generalizing writer with
  | nil => exact .refl writer
  | cons settings rest ih => exact (schedule_precedes writer settings).trans (ih _)

theorem flush_precedes (writer : Writer) : writer.Precedes writer.flush := by
  unfold Writer.flush Writer.send
  split
  · exact .refl writer
  · exact ⟨List.prefix_rfl, List.suffix_rfl, Nat.le_refl _⟩

theorem Step.precedes {Place : Type} [Backend Place] {after : Writer} {now delay : Nat}
    {place left : Place} (step : Step now delay writer place after left) :
    writer.Precedes after := by
  refine ⟨step.history.1 ▸ List.prefix_rfl, ?_, step.answered_le⟩
  cases step with
  | move _ move =>
    cases move with
    | receive | answer | stop => exact List.suffix_rfl
    | flush | expire | drain => exact List.suffix_cons _ _
  | finish =>
    rename_i attempt _ _
    obtain ⟨succeeded, same⟩ := writer.finish_eq attempt place
    rw [same]
    exact List.suffix_rfl

theorem precedes_refl : ∀ writer : Option Writer, Option.Rel Precedes writer writer
  | none => .none
  | some writer => .some (.refl writer)

theorem precedes_map {change : Writer → Writer} (goesOn : ∀ writer, Precedes writer (change writer)) :
    ∀ writer : Option Writer, Option.Rel Precedes writer (writer.map change)
  | none => .none
  | some writer => .some (goesOn writer)

end Writer

theorem Store.update_writer {store : Store} (unready : store.phase ≠ .ready) (patch : Patch) :
    (store.update patch).1.writer = store.writer := by
  cases empty : patch.isEmpty with
  | true => rw [update_of_empty store empty]
  | false => rw [update_of_unready empty unready]

theorem LiveStore.update_unready {live : LiveStore} (unready : live.host.phase ≠ .ready)
    (patch : Patch) :
    (live.update patch).1 = { live with host := (live.host.update patch).1 } := by
  unfold LiveStore.update
  cases empty : patch.isEmpty with
  | true => rw [Store.update_of_empty live.host empty]
  | false => rw [Store.update_of_unready empty unready]

namespace Timeline

variable {Place : Type} [Backend Place] {disturb : Place → Place → Prop}
variable {start time after : Timeline Place} {log : List Event}

omit [Backend Place] in
theorem update_passage (time : Timeline Place) (patch : Patch) :
    Passage disturb time (time.update patch).1 := by
  have committed := time.tenant.live.update_commits patch
  have kept := committed.keep
    (fun store => store.phase = time.store.phase ∧ store.session = time.store.session)
    (fun host request kept => ⟨(host.commit_phase request).trans kept.1,
      (host.commit_session request).trans kept.2⟩) ⟨rfl, rfl⟩
  by_cases ready : time.store.phase = .ready
  · refine .goesOn kept.1 kept.2 rfl rfl ?_ (absurd ready) (absurd ready)
    have writer := Store.commits_schedule committed ready
    have same : (time.update patch).1.store.writer = _ := writer
    rw [same]
    exact Writer.precedes_map (Writer.schedule_all_precedes _) _
  · have same := LiveStore.update_unready ready patch
    refine .goesOn kept.1 kept.2 rfl rfl ?_ (fun _ => ?_) (fun _ => .inl rfl)
    · have writer := (congrArg (·.host.writer) same).trans (Store.update_writer ready patch)
      have unchanged : (time.update patch).1.store.writer = time.store.writer := writer
      rw [unchanged]
      exact Writer.precedes_refl _
    · exact congrArg (·.heard) same

theorem turn_passage (orderly : time.store.Orderly) (turn : Turn time after) :
    Passage disturb time after := by
  cases turn with
  | writer present step =>
    have ready := orderly.ready_of_writer present
    refine .goesOn rfl rfl rfl rfl ?_ (fun _ => rfl) (absurd ready)
    rw [present]
    exact .some step.precedes
  | gate step =>
    cases Tenant.stepLoad?_gate step with
    | begin free waiting unready => exact .begins free unready rfl rfl rfl rfl
    | finish reading ended => exact .opens reading rfl rfl _ rfl
    | pass => exact .goesOn rfl rfl rfl rfl (Writer.precedes_refl _) (fun _ => rfl) fun _ => .inl rfl
  | close closable =>
    have present : time.store.writer = some _ := (Tenant.closable?_writer closable).1
    refine .goesOn rfl rfl rfl rfl ?_ (fun _ => rfl) fun _ => .inl rfl
    rw [present]
    exact .some ⟨List.prefix_rfl, List.suffix_rfl, Nat.le_refl _⟩

omit [Backend Place] in
theorem call_passage (call : Call time after) : Passage disturb time after := by
  cases call with
  | load => exact .goesOn rfl rfl rfl rfl (Writer.precedes_refl _) (fun _ => rfl) fun _ => .inl rfl
  | listen => exact .goesOn rfl rfl rfl rfl (Writer.precedes_refl _) (fun _ => rfl) fun _ => .inl rfl
  | cancel ticket =>
    by_cases reads : time.tenant.loads.isReading ticket = true
    · cases reading : time.tenant.loads.reading with
      | none =>
        rw [Loads.isReading, reading] at reads
        cases reads
      | some read =>
        rw [Loads.isReading, reading, Option.any_some, beq_iff_eq] at reads
        exact .cuts reading (reads ▸ rfl) rfl rfl
    · have same : (time.tenant.loads.cancel ticket).reading = time.tenant.loads.reading ∧
          (time.tenant.loads.cancel ticket).reads = time.tenant.loads.reads := by
        rw [Loads.cancel, if_neg reads]
        split <;> exact ⟨rfl, rfl⟩
      exact .goesOn rfl rfl same.1 same.2 (Writer.precedes_refl _) (fun _ => rfl) fun _ => .inl rfl

theorem step_passage (orderly : time.store.Orderly) (step : Step disturb time after) :
    Passage disturb time after := by
  cases step with
  | turn turn => exact turn_passage orderly turn
  | call call => exact call_passage call
  | flush =>
    exact .goesOn rfl rfl rfl rfl (Writer.precedes_map Writer.flush_precedes _) (fun _ => rfl)
      fun _ => .inl rfl
  | refuse accepts =>
    refine .goesOn rfl rfl rfl rfl (Writer.precedes_map (fun writer => ?_) _) (fun _ => rfl)
      fun _ => .inl rfl
    exact ⟨List.prefix_rfl, List.suffix_rfl, Nat.le_refl _⟩
  | release | wait | pace =>
    exact .goesOn rfl rfl rfl rfl (Writer.precedes_refl _) (fun _ => rfl) fun _ => .inl rfl
  | disturb disturbed =>
    exact .goesOn rfl rfl rfl rfl (Writer.precedes_refl _) (fun _ => rfl) fun _ => .inr disturbed

theorem Happens.passage (orderly : time.store.Orderly) (happens : Happens disturb time after) :
    Passage disturb time after := by
  cases happens with
  | step step => exact step_passage orderly step
  | update _ patch => exact update_passage time patch

omit [Backend Place] in
theorem Passage.course (passage : Passage disturb time after) (orderly : time.store.Orderly)
    (later : after.store.Orderly) (course : Course time.store.phase time.reader log) :
    Course after.store.phase after.reader (log ++ time.observe after) := by
  cases passage with
  | goesOn phase _ reading reads writer =>
    rw [observe_goesOn phase reading reads writer, List.append_nil, phase, reader, reading]
    exact course
  | begins free unready reading reads live =>
    have store : after.store = { time.store with phase := .loading } := congrArg (·.host) live
    rw [observe_begins free reading reads store, reader, reading, store]
    rw [reader, free] at course
    exact course.begin unready _
  | cuts reading loads live =>
    have store : after.store = time.store := congrArg (·.host) live
    have free : after.tenant.loads.reading = none := by
      simp [loads, Loads.cancel, Loads.isReading, reading]
    rw [observe_cuts reading loads store, reader, free, store]
    rw [reader, reading] at course
    exact course.cut
  | opens reading free reads stored live =>
    rw [reader, reading] at course
    have ready : after.store.phase = .ready :=
      (congrArg (·.host.phase) live).trans (LiveStore.becomeReady_opened _ stored).1
    have unwritten := (orderly.unready course.unready).1
    rw [observe_opens course.unready unwritten reading free reads ready (later.ready ready).1,
      reader, free, ready]
    exact course.opened

/-- A store that is not ready: it has no writer, nothing was counted, nobody was told anything, and
nothing was written, whatever can be seen of the place that others leave alone. -/
structure Dormant (disturb : Place → Place → Prop) (place : Place) (time : Timeline Place) :
    Prop where
  writer : time.store.writer = none
  unloaded : time.store.session.loaded = false
  uncounted : time.store.tally = {}
  untold : time.tenant.live.heard = []
  unwritten : ∀ {View : Type} (view : Place → View),
    (∀ before after, disturb before after → view after = view before) →
      view time.place = view place

/-- A store that is ready: it has a writer and no queue, and says that it is loaded. -/
structure Awake (time : Timeline Place) : Prop where
  writer : time.store.writer.isSome = true
  queued : time.store.queued = []
  loaded : time.store.session.loaded = true

omit [Backend Place] in
theorem Passage.dormant {place : Place} (passage : Passage disturb time after)
    (orderly : after.store.Orderly) (dormant : time.store.phase ≠ .ready → time.Dormant disturb place)
    (unready : after.store.phase ≠ .ready) : after.Dormant disturb place := by
  have writer := (orderly.unready unready).1
  have uncounted : after.store.tally = {} := by rw [Store.tally, writer]
  cases passage with
  | begins _ earlier _ _ live same =>
    obtain ⟨-, unloaded, -, untold, unwritten⟩ := dormant earlier
    refine ⟨writer, ?_, uncounted, ?_, same ▸ unwritten⟩
    · exact (congrArg (·.host.session.loaded) live).trans unloaded
    · exact (congrArg (·.heard) live).trans untold
  | cuts _ _ live same =>
    have store : after.store = time.store := congrArg (·.host) live
    obtain ⟨-, unloaded, -, untold, unwritten⟩ := dormant (store ▸ unready)
    refine ⟨writer, store ▸ unloaded, uncounted, ?_, same ▸ unwritten⟩
    exact (congrArg (·.heard) live).trans untold
  | opens _ _ _ stored live =>
    have ready := (congrArg (·.host.phase) live).trans (LiveStore.becomeReady_opened _ stored).1
    exact absurd ready unready
  | goesOn phase session _ _ _ heard places =>
    have earlier : time.store.phase ≠ .ready := phase ▸ unready
    obtain ⟨-, unloaded, -, untold, unwritten⟩ := dormant earlier
    refine ⟨writer, session ▸ unloaded, uncounted, (heard earlier).trans untold, ?_⟩
    intro View view blind
    rcases places earlier with same | disturbed
    · exact same ▸ unwritten view blind
    · exact (blind _ _ disturbed).trans (unwritten view blind)

omit [Backend Place] in
theorem Passage.awake (passage : Passage disturb time after) (orderly : after.store.Orderly)
    (awake : time.store.phase = .ready → time.Awake) (ready : after.store.phase = .ready) :
    after.Awake := by
  obtain ⟨writer, queued⟩ := orderly.ready ready
  refine ⟨writer, queued, ?_⟩
  cases passage with
  | begins _ _ _ _ live =>
    have moved : after.store.phase = .loading := congrArg (·.host.phase) live
    cases moved.symm.trans ready
  | cuts _ _ live =>
    have store : after.store = time.store := congrArg (·.host) live
    exact store ▸ (awake (store ▸ ready)).loaded
  | opens _ _ _ stored live =>
    exact (congrArg (·.host.session.loaded) live).trans (LiveStore.becomeReady_opened _ stored).2
  | goesOn phase session => exact session ▸ (awake (phase ▸ ready)).loaded

structure Chronicled (disturb : Place → Place → Prop) (place : Place) (log : List Event)
    (time : Timeline Place) : Prop where
  course : Course time.store.phase time.reader log
  dormant : time.store.phase ≠ .ready → time.Dormant disturb place
  awake : time.store.phase = .ready → time.Awake

theorem Chronicle.chronicled {made : Store} {place : Place} (fresh : made.Fresh)
    (chronicle : Chronicle disturb (Timeline.start made place) log time) :
    Chronicled disturb place log time := by
  induction chronicle with
  | start =>
    obtain ⟨config, chain, host, made, codec, new, rfl⟩ := fresh
    rw [Store.new_eq new]
    exact ⟨.uninitialized, fun _ => ⟨rfl, rfl, rfl, rfl, fun _ _ => rfl⟩, nofun⟩
  | next chronicle happens ih =>
    have orderly := chronicle.run.orderly fresh
    have later := (chronicle.next happens).run.orderly fresh
    have passage := happens.passage orderly
    exact ⟨passage.course orderly later ih.course, passage.dormant later ih.dormant,
      passage.awake later ih.awake⟩

/-- What stands behind what is seen: a read is cut short by the cancellation of its load, a store
becomes ready with one announcement of its state, and a writer that is there goes on. -/
structure Explained (time after : Timeline Place) : Prop where
  cancelled : ∀ ticket, .ended ticket .cut ∈ time.observe after →
    after.tenant.loads = time.tenant.loads.cancel ticket
  announced : .moved .ready ∈ time.observe after → ∃ store : Store, store.phase = .ready ∧
    store.session.loaded = true ∧
      after.tenant.live =
        LiveStore.announce { time.tenant.live with host := store } store.snapshot
  kept : time.store.phase = .ready →
    Option.Rel Writer.Precedes time.store.writer after.store.writer

omit [Backend Place] in
theorem Passage.explained (passage : Passage disturb time after) (orderly : time.store.Orderly)
    (later : after.store.Orderly) (course : Course time.store.phase time.reader log) :
    time.Explained after := by
  cases passage with
  | goesOn phase _ reading reads writer =>
    have seen := observe_goesOn phase reading reads writer
    exact ⟨fun _ cut => (nomatch seen ▸ cut), fun moved => (nomatch seen ▸ moved), fun _ => writer⟩
  | begins free unready reading reads live =>
    have seen := observe_begins free reading reads (congrArg (·.host) live)
    refine ⟨fun ticket cut => ?_, fun moved => ?_, fun ready => absurd ready unready⟩
    · rw [seen] at cut
      split at cut <;> simp at cut
    · rw [seen] at moved
      split at moved <;> simp at moved
  | cuts reading loads live =>
    have store : after.store = time.store := congrArg (·.host) live
    have seen := observe_cuts reading loads store
    refine ⟨fun ticket cut => ?_, fun moved => ?_, fun _ => store ▸ Writer.precedes_refl _⟩
    · rw [seen, List.mem_singleton] at cut
      cases cut
      exact loads
    · rw [seen] at moved
      simp at moved
  | opens reading free reads stored live =>
    rw [reader, reading] at course
    have ready : after.store.phase = .ready :=
      (congrArg (·.host.phase) live).trans (LiveStore.becomeReady_opened _ stored).1
    have seen := observe_opens course.unready (orderly.unready course.unready).1 reading free reads
      ready (later.ready ready).1
    let store := time.store.becomeReady (time.store.readBack stored).1 (time.store.readBack stored).2
    refine ⟨fun ticket cut => ?_, fun _ => ⟨store, ?_, ?_, live⟩,
      fun already => absurd already course.unready⟩
    · rw [seen] at cut
      simp at cut
    · exact Store.becomeReady_phase _ _ _
    · exact Store.becomeReady_loaded _ _ _

/-- Whatever is done to a store before, between and after its loads, they make one story: reads are
begun one after another, all but the last are cut short as their load is cancelled, and when one is
used the writer is spawned and the store is ready for good. Before that the store has no writer,
counted nothing, told nobody and wrote nothing; afterwards it has a writer, queues nothing and says
that it is loaded. It becomes ready with one announcement, and its writer stays the same. -/
theorem load_gate {made : Store} (fresh : made.Fresh) (place : Place) :
    (∀ {time : Timeline Place}, Run disturb (Timeline.start made place) time →
      ∃ log, Chronicle disturb (Timeline.start made place) log time) ∧
    ∀ {log : List Event} {time : Timeline Place},
      Chronicle disturb (Timeline.start made place) log time →
        Course time.store.phase time.reader log ∧
        (time.store.phase ≠ .ready → time.Dormant disturb place) ∧
        (time.store.phase = .ready → time.Awake) ∧
        ∀ {after : Timeline Place}, Happens disturb time after → time.Explained after := by
  refine ⟨Run.chronicle, ?_⟩
  intro log time chronicle
  obtain ⟨course, dormant, awake⟩ := chronicle.chronicled fresh
  refine ⟨course, dormant, awake, ?_⟩
  intro after happens
  have orderly := chronicle.run.orderly fresh
  have later := (chronicle.next happens).run.orderly fresh
  exact (happens.passage orderly).explained orderly later course

end Timeline

def retried : Timeline Memory :=
  let reading := ((Timeline.start Store.plain {}).enterLoad.1.enterLoad.1).turns 1
  let cancelled := reading.withTenant fun tenant => { tenant with loads := tenant.loads.cancel 0 }
  ((cancelled.update { clockFormat := some .twelveHour }).1.turns 1).turns 1

theorem Timeline.Chronicle.turn {Place : Type} [Backend Place] {disturb : Place → Place → Prop}
    {start time : Timeline Place} {log : List Event} (chronicle : Chronicle disturb start log time)
    (alone : time.leaving = []) (ready : time.ready?.isSome = true) :
    Chronicle disturb start (log ++ time.observe (time.turns 1)) (time.turns 1) := by
  obtain ⟨after, found⟩ := Option.isSome_iff_exists.mp ready
  have same : time.turns 1 = after := by
    rw [turns, next?, found]
    rfl
  rw [same]
  exact chronicle.next (.step (.turn (ready?_turn alone found)))

theorem retried_chronicle :
    Timeline.Chronicle Memory.Faults (Timeline.start Store.plain {})
      [.moved .loading, .began 0, .ended 0 .cut, .began 1, .ended 1 .used, .spawned, .moved .ready]
      retried := by
  have begun : Timeline.Chronicle Memory.Faults (Timeline.start Store.plain {}) [] _ := .start
  have asked := (begun.next (.step (.call (.load rfl)))).next (.step (.call (.load rfl)))
  have cancelled := (asked.turn rfl rfl).next (.step (.call (.cancel _ 0)))
  have updated := cancelled.next (.update rfl { clockFormat := some .twelveHour })
  exact (updated.turn rfl rfl).turn rfl rfl

theorem retried_load_opens_once :
    Course .ready none
      [.moved .loading, .began 0, .ended 0 .cut, .began 1, .ended 1 .used, .spawned,
        .moved .ready] ∧
      retried.Awake ∧ retried.Explained (retried.update { clockFormat := some .twelveHour }).1 := by
  obtain ⟨course, -, awake, explained⟩ :=
    (Timeline.load_gate Store.plain_fresh ({} : Memory)).2 retried_chronicle
  exact ⟨course, awake rfl, explained (.update rfl { clockFormat := some .twelveHour })⟩

end StartPage
