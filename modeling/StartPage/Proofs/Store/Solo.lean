import StartPage.Proofs.Store.Reopening

/-!
A store that has its place to itself: nobody else touches the place, nobody listens, nothing is
refused, and the only calls are loads, updates and flushes. Until a write has ended the place is as
it was at first, so the only write of a single revision goes well if the place takes it.
-/
namespace StartPage

open Migration (Chain)

namespace LiveStore

variable {live : LiveStore}

theorem announce_unheard (live : LiveStore) (unheard : live.hub = {}) (snapshot : Snapshot) :
    LiveStore.announce live snapshot = live := by
  obtain ⟨host, hub, heard⟩ := live
  cases unheard
  rfl

theorem update_unheard (unheard : live.hub = {}) (patch : Patch) :
    (live.update patch).1 = { live with host := (live.host.update patch).1 } := by
  rw [LiveStore.update]
  dsimp only
  split
  · exact announce_unheard { live with host := (live.host.update patch).1 } unheard _
  · rfl

theorem becomeReady_unheard (unheard : live.hub = {})
    (stored : Except StorageError (Option Bytes)) :
    (live.becomeReady stored).1 =
      { live with
        host :=
          live.host.becomeReady (live.host.readBack stored).1 (live.host.readBack stored).2 } :=
  announce_unheard
    { live with
      host := live.host.becomeReady (live.host.readBack stored).1 (live.host.readBack stored).2 }
    unheard _

end LiveStore

namespace Writer

/-- Once all its writes have ended, a writer none of whose writes failed ended the last one well. -/
def Unfailing (writer : Writer) : Prop :=
  writer.failed = 0 → (∀ attempt, writer.activity ≠ .writing attempt) → writer.attempts ≠ [] →
    writer.lastSucceeded = true

theorem Step.unfailing {Place : Type} [Backend Place] {writer after : Writer} {now delay : Nat}
    {place left : Place} (step : Step now delay writer place after left)
    (unfailing : writer.Unfailing) : after.Unfailing := by
  cases step with
  | move idle move =>
    have resting : ∀ attempt, writer.activity ≠ .writing attempt := by
      intro attempt writing
      cases idle.symm.trans writing
    cases move with
    | receive | answer | stop => exact fun none _ => unfailing none resting
    | flush | expire | drain => exact fun _ still => absurd rfl (still _)
  | finish =>
    rename_i attempt _ _
    obtain ⟨succeeded, same⟩ := writer.finish_eq attempt place
    rw [same]
    intro none _ _
    cases succeeded with
    | true => rfl
    | false => cases none

/-- The writer of a store that has its place to itself, when nothing is refused and the place took
bytes at first. -/
structure Unhindered {Place : Type} (key : String) (origin : Place) (writer : Writer)
    (place : Place) : Prop where
  keyed : writer.key = key
  encodes : ∀ settings, (writer.encode settings).isSome = true
  writing : ∀ attempt, writer.activity = .writing attempt → attempt.bytes.isSome = true
  untouched : writer.completed + writer.failed = 0 → place = origin
  well : writer.history.length ≤ 1 → writer.failed = 0

namespace Unhindered

variable {Place : Type} {key : String} {origin place left : Place} {writer after : Writer}
variable {now delay : Nat}

theorem begin (unhindered : writer.Unhindered key origin place) (revision : Revision)
    (sequel : Sequel) : (writer.begin now delay revision sequel).Unhindered key origin place :=
  { unhindered with
    writing := by
      rintro attempt ⟨⟩
      exact unhindered.encodes _ }

theorem schedule (unhindered : writer.Unhindered key origin place) (settings : Settings) :
    (writer.schedule settings).Unhindered key origin place := by
  unfold Writer.schedule Writer.send
  split
  · exact unhindered
  · refine { unhindered with well := fun few => unhindered.well ?_ }
    rw [List.length_append] at few
    exact Nat.le_of_add_right_le few

theorem flush (unhindered : writer.Unhindered key origin place) :
    writer.flush.Unhindered key origin place := by
  unfold Writer.flush Writer.send
  split <;> exact { unhindered with }

end Unhindered

theorem Orderly.revisions_length_le {writer : Writer} (orderly : writer.Orderly) :
    writer.revisions.length ≤ writer.history.length := by
  have numbers := List.pairwise_map.mpr orderly.rising
  have within : writer.revisions.map (·.number) ⊆ List.range' 1 writer.history.length := by
    intro number member
    obtain ⟨revision, listed, rfl⟩ := List.mem_map.mp member
    have positive := (orderly.known revision listed).1
    have below := orderly.number_le listed
    exact List.mem_range'_1.mpr ⟨positive, by omega⟩
  have few := (List.subperm_of_subset (numbers.imp Nat.ne_of_lt) within).length_le
  simpa using few

theorem Orderly.attempts_length_le {writer : Writer} (orderly : writer.Orderly) :
    writer.attempts.length ≤ writer.history.length := by
  have all := orderly.revisions_length_le
  rw [revisions, List.length_append, List.length_map, List.length_reverse] at all
  exact Nat.le_of_add_right_le all

theorem Unhindered.conclude {Place : Type} {key : String} {origin place left : Place}
    {writer : Writer} (unhindered : writer.Unhindered key origin place) (sequel : Sequel)
    {succeeded : Bool} (well : writer.history.length ≤ 1 → succeeded = true) :
    (writer.conclude sequel succeeded).Unhindered key origin left where
  keyed := unhindered.keyed
  encodes := unhindered.encodes
  writing := by
    unfold Writer.conclude
    dsimp only
    split <;> nofun
  untouched := by
    intro none
    cases succeeded <;> simp [Writer.conclude] at none
  well := by
    intro few
    have kept := unhindered.well few
    rw [well few]
    exact kept

theorem Unhindered.finish {Place : Type} [Backend Place] {key : String} {origin place : Place}
    {writer : Writer} {attempt : Attempt} (unhindered : writer.Unhindered key origin place)
    (taken : ∀ bytes, (Backend.write origin key bytes).2 = .ok ()) (orderly : writer.Orderly)
    (counted : writer.Counted) (writing : writer.activity = .writing attempt) :
    (writer.finish attempt place).1.Unhindered key origin (writer.finish attempt place).2 := by
  obtain ⟨bytes, encoded⟩ := Option.isSome_iff_exists.mp (unhindered.writing attempt writing)
  simp only [Writer.finish, encoded, unhindered.keyed]
  split
  case h_1 => exact unhindered.conclude _ fun _ => rfl
  case h_2 left fault written =>
    refine unhindered.conclude _ fun few => ?_
    have first : writer.completed + writer.failed = 0 := by
      have attempted := orderly.attempts_length_le
      have counts : writer.attempts.length = writer.completed + writer.failed + 1 := by
        rw [counted, writing]
        rfl
      omega
    have well := taken bytes
    rw [← unhindered.untouched first, written] at well
    cases well

theorem Unhindered.step {Place : Type} [Backend Place] {key : String} {origin place left : Place}
    {writer after : Writer} {now delay : Nat} (unhindered : writer.Unhindered key origin place)
    (taken : ∀ bytes, (Backend.write origin key bytes).2 = .ok ()) (orderly : writer.Orderly)
    (counted : writer.Counted) (step : Step now delay writer place after left) :
    after.Unhindered key origin left := by
  cases step with
  | move idle move =>
    have resting {attempt : Attempt} (writing : writer.activity = .writing attempt) :
        attempt.bytes.isSome = true := nomatch idle.symm.trans writing
    cases move with
    | receive | answer => exact { unhindered with writing := fun _ => resting }
    | stop => exact { unhindered with writing := nofun }
    | expire | drain => exact unhindered.begin _ _
    | flush =>
      rename_i revision rest _ _
      have popped : ({ writer with queue := rest } : Writer).Unhindered key origin place :=
        { unhindered with }
      exact popped.begin _ _
  | finish writing => exact unhindered.finish taken orderly counted writing

end Writer

namespace Store

theorem lasting_unfailing (Place : Type) [Backend Place] :
    Store.Lasting Place Writer.Unfailing where
  fresh _ := fun _ _ attempted => absurd rfl attempted
  schedule writer settings unfailing := by
    unfold Writer.schedule Writer.send
    split <;> exact unfailing
  flush writer unfailing := by
    unfold Writer.flush Writer.send
    split <;> exact unfailing
  close _ unfailing := unfailing
  refuse _ _ unfailing := unfailing
  step step := step.unfailing

theorem becomeReady_session (store : Store) (loaded : Settings) (migrated : Bool) :
    (store.becomeReady loaded migrated).session = { store.session with loaded := true } := by
  rw [becomeReady_eq]
  split <;> rfl

/-- A store that has its place to itself, when the codec refuses nothing and the place took bytes at
first. -/
structure Unhindered {Place : Type} (key : String) (origin : Place) (store : Store)
    (place : Place) : Prop where
  keyed : store.config.key = key
  unwritten : store.writer = none → place = origin
  writer : ∀ writer, store.writer = some writer → writer.Unhindered key origin place
  encodes : ∀ settings, (store.encode settings).isSome = true

namespace Unhindered

variable {Place : Type} {key : String} {origin place left : Place} {store : Store}

theorem schedule (unhindered : store.Unhindered key origin place) (settings : Settings) :
    ({ store with settings }.schedule).Unhindered key origin place where
  keyed := unhindered.keyed
  unwritten none := unhindered.unwritten (Option.map_eq_none_iff.mp none)
  writer := by
    intro writer present
    obtain ⟨before, found, rfl⟩ := Option.map_eq_some_iff.mp present
    exact (unhindered.writer before found).schedule settings
  encodes := unhindered.encodes

theorem withWriter (unhindered : store.Unhindered key origin place) {writer : Writer}
    (changed : writer.Unhindered key origin left) :
    { store with writer := some writer }.Unhindered key origin left where
  keyed := unhindered.keyed
  unwritten := nofun
  writer := by
    rintro writer ⟨⟩
    exact changed
  encodes := unhindered.encodes

theorem commit (unhindered : store.Unhindered key origin place) (request : Except Error Patch) :
    (store.commit request).1.Unhindered key origin place := by
  rcases store.commit_cases request with same | ⟨patch, _, same⟩ | ⟨patch, _, same⟩ <;> rw [same]
  · exact unhindered
  · exact { unhindered with }
  · exact unhindered.schedule _

theorem becomeReady (unhindered : store.Unhindered key origin place) (unwritten : store.writer = none)
    (loaded : Settings) (migrated : Bool) :
    (store.becomeReady loaded migrated).Unhindered key origin place := by
  have fresh : store.freshWriter.Unhindered key origin place :=
    ⟨unhindered.keyed, unhindered.encodes, nofun, fun _ => unhindered.unwritten unwritten,
      fun _ => rfl⟩
  have opening : (store.opening loaded).Unhindered key origin place := by
    refine ⟨unhindered.keyed, nofun, ?_, unhindered.encodes⟩
    rintro writer ⟨⟩
    exact fresh
  rw [becomeReady_eq]
  split
  · exact opening.schedule _
  · exact opening

end Unhindered

end Store

namespace Timeline

variable {Place : Type} [Backend Place] {disturb : Place → Place → Prop}

/-- What a timeline grows into when its store has the place to itself. -/
inductive Solo (start : Timeline Place) : Timeline Place → Prop where
  | start : Solo start start
  | turn {time after : Timeline Place} (solo : Solo start time) (turn : Turn time after) :
      Solo start after
  | wait {time : Timeline Place} (solo : Solo start time) (later : Nat)
      (forward : time.now ≤ later) : Solo start { time with now := later }
  | load {time : Timeline Place} (solo : Solo start time) : Solo start time.enterLoad.1
  | update {time : Timeline Place} (solo : Solo start time) (patch : Patch) :
      Solo start (time.update patch).1
  | flush {time : Timeline Place} (solo : Solo start time) : Solo start time.askFlush

variable {start time after : Timeline Place}

theorem Turn.released (turn : Turn time after) :
    after.tenant.released = time.tenant.released := by
  cases turn with
  | writer | close => rfl
  | gate step => cases Tenant.stepLoad?_gate step <;> rfl

theorem Turn.unheard (turn : Turn time after) (unheard : time.tenant.live.hub = {}) :
    after.tenant.live.hub = {} := by
  cases turn with
  | writer | close => exact unheard
  | gate step =>
    cases Tenant.stepLoad?_gate step with
    | finish =>
      change (time.tenant.live.becomeReady time.readNow).1.hub = {}
      rw [LiveStore.becomeReady_unheard unheard]
      exact unheard
    | pass | begin => exact unheard

namespace Solo

theorem held (solo : Solo start time) (held : start.tenant.released = false) :
    time.tenant.released = false := by
  induction solo with
  | start => exact held
  | turn _ turn ih => exact turn.released.trans ih
  | wait _ _ _ ih | load _ ih | update _ _ ih | flush _ ih => exact ih

theorem run (solo : Solo start time) (held : start.tenant.released = false) :
    Run disturb start time := by
  induction solo with
  | start => exact .start
  | turn _ turn ih => exact ih.step (.turn turn)
  | wait _ later forward ih => exact ih.step (.wait _ later forward)
  | load solo ih => exact ih.step (.call (.load (solo.held held)))
  | update solo patch ih => exact ih.update (solo.held held) patch
  | flush solo ih => exact ih.step (.flush (solo.held held))

theorem unheard (solo : Solo start time) (unheard : start.tenant.live.hub = {}) :
    time.tenant.live.hub = {} := by
  induction solo with
  | start => exact unheard
  | turn _ turn ih => exact turn.unheard ih
  | wait _ _ _ ih | load _ ih | flush _ ih => exact ih
  | @update time _ patch ih =>
    change (time.tenant.live.update patch).1.hub = {}
    rw [LiveStore.update_unheard ih]
    exact ih

theorem leaving (solo : Solo start time) : time.leaving = start.leaving := by
  induction solo with
  | start => rfl
  | turn _ turn ih => exact turn.leaving.trans ih
  | wait _ _ _ ih | load _ ih | update _ _ ih | flush _ ih => exact ih

theorem goes_on (solo : Solo start time) (alone : start.leaving = [])
    (goal : Timeline Place → Bool) (limit : Option Nat) : Solo start (time.run goal limit) := by
  refine run_keep goal limit (Solo start) ?_ solo
  intro time after solo stepped
  obtain ⟨later, forward, turn⟩ := next?_turn (solo.leaving.trans alone) stepped
  exact (solo.wait later forward).turn turn

theorem loads (solo : Solo start time) (alone : start.leaving = []) : Solo start time.load.1 :=
  ((solo.load.goes_on alone _ _).goes_on alone _ _).goes_on alone _ _

theorem flushes (solo : Solo start time) (alone : start.leaving = []) : Solo start time.flush.1 := by
  rw [Timeline.flush]
  split
  · exact solo
  · split
    · exact solo
    · dsimp only
      split <;> exact solo.flush.goes_on alone _ _

theorem unhindered {made : Store} {place : Place} (fresh : made.Fresh)
    (encodes : ∀ settings, (made.encode settings).isSome = true)
    (taken : ∀ bytes, (Backend.write place made.config.key bytes).2 = .ok ())
    (solo : Solo (Timeline.start made place) time) :
    time.store.Unhindered made.config.key place time.place := by
  have none : (Timeline.start made place).store.writer = none := fresh.writer
  induction solo with
  | start =>
    exact ⟨rfl, fun _ => rfl, fun _ present => (nomatch none.symm.trans present), encodes⟩
  | @turn time _ solo turn ih =>
    have run : Run (fun _ _ => False) _ time := solo.run rfl
    have life := (run.life fresh.writer).1
    cases turn with
    | writer present step =>
      have orderly := (run.orderly fresh).writer _ present
      have counted := life.writer_keep (Store.lasting_counted Place) fresh.writer present
      exact ih.withWriter ((ih.writer _ present).step taken orderly counted step)
    | close closable =>
      exact ih.withWriter { ih.writer _ (Tenant.closable?_writer closable).1 with }
    | gate step =>
      cases Tenant.stepLoad?_gate step with
      | pass => exact ih
      | begin => exact { ih with }
      | finish reads =>
        have unready := (run.life fresh.writer).2.reading (congrArg Option.isSome reads)
        have unwritten := ((run.orderly fresh).unready unready).1
        have ready := ih.becomeReady unwritten (time.store.readBack time.readNow).1
          (time.store.readBack time.readNow).2
        have same := LiveStore.becomeReady_unheard (solo.unheard rfl) time.readNow
        change (time.tenant.live.becomeReady time.readNow).1.host.Unhindered _ place time.place
        rw [same]
        exact ready
  | wait _ _ _ ih | load _ ih => exact ih
  | @update time solo patch ih =>
    change (time.tenant.live.update patch).1.host.Unhindered _ place time.place
    rw [LiveStore.update_unheard (solo.unheard rfl)]
    exact ih.commit (.ok patch)
  | flush _ ih =>
    apply Store.mapWriter_keep (fun store => store.Unhindered _ place _) ih
    intro writer present
    exact ih.withWriter (ih.writer writer present).flush

end Solo

theorem Calm.flushes (calm : Calm disturb start time) (alone : time.leaving = [])
    (held : time.tenant.released = false) : Calm disturb start time.flush.1 := by
  have asked : Calm disturb start time.askFlush ∧ time.askFlush.leaving = [] :=
    ⟨calm.step (.flush held), alone⟩
  have awaited (ticket : Nat) := run_keep
    (fun time : Timeline Place => time.isAnswered ticket || time.store.writer.all Writer.isStopped)
    none (fun time => Calm disturb start time ∧ time.leaving = []) (fun kept stepped => by
      obtain ⟨later, forward, turn⟩ := next?_turn kept.2 stepped
      exact ⟨(kept.1.step (.wait _ later forward)).step (.turn turn),
        turn.leaving.trans kept.2⟩) asked
  rw [Timeline.flush]
  split
  · exact calm
  · split
    · exact calm
    · dsimp only
      split <;> exact (awaited _).1

theorem load_opens {made : Store} (fresh : made.Fresh) (place : Place) :
    (Timeline.start made place).opened.WentOn (Timeline.start made place).load.1.store ∧
      (Timeline.start made place).load.1.store.phase = .ready := by
  have unready : (Timeline.start made place).store.phase ≠ .ready := by
    obtain ⟨config, chain, host, new, codec, made, rfl⟩ := fresh
    rw [Store.new_eq made]
    nofun
  have undisturbed (before after : Place) (disturbed : (fun _ _ => False) before after) :
      id after = id before := disturbed.elim
  obtain ⟨ended, settings, ends, since, -, -⟩ :=
    load_ends (fun _ _ => False) rfl unready fresh.writer rfl rfl
  have begun : Run (fun _ _ => False) (Timeline.start made place) (Timeline.start made place) := .start
  have leaves := since.calm.leaves undisturbed fresh (ends.calm.run begun) ends.untouched ends.live
    ends.since.ready
  exact ⟨leaves.store nofun, leaves.phase⟩

theorem Solo.place_keep (Kept : Place → Prop)
    (written : ∀ place key bytes, Kept place → Kept (Backend.write place key bytes).1)
    (solo : Solo start time) (kept : Kept start.place) : Kept time.place := by
  induction solo with
  | start => exact kept
  | turn _ turn ih =>
    cases turn with
    | close | gate => exact ih
    | @writer writer _ _ _ step =>
      cases step with
      | move => exact ih
      | finish =>
        rw [Writer.finish]
        split
        · exact ih
        · rename_i bytes _
          have done := written _ writer.key bytes ih
          split <;> rename_i same <;> rw [same] at done <;> exact done
  | wait _ _ _ ih | load _ ih | update _ _ ih | flush _ ih => exact ih

theorem Solo.flush_wentOn {made : Store} {place : Place} (fresh : made.Fresh)
    (solo : Solo (Timeline.start made place) time) (ready : time.store.phase = .ready) :
    time.store.WentOn time.flush.1.store :=
  (Calm.start.flushes solo.leaving (solo.held rfl)).wentOn fresh
    (solo.run rfl : Run (fun _ _ => False) _ time) ready

theorem Solo.failed_eq_zero {made : Store} {place : Place} {history : List Settings}
    (fresh : made.Fresh) (encodes : ∀ settings, (made.encode settings).isSome = true)
    (taken : ∀ bytes, (Backend.write place made.config.key bytes).2 = .ok ())
    (solo : Solo (Timeline.start made place) time)
    (given : time.store.writer.map Writer.history = some history) (few : history.length ≤ 1) :
    time.store.tally.failed = 0 := by
  obtain ⟨writer, present, rfl⟩ := Option.map_eq_some_iff.mp given
  have well := ((solo.unhindered fresh encodes taken).writer writer present).well few
  rw [Store.tally, present]
  exact well

/-- A flush leaves a place that was given nothing as it was at first. Otherwise, when no write has
failed, the place holds the settings afterwards. -/
theorem Solo.flush_writes [Shelf Place] {config : Config} {chain : Chain} {host : Host}
    {made : Store} {place : Place} (new : Store.new config chain host = .ok made)
    (solo : Solo (Timeline.start made place) time) (ready : time.store.phase = .ready)
    (well : time.flush.1.store.tally.failed = 0) :
    (time.store.writer.map Writer.history = some [] ∧
      time.flush.1.store.tally.completed = 0 ∧ time.flush.1.place = place) ∨
    (time.store.writer.map Writer.history ≠ some [] ∧
      0 < time.flush.1.store.tally.completed ∧
      ∃ bytes, time.store.encode time.store.settings = some bytes ∧
        Shelf.held time.flush.1.place time.store.config.key = some bytes) := by
  have fresh : made.Fresh := ⟨_, _, _, _, made.codec, new, rfl⟩
  have run : Run (fun _ _ => False) (Timeline.start made place) time := solo.run rfl
  have held := solo.held rfl
  have wentOn := solo.flush_wentOn fresh ready
  obtain ⟨flushing, settings, writer, present, quiet⟩ :=
    flush_rests fresh run ready held (Prod.ext rfl (flush_ok fresh run held))
  obtain ⟨orderly, rooted, -⟩ := flushing.rooted new
  have kept := orderly.writer writer present
  have life := (flushing.life fresh.writer).1
  have counted := life.writer_keep (Store.lasting_counted Place) fresh.writer present
  have unfailing := life.writer_keep (Store.lasting_unfailing Place) fresh.writer present
  have idle : writer.activity.writes = 0 := by
    cases activity : writer.activity with
    | writing attempt => exact absurd activity (quiet.2.2 attempt)
    | idle | stopped => rfl
  rw [Writer.Counted, idle] at counted
  have history : time.store.writer.map Writer.history = some writer.history := by
    rw [← wentOn.history, present, Option.map_some]
  simp only [Store.tally, present] at well ⊢
  by_cases none : writer.history = []
  · have unattempted := kept.attempts_eq_nil none
    rw [unattempted, List.length_nil] at counted
    refine .inl ⟨none ▸ history, by omega, rooted.untouched fun other again => ?_⟩
    cases present.symm.trans again
    exact unattempted
  · have attempted : writer.attempts ≠ [] := by
      intro unattempted
      have newest := kept.newest_of_quiescent quiet
      rw [unattempted, List.head?_nil, Option.map_none] at newest
      exact none (List.getLast?_eq_none_iff.mp (Option.map_eq_none_iff.mp newest.symm))
    obtain ⟨-, bytes, encoded, stored⟩ := (rooted.faithful writer present).at_rest orderly present
      quiet none (unfailing well quiet.2.2 attempted)
    have counts := List.length_pos_iff.mpr attempted
    have encode : time.flush.1.store.encode = time.store.encode := by
      rw [wentOn.same]
      rfl
    have config : time.flush.1.store.config = time.store.config := by rw [wentOn.same]
    rw [encode, wentOn.settings] at encoded
    rw [config] at stored
    exact .inr ⟨fun same => none (Option.some.inj (history.symm.trans same)), by omega, bytes,
      encoded, stored⟩

end Timeline
end StartPage
