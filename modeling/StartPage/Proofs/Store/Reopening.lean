import StartPage.Proofs.Store.Barrier
import StartPage.Proofs.Store.Restart
import StartPage.Proofs.Store.Restoring

/-!
Opening what was opened before. A store that nobody updates holds what the place gave at first, and
writes it back only when the record had to be migrated. What it wrote is a current record that gives
the same settings; so a second store finds the first one's settings and nothing to write.
-/
namespace StartPage

open Migration (Chain)

def Activity.writes : Activity → Nat
  | .writing _ => 1
  | _ => 0

namespace Writer

/-- Every attempt is counted once it has ended. -/
def Counted (writer : Writer) : Prop :=
  writer.attempts.length = writer.completed + writer.failed + writer.activity.writes

theorem schedule_counted {writer : Writer} (counted : writer.Counted) (settings : Settings) :
    (writer.schedule settings).Counted := by
  unfold Writer.schedule Writer.send
  split <;> exact counted

theorem flush_counted {writer : Writer} (counted : writer.Counted) : writer.flush.Counted := by
  unfold Writer.flush Writer.send
  split <;> exact counted

theorem Step.counted {Place : Type} [Backend Place] {writer after : Writer} {now delay : Nat}
    {place left : Place} (step : Step now delay writer place after left)
    (counted : writer.Counted) : after.Counted := by
  rw [Counted] at counted
  cases step with
  | move idle move =>
    rw [idle] at counted
    cases move with
    | receive | answer => simpa [Counted, idle] using counted
    | stop => exact counted
    | flush | expire | drain => exact congrArg (· + 1) counted
  | finish writing =>
    rename_i attempt _
    obtain ⟨succeeded, same⟩ := writer.finish_eq attempt place
    rw [writing] at counted
    have ended : (writer.conclude attempt.sequel succeeded).activity.writes = 0 := by
      unfold conclude
      dsimp only
      split <;> rfl
    rw [same, Counted, ended, conclude]
    cases succeeded <;> simp [Activity.writes] at counted ⊢ <;> omega

end Writer

theorem Store.lasting_counted (Place : Type) [Backend Place] :
    Store.Lasting Place Writer.Counted where
  fresh _ := rfl
  schedule _ settings counted := Writer.schedule_counted counted settings
  flush _ := Writer.flush_counted
  close _ counted := counted
  refuse _ _ counted := counted
  step step := step.counted

namespace Store

variable {store : Store}

structure Idle (store : Store) : Prop where
  queued : store.queued = []
  history : ∀ writer, store.writer = some writer → writer.history = []

theorem Idle.of_map (queued : store.queued = [])
    (history : store.writer.map Writer.history = some []) : store.Idle where
  queued := queued
  history := by
    intro writer present
    rw [present] at history
    exact Option.some.inj history

theorem Idle.wentOn {after : Store} (idle : store.Idle) (wentOn : store.WentOn after) :
    after.Idle where
  queued := by
    rw [wentOn.same]
    exact idle.queued
  history := by
    intro writer present
    have given := wentOn.history
    rw [present] at given
    obtain ⟨before, found, same⟩ := Option.map_eq_some_iff.mp given.symm
    exact same.symm.trans (idle.history before found)

theorem Idle.tally (idle : store.Idle) (orderly : store.Orderly)
    (counted : ∀ writer, store.writer = some writer → writer.Counted) : store.tally = {} := by
  cases present : store.writer with
  | none => rw [Store.tally, present]
  | some writer =>
    have kept := orderly.writer writer present
    have nothing := idle.history writer present
    have scheduled : writer.scheduled = 0 := by rw [kept.counted, nothing, List.length_nil]
    have ended := counted writer present
    rw [Writer.Counted, kept.attempts_eq_nil nothing, List.length_nil] at ended
    have completed : writer.completed = 0 := by omega
    have failed : writer.failed = 0 := by omega
    rw [Store.tally, present]
    exact congr (congr (congrArg Tally.mk scheduled) completed) failed

end Store

namespace Timeline

variable {Place : Type} [Backend Place] [Shelf Place] {config : Config} {chain : Chain}
variable {host otherHost : Host} {made second : Store} {place : Place} {found : Option Bytes}
variable {log : List (Patch × Settings)} {loaded : Option Loaded} {time : Timeline Place}

theorem Run.readBack_now (new : Store.new config chain host = .ok made)
    (run : Run (fun _ _ => False) (Timeline.start made place) time)
    (unready : time.store.phase ≠ .ready) :
    time.store.readBack time.readNow = made.readBack (Backend.read place made.config.key) := by
  obtain ⟨orderly, rooted, sameConfig, sameChain, codec⟩ := run.rooted new
  have untouched : time.place = place := by
    apply rooted.untouched
    intro writer present
    cases (orderly.unready unready).1.symm.trans present
  rw [readNow, untouched, sameConfig]
  rw [Store.new_eq new] at *
  exact Store.readBack_congr codec sameChain _

theorem Served.base_eq (new : Store.new config chain host = .ok made)
    (served : Served (fun _ _ => False) (Timeline.start made place) log loaded time) :
    ∀ found ∈ loaded, found.base = (made.readBack (Backend.read place made.config.key)).1 := by
  have fresh : made.Fresh := ⟨_, _, _, _, made.codec, new, rfl⟩
  induction served with
  | start => nofun
  | step _ _ _ ih => exact ih
  | update _ _ _ ih => exact ih
  | @loaded _ _ time _ served reading step _ =>
    rintro found ⟨⟩
    have unready := (served.run.life fresh.writer).2.reading reading
    exact congrArg Prod.fst (served.run.readBack_now new unready)

theorem Served.idle (new : Store.new config chain host = .ok made)
    (current : (made.readBack (Backend.read place made.config.key)).2 = false)
    (served : Served (fun _ _ => False) (Timeline.start made place) log loaded time)
    (silent : ∀ update ∈ log, update.1.isEmpty = true) : time.store.Idle := by
  have fresh : made.Fresh := ⟨_, _, _, _, made.codec, new, rfl⟩
  induction served with
  | start =>
    rw [Store.new_eq new]
    exact ⟨rfl, nofun⟩
  | @step _ _ time after served step same ih =>
    have idle := ih silent
    by_cases ready : time.store.phase = .ready
    · exact idle.wentOn (step.wentOn ready (served.run.unread fresh ready))
    · have unready : after.store.phase ≠ .ready := fun now => ready (same.mp now)
      have unwritten := (((served.run.step step).orderly fresh).unready unready).1
      refine ⟨?_, fun writer present => nomatch unwritten.symm.trans present⟩
      rcases step_frame step with ⟨-, queued, -⟩ | ⟨reading, tenant, rfl, ended⟩
      · exact queued.trans idle.queued
      · exact absurd (Tenant.stepLoad?_ready reading ended) unready
  | @update _ _ time served held patch ih =>
    have idle := ih fun update member => silent update (List.mem_append_left _ member)
    have same := Store.commits_eq_of_silent (time.tenant.live.update_commits patch)
      fun call member => silent call (List.mem_append_right _ member)
    have unchanged : (time.update patch).1.store = time.store := same
    exact unchanged ▸ idle
  | @loaded _ _ time tenant served reading step ih =>
    have idle := ih fun update member => silent update (List.mem_append_left _ member)
    have unready := (served.run.life fresh.writer).2.reading reading
    have same := Store.commits_eq_of_silent (time.tenant.live.becomeReady_commits time.readNow)
      fun call member => silent call (List.mem_append_right _ member)
    have opened : tenant.store = time.opened := by
      rcases Tenant.stepLoad?_cases step with ⟨-, live⟩ | ⟨none, -⟩
      · exact (congrArg (·.host) live).trans same
      · rw [none] at reading
        cases reading
    have nothing : ¬ time.store.HasNews time.readNow := by
      rw [Store.hasNews_iff, served.run.readBack_now new unready, current, idle.queued]
      exact Bool.false_ne_true
    have readied := time.store.becomeReady_readied time.readNow
    have ready : time.opened.Idle := .of_map readied.queued (readied.idle nothing).2
    change tenant.store.Idle
    rw [opened]
    exact ready

theorem Served.settings_eq (new : Store.new config chain host = .ok made)
    (served : Served (fun _ _ => False) (Timeline.start made place) log loaded time)
    (silent : ∀ update ∈ log, update.1.isEmpty = true) (ready : time.store.phase = .ready) :
    time.store.settings = (made.readBack (Backend.read place made.config.key)).1 := by
  have fresh : made.Fresh := ⟨_, _, _, _, made.codec, new, rfl⟩
  obtain ⟨found, rfl, -, settings⟩ := (served.accounted fresh).ready ready
  rw [settings, served.base_eq new found rfl]
  refine Settings.applyAll_of_isEmpty _ fun patch member => ?_
  obtain ⟨update, logged, rfl⟩ := List.mem_map.mp member
  exact silent update logged

/-- A store that finds its record as it is to be, and that nobody updates, schedules nothing and
leaves the place alone. -/
theorem Served.untouched (new : Store.new config chain host = .ok made)
    (current : (made.readBack (Backend.read place made.config.key)).2 = false)
    (served : Served (fun _ _ => False) (Timeline.start made place) log loaded time)
    (silent : ∀ update ∈ log, update.1.isEmpty = true) :
    time.store.tally = {} ∧ time.place = place := by
  have fresh : made.Fresh := ⟨_, _, _, _, made.codec, new, rfl⟩
  obtain ⟨orderly, rooted, -⟩ := served.run.rooted new
  have idle := served.idle new current silent
  constructor
  · refine idle.tally orderly fun writer present => ?_
    exact (served.run.life fresh.writer).1.writer_keep (Store.lasting_counted Place) fresh.writer
      present
  · apply rooted.untouched
    intro writer present
    exact (orderly.writer writer present).attempts_eq_nil (idle.history writer present)

theorem Served.gives_back (new : Store.new config chain host = .ok made)
    (served : Served (fun _ _ => False) (Timeline.start made place) log loaded time)
    (silent : ∀ update ∈ log, update.1.isEmpty = true) (ready : time.store.phase = .ready)
    (held : time.tenant.released = false)
    (written : ∀ writer, time.flush.1.store.writer = some writer → writer.attempts ≠ [] →
      writer.lastSucceeded = true)
    (readable : Backend.read time.flush.1.place config.key = .ok found)
    (again : Store.new config chain otherHost = .ok second) :
    time.flush.1.store.settings = time.store.settings ∧
      second.readBack (Backend.read time.flush.1.place second.config.key) =
        (time.store.settings, false) := by
  have fresh : made.Fresh := ⟨_, _, _, _, made.codec, new, rfl⟩
  have settings := served.settings_eq new silent ready
  have answered : time.flush = (time.flush.1, .ok ()) :=
    Prod.ext rfl (flush_ok fresh served.run held)
  obtain ⟨flushing, same, writer, present, quiet⟩ :=
    flush_rests fresh served.run ready held answered
  obtain ⟨orderly, rooted, sameConfig, sameChain, codec⟩ := flushing.rooted new
  have distinct : time.flush.1.store.settings.Distinct := by
    rw [same, settings]
    exact Store.readBack_distinct _ _
  -- Lists without repeats hold six cards at most, far less than the format can count.
  have short : config.format = .messagePack →
      time.flush.1.store.settings.stackOrder.length < 2 ^ 32 ∧
        time.flush.1.store.settings.removed.length < 2 ^ 32 := by
    have order := Settings.length_le_of_nodup distinct.1
    have removed := Settings.length_le_of_nodup distinct.2
    exact fun _ => ⟨by omega, by omega⟩
  have back := rooted.readBack_eq orderly codec present quiet (written writer present)
    (sameConfig ▸ readable) short
  rw [Settings.withoutRepeats_of_distinct distinct, same] at back
  refine ⟨same, ?_⟩
  rw [← back, Store.new_eq again, sameConfig]
  exact Store.readBack_congr codec.symm sameChain.symm _

/-- Loading settles what is stored. -/
theorem reload_is_stable (new : Store.new config chain host = .ok made)
    (served : Served (fun _ _ => False) (start made place) log loaded time)
    (silent : ∀ update ∈ log, update.1.isEmpty = true) (ready : time.store.phase = .ready)
    (held : time.tenant.released = false)
    (written : ∀ writer, time.flush.1.store.writer = some writer → writer.attempts ≠ [] →
      writer.lastSucceeded = true)
    (readable : Backend.read time.flush.1.place config.key = .ok found)
    (again : Store.new config chain otherHost = .ok second) :
    (start made place).load.2 = some (.loaded time.store.settings) ∧
    time.flush.2 = .ok () ∧ time.flush.1.store.settings = time.store.settings ∧
    (∀ now readDelay writeDelay,
      ({ start second time.flush.1.place with now, readDelay, writeDelay } : Timeline Place).load.2 =
        some (.loaded time.store.settings)) ∧
    ∀ {log : List (Patch × Settings)} {loaded : Option Loaded} {later : Timeline Place},
      Served (fun _ _ => False) (start second time.flush.1.place) log loaded later →
      (∀ update ∈ log, update.1.isEmpty = true) →
        later.store.tally = {} ∧ later.place = time.flush.1.place ∧
          (later.store.phase = .ready → later.store.settings = time.store.settings) := by
  have fresh : made.Fresh := ⟨_, _, _, _, made.codec, new, rfl⟩
  obtain ⟨same, gives⟩ := served.gives_back new silent ready held written readable again
  refine ⟨?_, flush_ok fresh served.run held, same, ?_, ?_⟩
  · rw [served.settings_eq new silent ready]
    exact load_of_new new place 0 0 0
  · intro now readDelay writeDelay
    rw [load_of_new again, gives]
  · intro log loaded later reopened calm
    obtain ⟨tally, left⟩ := reopened.untouched again (congrArg Prod.snd gives) calm
    refine ⟨tally, left, fun ready => ?_⟩
    exact (reopened.settings_eq again calm ready).trans (congrArg Prod.fst gives)

def loadedPage (place : Memory) : Timeline Memory :=
  (start (pageStore .json) place).enterLoad.1.turns 2

theorem loadedPage_held (place : Memory) : (loadedPage place).tenant.released = false := rfl

theorem loadedPage_now (place : Memory) : (loadedPage place).now = 0 := rfl

theorem loadedPage_ready (place : Memory) : (loadedPage place).store.phase = .ready := by
  have step : ((start (pageStore .json) place).enterLoad.1.turns 1).tenant.stepLoad? 0 0 place =
      some (loadedPage place).tenant := rfl
  exact Tenant.stepLoad?_ready rfl step

theorem loadedPage_served (place : Memory) :
    ∃ loaded, Served (fun _ _ => False) (start (pageStore .json) place) [] loaded
      (loadedPage place) := by
  have begun : Served (fun _ _ => False) (start (pageStore .json) place) [] none _ := .start
  have entered := begun.step (.call (.load rfl)) Iff.rfl
  have reading : Served (fun _ _ => False) (start (pageStore .json) place) [] none
      ((start (pageStore .json) place).enterLoad.1.turns 1) :=
    entered.step (.turn (ready?_turn rfl rfl)) ⟨nofun, nofun⟩
  exact ⟨_, reading.loaded rfl rfl⟩

omit [Shelf Place] in
theorem Served.left_alone {disturb : Place → Place → Prop} {made later : Timeline Place}
    (served : Served disturb made log loaded later) (held : later.tenant.released = false)
    (hour : Nat) (forward : later.now ≤ hour) :
    ∃ after, Served disturb made log loaded after ∧ after.now = hour ∧
      after.store.phase = later.store.phase :=
  ⟨_, (served.step (.flush held) Iff.rfl).step (.wait _ hour forward) Iff.rfl, rfl, rfl⟩

/-- Loaded from a record that nothing was ever stored in. -/
def legacy : Timeline Memory := loadedPage (Memory.put {} "new-tab-data" [0x7B, 0x7D])

theorem legacy_flush : legacy.flush = (legacy.askFlush.turns 3, .ok ()) := by
  obtain ⟨writer, present, running, asked⟩ : ∃ writer, legacy.store.writer = some writer ∧
      writer.isStopped = false ∧ writer.asked = 0 := ⟨_, rfl, rfl, rfl⟩
  refine flush_eq_turns present running 3 ?_ ?_
  · intro earlier below
    rw [asked]
    match earlier with
    | 0 => rfl
    | 1 => rfl
    | 2 => rfl
  · rw [asked]
    rfl

/-- The second store is loaded, flushed, and left alone for an hour; what the first has written
stays, and nothing more is. -/
theorem legacy_record_settles :
    ∃ later : Timeline Memory, later.now = 3600000 ∧ later.store.tally = {} ∧
      later.place = (legacy.askFlush.turns 3).place ∧
      later.store.settings = legacy.store.settings := by
  obtain ⟨loaded, served⟩ : ∃ loaded, Served (fun _ _ => False) _ [] loaded legacy :=
    loadedPage_served _
  have written : ∀ writer, legacy.flush.1.store.writer = some writer → writer.attempts ≠ [] →
      writer.lastSucceeded = true := by
    rw [legacy_flush]
    rintro writer ⟨⟩
    exact fun _ => rfl
  have readable : ∃ found, Backend.read legacy.flush.1.place "new-tab-data" = .ok found := by
    rw [legacy_flush]
    exact ⟨_, rfl⟩
  obtain ⟨found, readable⟩ := readable
  obtain ⟨-, -, -, -, stable⟩ := reload_is_stable (new_pageStore .json) served nofun
    (loadedPage_ready _) (loadedPage_held _) written readable (new_pageStore .json)
  rw [legacy_flush] at stable
  obtain ⟨again, reopened⟩ := loadedPage_served (legacy.askFlush.turns 3).place
  obtain ⟨later, waited, hour, phase⟩ := reopened.left_alone (loadedPage_held _) 3600000
    ((loadedPage_now _).trans_le (Nat.zero_le _))
  obtain ⟨tally, place, settings⟩ := stable waited nofun
  exact ⟨later, hour, tally, place, settings (phase.trans (loadedPage_ready _))⟩

end Timeline

end StartPage
