import StartPage.Proofs.Store.Life
import StartPage.Storage.Memory

/-!
Updates around a load. The log of a run has every update that was issued, those of listeners
too, in the order of the calls and with what each answered. Loads wait, are cut off and begin
anew anywhere in between; of the one that completes only the settings that it read matter, and
how many updates came before it. The settings are those with every patch of the log applied, and
every answer follows from the patches up to its own.
-/
namespace StartPage

namespace Settings

theorem apply_of_isEmpty (settings : Settings) {patch : Patch} (empty : patch.isEmpty = true) :
    settings.apply patch = settings := by
  simp only [Patch.isEmpty, Bool.and_eq_true, List.all_eq_true, Flag.mem_all, forall_const,
    Option.isNone_iff_eq_none] at empty
  obtain ⟨⟨⟨flags, clock⟩, order⟩, removed⟩ := empty
  simp [apply, flags, clock, order, removed]

theorem applyAll_of_isEmpty (settings : Settings) {patches : List Patch}
    (empty : ∀ patch ∈ patches, patch.isEmpty = true) : settings.applyAll patches = settings := by
  induction patches with
  | nil => rfl
  | cons patch rest ih =>
    have kept := ih fun other member => empty other (List.mem_cons_of_mem _ member)
    rwa [applyAll, List.foldl_cons, apply_of_isEmpty settings (empty patch List.mem_cons_self)]

theorem applyAll_concat (settings : Settings) (patches : List Patch) (patch : Patch) :
    settings.applyAll (patches ++ [patch]) = (settings.applyAll patches).apply patch := by
  simp [applyAll]

end Settings

/-- A load that completed: how many updates had been issued, and the settings it read. -/
structure Loaded where
  position : Nat
  base : Settings

/-- What the update at a place of the log counts from. -/
def baseAt : Option Loaded → Nat → Settings
  | some loaded, index => if loaded.position ≤ index then loaded.base else .default
  | none, _ => .default

namespace Store

theorem update_unready (store : Store) (patch : Patch) (unready : store.phase ≠ .ready) :
    (store.update patch).1.settings = store.settings ∧
      (store.update patch).2.2 = (store.settings.applyAll store.queued).apply patch ∧
      ∀ base : Settings, base.applyAll (store.update patch).1.queued =
        (base.applyAll store.queued).apply patch := by
  cases empty : patch.isEmpty with
  | true =>
    rw [update_of_empty store empty, view, if_neg unready]
    exact ⟨rfl, (Settings.apply_of_isEmpty _ empty).symm,
      fun base => (Settings.apply_of_isEmpty _ empty).symm⟩
  | false =>
    rw [update_of_unready empty unready]
    exact ⟨rfl, Settings.applyAll_concat .., fun base => Settings.applyAll_concat ..⟩

theorem update_ready (store : Store) (patch : Patch) (ready : store.phase = .ready) :
    (store.update patch).1.settings = store.settings.apply patch ∧
      (store.update patch).2.2 = store.settings.apply patch := by
  cases empty : patch.isEmpty with
  | true =>
    rw [update_of_empty store empty, view, if_pos ready, Settings.apply_of_isEmpty _ empty]
    exact ⟨rfl, rfl⟩
  | false =>
    rw [update_of_ready empty ready]
    exact ⟨rfl, rfl⟩

/-- A log and a load account for the settings of a store and for every answer it gave. -/
structure Accounted (log : List (Patch × Settings)) (loaded : Option Loaded) (store : Store) :
    Prop where
  answers : ∀ index patch answer, log[index]? = some (patch, answer) →
    answer = (baseAt loaded index).applyAll ((log.map (·.1)).take (index + 1))
  unready : store.phase ≠ .ready → loaded = none ∧ store.settings = .default ∧
    ∀ base : Settings, base.applyAll store.queued = base.applyAll (log.map (·.1))
  ready : store.phase = .ready → ∃ found, loaded = some found ∧ found.position ≤ log.length ∧
    store.settings = found.base.applyAll (log.map (·.1))

variable {log : List (Patch × Settings)} {loaded : Option Loaded} {store : Store}

theorem Accounted.settings_eq {found : Loaded} (accounted : store.Accounted log (some found)) :
    store.settings = found.base.applyAll (log.map (·.1)) := by
  by_cases ready : store.phase = .ready
  · obtain ⟨other, same, _, settings⟩ := accounted.ready ready
    cases same
    exact settings
  · cases (accounted.unready ready).1

theorem answers_concat
    (answers : ∀ index patch answer, log[index]? = some (patch, answer) →
      answer = (baseAt loaded index).applyAll ((log.map (·.1)).take (index + 1)))
    {patch : Patch} {answer : Settings}
    (last : answer = (baseAt loaded log.length).applyAll (log.map (·.1) ++ [patch]))
    (index : Nat) (asked : Patch) (given : Settings)
    (found : (log ++ [(patch, answer)])[index]? = some (asked, given)) :
    given = (baseAt loaded index).applyAll
      (((log ++ [(patch, answer)]).map (·.1)).take (index + 1)) := by
  -- Answers before the last see the same part of the log as before.
  by_cases below : index < log.length
  · rw [List.getElem?_append_left below] at found
    rw [List.map_append, List.take_append_of_le_length (by rw [List.length_map]; exact below)]
    exact answers index asked given found
  · have bound := (List.getElem?_eq_some_iff.mp found).1
    rw [List.length_append, List.length_singleton] at bound
    have same : index = log.length := by omega
    subst same
    rw [List.getElem?_concat_length] at found
    cases found
    rw [List.take_of_length_le (by simp), List.map_append]
    exact last

theorem update_accounted (accounted : store.Accounted log loaded) (patch : Patch) :
    (store.update patch).1.Accounted (log ++ [(patch, (store.update patch).2.2)]) loaded := by
  have phase : (store.update patch).1.phase = store.phase := commit_phase store (.ok patch)
  by_cases ready : store.phase = .ready
  · obtain ⟨found, rfl, within, settings⟩ := accounted.ready ready
    obtain ⟨after, answer⟩ := store.update_ready patch ready
    refine ⟨answers_concat accounted.answers ?_, fun unready => absurd (phase.trans ready) unready,
      fun _ => ⟨found, rfl, ?_, ?_⟩⟩
    · rw [answer, settings, baseAt, if_pos within, Settings.applyAll_concat]
    · rw [List.length_append]
      exact Nat.le_add_right_of_le within
    · rw [after, settings, List.map_append]
      exact (Settings.applyAll_concat ..).symm
  · obtain ⟨rfl, settings, queued⟩ := accounted.unready ready
    obtain ⟨after, answer, requeued⟩ := store.update_unready patch ready
    refine ⟨answers_concat accounted.answers ?_, fun _ => ⟨rfl, after.trans settings, fun base => ?_⟩,
      fun now => absurd (phase.symm.trans now) ready⟩
    · rw [answer, settings, baseAt, queued, Settings.applyAll_concat]
    · rw [requeued, queued, List.map_append]
      exact (Settings.applyAll_concat ..).symm

theorem commits_accounted {after : Store}
    {calls : List (Except Error Patch × Except Error Settings)}
    (commits : Audience.Commits Store.commit store calls after)
    (accounted : store.Accounted log loaded) : after.Accounted (log ++ issued calls) loaded := by
  induction commits generalizing log with
  | done store => simpa [issued] using accounted
  | next request _ ih =>
    cases request with
    | error fault => exact ih accounted
    | ok patch =>
      have updated := ih (update_accounted accounted patch)
      rw [List.append_assoc] at updated
      exact updated

theorem becomeReady_accounted (accounted : store.Accounted log loaded)
    (unready : store.phase ≠ .ready) (base : Settings) (migrated : Bool) :
    (store.becomeReady base migrated).Accounted log (some ⟨log.length, base⟩) := by
  obtain ⟨rfl, _, queued⟩ := accounted.unready unready
  have settings := becomeReady_settings store base migrated
  refine ⟨?_, fun unready => absurd (becomeReady_phase store base migrated) unready,
    fun _ => ⟨_, rfl, Nat.le_refl _, settings.trans (queued base)⟩⟩
  -- What was answered so far was answered over the defaults.
  intro index patch answer found
  have below := (List.getElem?_eq_some_iff.mp found).1
  rw [baseAt, if_neg (Nat.not_le_of_lt below)]
  exact accounted.answers index patch answer found

end Store

namespace Tenant

variable {Place : Type} [Backend Place]

/-- A read that ended made the store ready; any other turn of the gate leaves the settings, the
queue and the readiness alone. -/
theorem stepLoad?_cases {tenant after : Tenant} {now delay : Nat} {place : Place}
    (step : tenant.stepLoad? now delay place = some after) :
    (tenant.loads.reading.isSome = true ∧
      after.live = (tenant.live.becomeReady (Backend.read place tenant.store.config.key)).1) ∨
    (tenant.loads.reading = none ∧ after.store.settings = tenant.store.settings ∧
      after.store.queued = tenant.store.queued ∧
      (after.store.phase = .ready ↔ tenant.store.phase = .ready)) := by
  cases Tenant.stepLoad?_gate step with
  | finish reading =>
    rw [reading]
    exact .inl ⟨rfl, rfl⟩
  | pass reading => exact .inr ⟨reading, rfl, rfl, Iff.rfl⟩
  | begin reading _ unready =>
    exact .inr ⟨reading, rfl, rfl, (fun ready => nomatch ready), fun ready => absurd ready unready⟩

theorem stepLoad?_ready {tenant after : Tenant} {now delay : Nat} {place : Place}
    (reading : tenant.loads.reading.isSome = true)
    (step : tenant.stepLoad? now delay place = some after) : after.store.phase = .ready := by
  rcases stepLoad?_cases step with ⟨_, live⟩ | ⟨none, _⟩
  · rw [store, live]
    exact (LiveStore.becomeReady_opened _ _).1
  · rw [none] at reading
    cases reading

end Tenant

namespace Timeline

variable {Place : Type} [Backend Place] {disturb : Place → Place → Prop}

def readNow (time : Timeline Place) : Except StorageError (Option Bytes) :=
  Backend.read time.place time.store.config.key

/-- Runs with the log of their updates and the load that completed. Of all steps only the end
of a read makes a store ready. -/
inductive Served (disturb : Place → Place → Prop) (start : Timeline Place) :
    List (Patch × Settings) → Option Loaded → Timeline Place → Prop where
  | start : Served disturb start [] none start
  | step {log : List (Patch × Settings)} {loaded : Option Loaded} {time after : Timeline Place}
      (served : Served disturb start log loaded time) (step : Step disturb time after)
      (same : after.store.phase = .ready ↔ time.store.phase = .ready) :
      Served disturb start log loaded after
  | loaded {log : List (Patch × Settings)} {earlier : Option Loaded} {time : Timeline Place}
      {tenant : Tenant} (served : Served disturb start log earlier time)
      (reading : time.tenant.loads.reading.isSome = true)
      (step : time.tenant.stepLoad? time.now time.readDelay time.place = some tenant) :
      Served disturb start (log ++ issued (time.tenant.live.readyCalls time.readNow))
        (some ⟨log.length, (time.store.readBack time.readNow).1⟩) { time with tenant }
  | update {log : List (Patch × Settings)} {loaded : Option Loaded} {time : Timeline Place}
      (served : Served disturb start log loaded time) (held : time.tenant.released = false)
      (patch : Patch) :
      Served disturb start (log ++ issued (time.tenant.live.calls patch)) loaded
        (time.update patch).1

theorem Served.run {start time : Timeline Place} {log : List (Patch × Settings)}
    {loaded : Option Loaded} (served : Served disturb start log loaded time) :
    Run disturb start time := by
  induction served with
  | start => exact .start
  | step _ step _ ih => exact ih.step step
  | loaded _ _ step ih => exact ih.step (.turn (.gate step))
  | update _ held patch ih => exact ih.update held patch

theorem step_frame {time after : Timeline Place} (step : Step disturb time after) :
    (after.store.settings = time.store.settings ∧ after.store.queued = time.store.queued ∧
      (after.store.phase = .ready ↔ time.store.phase = .ready)) ∨
    (time.tenant.loads.reading.isSome = true ∧ ∃ tenant, after = { time with tenant } ∧
      time.tenant.stepLoad? time.now time.readDelay time.place = some tenant) := by
  cases step with
  | turn turn =>
    cases turn with
    | writer | close => exact .inl ⟨rfl, rfl, Iff.rfl⟩
    | gate step =>
      rcases Tenant.stepLoad?_cases step with ⟨reading, _⟩ | ⟨_, same⟩
      · exact .inr ⟨reading, _, rfl, step⟩
      · exact .inl same
  | call call => cases call <;> exact .inl ⟨rfl, rfl, Iff.rfl⟩
  | flush | release | wait | pace | refuse | disturb => exact .inl ⟨rfl, rfl, Iff.rfl⟩

theorem Served.accounted {store : Store} {place : Place} {time : Timeline Place}
    {log : List (Patch × Settings)} {loaded : Option Loaded} (fresh : store.Fresh)
    (served : Served disturb (Timeline.start store place) log loaded time) :
    time.store.Accounted log loaded := by
  induction served with
  | start =>
    obtain ⟨config, chain, host, made, codec, new, rfl⟩ := fresh
    rw [Store.new_eq new]
    exact ⟨nofun, fun _ => ⟨rfl, rfl, fun _ => rfl⟩, fun ready => nomatch ready⟩
  | @step log loaded time after served step same ih =>
    have tidy := (served.run.life fresh.writer).2
    rcases step_frame step with ⟨settings, queued, _⟩ | ⟨reading, tenant, rfl, ended⟩
    · exact ⟨ih.answers, by rw [ne_eq, same, settings, queued]; exact ih.unready,
        by rw [same, settings]; exact ih.ready⟩
    · -- The end of a read would have made the store ready, which this step did not.
      exact absurd (same.mp (Tenant.stepLoad?_ready reading ended)) (tidy.reading reading)
  | @loaded log earlier time tenant served reading step ih =>
    have unready := (served.run.life fresh.writer).2.reading reading
    have ready := Store.becomeReady_accounted ih unready (time.store.readBack time.readNow).1
      (time.store.readBack time.readNow).2
    have done := Store.commits_accounted
      (time.tenant.live.becomeReady_commits time.readNow) ready
    rcases Tenant.stepLoad?_cases step with ⟨_, live⟩ | ⟨none, _⟩
    · change Store.Accounted _ _ tenant.live.host
      rw [live]
      exact done
    · rw [none] at reading
      cases reading
  | @update log loaded time served held patch ih =>
    exact Store.commits_accounted (time.tenant.live.update_commits patch) ih

/-- Every run has a log of its updates. -/
theorem Run.served {start time : Timeline Place} (run : Run disturb start time) :
    ∃ log loaded, Served disturb start log loaded time := by
  induction run with
  | start => exact ⟨_, _, .start⟩
  | step _ step ih =>
    obtain ⟨log, loaded, served⟩ := ih
    rcases step_frame step with ⟨_, _, same⟩ | ⟨reading, tenant, rfl, ended⟩
    · exact ⟨_, _, served.step step same⟩
    · exact ⟨_, _, served.loaded reading ended⟩
  | update _ held patch ih =>
    obtain ⟨log, loaded, served⟩ := ih
    exact ⟨_, _, served.update held patch⟩

/-- Before a store is ready its settings are the defaults; afterwards they are what was loaded
with every patch of the log applied in order. Each answer has the patches up to its own applied
to the defaults, or to what was loaded when the store was ready. So of two runs that loaded the
same settings and issued the same patches the settings are the same. -/
theorem updates_survive_loading {store : Store} {place : Place} {time : Timeline Place}
    {log : List (Patch × Settings)} {loaded : Option Loaded} (fresh : store.Fresh)
    (served : Served disturb (Timeline.start store place) log loaded time) :
    (∀ index patch answer, log[index]? = some (patch, answer) →
      answer = (baseAt loaded index).applyAll ((log.map (·.1)).take (index + 1))) ∧
    (time.store.phase ≠ .ready → loaded = none ∧ time.store.settings = .default) ∧
    (time.store.phase = .ready → ∃ found, loaded = some found ∧
      time.store.settings = found.base.applyAll (log.map (·.1)) ∧
      ∀ {otherStore : Store} {otherPlace : Place} {other : Timeline Place}
        {otherLog : List (Patch × Settings)} {position : Nat}, otherStore.Fresh →
        Served disturb (Timeline.start otherStore otherPlace) otherLog
          (some ⟨position, found.base⟩) other →
        otherLog.map (·.1) = log.map (·.1) → other.store.settings = time.store.settings) := by
  have accounted := served.accounted fresh
  refine ⟨accounted.answers, ?_, ?_⟩
  · intro unready
    obtain ⟨none, settings, _⟩ := accounted.unready unready
    exact ⟨none, settings⟩
  · intro ready
    obtain ⟨found, rfl, _, settings⟩ := accounted.ready ready
    refine ⟨found, rfl, settings, ?_⟩
    intro _ _ _ _ _ otherFresh otherServed same
    rw [(otherServed.accounted otherFresh).settings_eq, settings, same]

/-- A store whose codec reads one clock format out of any bytes. -/
def clockStore : Store :=
  Store.plain.withCodec
    ⟨fun _ => none, fun _ => .ok (Record.empty.insert "clockFormat" (.string "12"))⟩

/-- A first load is cut off while it reads, a second completes; one update comes before, one
between and one after. -/
theorem retried_load_keeps_updates :
    ∃ log base time,
      Served (fun _ _ => False) (Timeline.start clockStore (Memory.put {} "new-tab-data" [])) log
        (some ⟨2, base⟩) time ∧
      base.clockFormat = .twelveHour ∧
      log.map (·.1) = [Patch.empty.showWidget .gemini true, Patch.empty.setStackOrder [],
        Patch.empty.setRemoved [.gemini]] ∧
      time.store.settings = base.applyAll (log.map (·.1)) := by
  have fresh : clockStore.Fresh := ⟨{}, .empty 0, {}, Store.plain, _, rfl, rfl⟩
  have begun : Served (fun _ _ => False)
      (Timeline.start clockStore (Memory.put {} "new-tab-data" [])) [] none _ :=
    (Served.start.step (.call (.load rfl)) Iff.rfl).step (.turn (.gate rfl)) ⟨nofun, nofun⟩
  have updated := begun.update rfl (Patch.empty.showWidget .gemini true)
  have cut := updated.step (.call (.cancel _ 0)) Iff.rfl
  have again := (cut.step (.call (.load rfl)) Iff.rfl).step (.turn (.gate rfl)) Iff.rfl
  have ready := (again.update rfl (Patch.empty.setStackOrder [])).loaded rfl rfl
  have last := ready.update rfl (Patch.empty.setRemoved [.gemini])
  obtain ⟨found, same, settings, _⟩ := (updates_survive_loading fresh last).2.2 rfl
  cases same
  exact ⟨_, _, _, last, rfl, rfl, settings⟩

end Timeline
end StartPage
