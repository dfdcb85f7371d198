import StartPage.Proofs.CommandLine.Jobs

/-!
What the command to migrate says. A record that is older than the chain is rewritten, and the file
then gives the same settings at the version of the chain. Whatever else stands in the file is left
alone and called up to date, also bytes that no settings can be read from.
-/
namespace StartPage

open Migration (Chain)

namespace Migration.Chain

variable {chain : Chain}

theorem current_mem (stepped : chain.steps ≠ []) :
    chain.current ∈ chain.steps.map Step.version := by
  have some : chain.steps.map Step.version ≠ [] := by simpa using stepped
  rw [current, List.getLast_cons some]
  exact List.getLast_mem some

theorem applied_eq_nil_iff {record : Record} {outcome : Outcome} (stepped : chain.steps ≠ [])
    (ran : chain.run record = .ok outcome) :
    outcome.applied = [] ↔ chain.current ≤ outcome.dated := by
  constructor
  · intro none
    obtain ⟨dated, _, _, _, _, _, rfl⟩ := run_eq_ok_iff.mp ran
    obtain ⟨step, member, same⟩ := List.mem_map.mp (current_mem stepped)
    by_contra older
    have newer : step ∈ chain.newer dated := by
      refine List.mem_filter.mpr ⟨member, decide_eq_true ?_⟩
      rw [same]
      exact UInt32.not_le.mp older
    rw [List.map_eq_nil_iff.mp none] at newer
    cases newer
  · exact applied_of_current ran

end Migration.Chain

namespace Store

variable {store : Store} {stored : Except StorageError (Option Bytes)}

theorem restores_iff {bytes : Bytes} {record : Record} {outcome : Migration.Outcome}
    (decoded : store.codec.decode bytes = .ok record) :
    store.Restores (.ok (some bytes)) outcome ↔ store.chain.run record = .ok outcome := by
  constructor
  · rintro ⟨_, _, same, opened, ran⟩
    cases same
    rw [decoded] at opened
    cases opened
    exact ran
  · exact fun ran => ⟨_, _, rfl, decoded, ran⟩

end Store

namespace CommandLine

variable {Place : Type} [Backend Place]

theorem migrate_eq {time : Timeline Place} (answered : time.flush.2 = .ok ())
    (well : time.flush.1.store.tally.failed = 0) :
    migrate time =
      (time.flush.1, .success
        ((if 0 < time.flush.1.store.tally.completed then "Rewrote settings at version "
          else "Settings already at version ") ++ toString time.store.chain.current.toNat)) := by
  rw [migrate, save_eq answered, well]
  simp only [Nat.lt_irrefl, if_false]
  split <;> rfl

theorem Job.run_migrate {job : Job} (command : job.command = .migrate) (place : Place) :
    job.run place = ((migrate (job.loaded place)).1.place, (migrate (job.loaded place)).2) := by
  rw [Job.run, command]
  rfl

theorem Job.migrate_cases {job : Job} {config : Config} {chain : Chain} {host : Host}
    {folder : Folder} (new : Store.new config chain host = .ok job.store)
    (command : job.command = .migrate)
    (writable : ∀ bytes, (folder.write job.store.config.key bytes).2 = .ok ()) :
    (∃ outcome, job.store.Restores (folder.read job.store.config.key) outcome ∧
      outcome.applied ≠ [] ∧
      (job.run folder).2 =
        .success ("Rewrote settings at version " ++ toString chain.current.toNat) ∧
      job.store.Restores ((job.run folder).1.read job.store.config.key)
        ⟨outcome.settings, chain.current, chain.current, []⟩) ∨
    ((∀ outcome, job.store.Restores (folder.read job.store.config.key) outcome →
      outcome.applied = []) ∧
      job.run folder = (folder, .success
        ("Settings already at version " ++ toString chain.current.toNat))) := by
  have fresh := Job.fresh new
  have solo := job.solo folder
  have wentOn := Job.wentOn new folder
  have ready := Job.ready new folder
  have readied := job.store.becomeReady_readied (folder.read job.store.config.key)
  have empty : job.store.queued = [] := by rw [Store.new_eq new]
  have answered := Timeline.flush_ok fresh (solo.run rfl : Timeline.Run (fun _ _ => False) _ _)
    (solo.held rfl)
  have flushed := solo.flush_wentOn fresh ready
  obtain ⟨sameConfig, sameChain, -⟩ := Job.madeWith new folder
  have chains : job.store.chain = chain := by rw [Store.new_eq new]
  rw [Job.run_migrate command]
  by_cases news : job.store.HasNews (folder.read job.store.config.key)
  · obtain ⟨outcome, restores, applied⟩ := news.resolve_left (absurd empty)
    have given := wentOn.history.trans (readied.written news).2
    have well := (solo.flushes rfl).failed_eq_zero fresh (Job.encodes new) writable
      (flushed.history.trans given) (Nat.le_refl 1)
    obtain ⟨none, -⟩ | ⟨-, wrote, bytes, encoded, held⟩ := solo.flush_writes new ready well
    · cases given.symm.trans none
    · have settings : (job.loaded folder).store.settings = outcome.settings := by
        rw [wentOn.settings]
        exact (readied.restored outcome restores).trans (by rw [empty]; rfl)
      rw [Job.encode_eq new, settings] at encoded
      rw [sameConfig] at held
      have codec : job.store.codec = config.format.codec := by rw [Store.new_eq new]
      obtain ⟨_, _, _, _, ran⟩ := id restores
      refine .inl ⟨outcome, restores, applied, ?_, ?_⟩
      · rw [migrate_eq answered well, if_pos wrote, sameChain, chains]
      · rw [migrate_eq answered well, Folder.read_of_held held, ← chains]
        exact Store.restores_encode codec (Chain.distinct_of_run ran) encoded
  · have given := wentOn.history.trans (readied.idle news).2
    have well := (solo.flushes rfl).failed_eq_zero fresh (Job.encodes new) writable
      (flushed.history.trans given) (Nat.zero_le 1)
    obtain ⟨-, unwritten, untouched⟩ | ⟨some, -⟩ := solo.flush_writes new ready well
    · refine .inr ⟨fun outcome restores => ?_, ?_⟩
      · by_contra applied
        exact news (.inr ⟨outcome, restores, applied⟩)
      · rw [migrate_eq answered well, unwritten, untouched, sameChain, chains]
        rfl
    · exact absurd given some

theorem run_migrate_cases {environment : String → Option String} {arguments : List String}
    {job : Job} {tree : FileTree} (planned : plan environment arguments = .job job)
    (command : job.command = .migrate)
    (writable : ∀ bytes,
      (Folder.write ⟨job.directory, tree⟩ job.store.config.key bytes).2 = .ok ()) :
    (∃ outcome, job.store.Restores (job.file tree) outcome ∧ outcome.applied ≠ [] ∧
      (run environment arguments tree).2 = .success "Rewrote settings at version 5" ∧
      job.store.Restores (job.file (run environment arguments tree).1)
        ⟨outcome.settings, 5, 5, []⟩) ∨
    ((∀ outcome, job.store.Restores (job.file tree) outcome → outcome.applied = []) ∧
      run environment arguments tree = (tree, .success "Settings already at version 5")) := by
  obtain ⟨config, host, new⟩ := plan_job planned
  have same := run_job planned tree
  rcases Job.migrate_cases new command writable with
    ⟨outcome, restores, newer, said, rewritten⟩ | ⟨current, left⟩
  · rw [← same] at said rewritten
    exact .inl ⟨outcome, restores, newer, said, rewritten⟩
  · rw [left] at same
    obtain ⟨folder, said⟩ := Prod.mk.inj same
    exact .inr ⟨current, Prod.ext (congrArg Folder.tree folder) said⟩

/-- Migrating succeeds when the file can be written. It says that the settings were rewritten when
the file held a record older than the chain, and the file then gives the same settings at the
version of the chain. Otherwise it says that they are up to date, and leaves the file alone. That is
true of a file that is not there and of a record that the chain accepts, and of nothing else. -/
theorem migrate_true_of_readable_settings {environment : String → Option String}
    {arguments : List String} {job : Job} {tree : FileTree}
    (planned : plan environment arguments = .job job) (command : job.command = .migrate)
    (writable : ∀ bytes,
      (Folder.write ⟨job.directory, tree⟩ job.store.config.key bytes).2 = .ok ()) :
    ((∃ outcome, job.store.Restores (job.file tree) outcome ∧ outcome.dated < 5 ∧
        (run environment arguments tree).2 = .success "Rewrote settings at version 5" ∧
        job.store.Restores (job.file (run environment arguments tree).1)
          ⟨outcome.settings, 5, 5, []⟩) ∨
      ((∀ outcome, job.store.Restores (job.file tree) outcome → 5 ≤ outcome.dated) ∧
        run environment arguments tree = (tree, .success "Settings already at version 5"))) ∧
    (job.file (run environment arguments tree).1 = .ok none ∨
        (∃ last, job.store.Restores (job.file (run environment arguments tree).1) last ∧
          5 ≤ last.dated) ↔
      job.file tree = .ok none ∨ ∃ outcome, job.store.Restores (job.file tree) outcome) := by
  obtain ⟨config, host, new⟩ := plan_job planned
  have chain : job.store.chain = Migration.widgetStack := by rw [Store.new_eq new]
  have applied {outcome : Migration.Outcome} {stored : Except StorageError (Option Bytes)}
      (restores : job.store.Restores stored outcome) : outcome.applied = [] ↔ 5 ≤ outcome.dated := by
    obtain ⟨_, _, _, _, ran⟩ := restores
    rw [chain] at ran
    exact Chain.applied_eq_nil_iff (List.cons_ne_nil _ _) ran
  rcases run_migrate_cases planned command writable with
    ⟨outcome, restores, newer, said, rewritten⟩ | ⟨current, left⟩
  · have older : outcome.dated < 5 :=
      UInt32.not_le.mp fun upToDate => newer ((applied restores).mpr upToDate)
    refine ⟨.inl ⟨outcome, restores, older, said, rewritten⟩, ?_⟩
    exact iff_of_true (.inr ⟨_, rewritten, UInt32.le_refl 5⟩) (.inr ⟨outcome, restores⟩)
  · have upToDate : ∀ outcome, job.store.Restores (job.file tree) outcome → 5 ≤ outcome.dated :=
      fun outcome restores => (applied restores).mp (current outcome restores)
    refine ⟨.inr ⟨upToDate, left⟩, ?_⟩
    rw [left]
    refine or_congr Iff.rfl ⟨?_, ?_⟩
    · rintro ⟨outcome, restores, -⟩
      exact ⟨outcome, restores⟩
    · rintro ⟨outcome, restores⟩
      exact ⟨outcome, restores, upToDate outcome restores⟩

def migrateJob : Job := ⟨".", Timeline.pageStore .json, .migrate⟩

theorem plan_migrateJob : plan (fun _ => none) ["migrate"] = .job migrateJob := rfl

def bare : Bytes := Text.bytes "\x7b\x7d"
def misshapen : Bytes := Text.bytes "\x7b\"schemaVersion\": 1, \"showClock\": \"yes\"\x7d"

theorem bare_settings_rewritten :
    plan (fun _ => none) ["migrate"] = .job migrateJob ∧
    (∀ bytes, (Folder.write ⟨".", treeWith bare⟩ "new-tab-data" bytes).2 = .ok ()) ∧
    ∃ outcome, migrateJob.store.Restores (migrateJob.file (treeWith bare)) outcome ∧
      outcome.dated = 1 ∧
      (run (fun _ => none) ["migrate"] (treeWith bare)).2 =
        .success "Rewrote settings at version 5" ∧
      migrateJob.store.Restores
        (migrateJob.file (run (fun _ => none) ["migrate"] (treeWith bare)).1)
        ⟨outcome.settings, 5, 5, []⟩ := by
  have stands : Folder.readFile ⟨".", treeWith bare⟩ "new-tab-data" = .ok bare := by
    decide +kernel
  have writable := Folder.write_of_readFile stands (by decide +kernel)
  have found : migrateJob.file (treeWith bare) = .ok (some bare) := by decide +kernel
  have decoded : migrateJob.store.codec.decode bare = .ok .empty := by decide +kernel
  have dated : (migrateJob.store.chain.run .empty).map (·.dated) = .ok 1 := by decide +kernel
  refine ⟨plan_migrateJob, writable, ?_⟩
  have migrated := (migrate_true_of_readable_settings plan_migrateJob rfl writable).1
  cases ran : migrateJob.store.chain.run .empty with
  | error fault =>
    rw [ran] at dated
    cases dated
  | ok outcome =>
    rw [ran] at dated
    have first : outcome.dated = 1 := Except.ok.inj dated
    have given (other : Migration.Outcome) :
        migrateJob.store.Restores (migrateJob.file (treeWith bare)) other ↔ other = outcome := by
      rw [found, Store.restores_iff decoded, ran, Except.ok.injEq, eq_comm]
    simp only [given] at migrated ⊢
    rcases migrated with ⟨_, rfl, -, said, rewritten⟩ | ⟨current, -⟩
    · exact ⟨_, rfl, first, said, rewritten⟩
    · exact absurd (first ▸ current outcome rfl) (by decide)

/-- Settings of which the chain accepts nothing are called up to date, and stay. -/
theorem rejected_settings_called_current :
    plan (fun _ => none) ["migrate"] = .job migrateJob ∧
    (∀ bytes, (Folder.write ⟨".", treeWith misshapen⟩ "new-tab-data" bytes).2 = .ok ()) ∧
    run (fun _ => none) ["migrate"] (treeWith misshapen) =
      (treeWith misshapen, .success "Settings already at version 5") ∧
    migrateJob.file (treeWith misshapen) = .ok (some misshapen) ∧
    ∃ record fault, migrateJob.store.codec.decode misshapen = .ok record ∧
      migrateJob.store.chain.run record = .error fault := by
  have stands : Folder.readFile ⟨".", treeWith misshapen⟩ "new-tab-data" = .ok misshapen := by
    decide +kernel
  have writable := Folder.write_of_readFile stands (by decide +kernel)
  have found : migrateJob.file (treeWith misshapen) = .ok (some misshapen) := by decide +kernel
  let record : Record := .ofList [("schemaVersion", .ofNat 1), ("showClock", .string "yes")]
  have decoded : migrateJob.store.codec.decode misshapen = .ok record := by decide +kernel
  have refused : migrateJob.store.chain.run record = .error ⟨"showClock", "a boolean", .string⟩ := by
    decide +kernel
  refine ⟨plan_migrateJob, writable, ?_, found, record, _, decoded, refused⟩
  rcases run_migrate_cases plan_migrateJob rfl writable with ⟨outcome, restores, -⟩ | ⟨-, left⟩
  · rw [found, Store.restores_iff decoded, refused] at restores
    cases restores
  · exact left

end CommandLine
end StartPage
