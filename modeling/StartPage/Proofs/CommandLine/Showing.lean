import StartPage.Proofs.CommandLine.Jobs
import StartPage.Proofs.Settings.Patching

/-!
Showing what was set. Whatever stood in the file at first, settings that were set are read back as
they were printed, because every list of cards that gets into a file this way was read from a record
or from the command line, and both readers drop repeats.
-/
namespace StartPage

open Migration (Chain)

theorem Settings.apply_distinct {settings : Settings} {record : Record} {patch : Patch}
    (distinct : settings.Distinct) (read : Patch.ofRecord record = .ok patch) :
    (settings.apply patch).Distinct := by
  rw [Patch.ofRecord] at read
  split at read
  · cases read
  · split at read
    · rename_i fields
      obtain rfl := Except.ok.inj read
      have both := Patch.readFields_apply record settings
      rw [fields] at both
      exact readFields_distinct distinct both
    · cases read

namespace CommandLine

section Places

variable {job : Job} {config : Config} {chain : Chain} {host : Host}

theorem Job.session (new : Store.new config chain host = .ok job.store) {Place : Type}
    [Backend Place] (place : Place) :
    (job.loaded place).store.session = { job.store.session with loaded := true } := by
  rw [(Job.wentOn new place).same]
  exact Store.becomeReady_session ..

theorem Job.settings (new : Store.new config chain host = .ok job.store) {Place : Type}
    [Backend Place] (place : Place) :
    (job.loaded place).store.settings =
      (job.store.readBack (Backend.read place job.store.config.key)).1 := by
  have opened := Store.becomeReady_settings job.store
    (job.store.readBack (Backend.read place job.store.config.key)).1
    (job.store.readBack (Backend.read place job.store.config.key)).2
  have empty : job.store.queued = [] := by rw [Store.new_eq new]
  rw [empty] at opened
  exact (Job.wentOn new place).settings.trans opened

theorem Job.update_store (job : Job) {Place : Type} [Backend Place] (place : Place)
    (patch : Patch) :
    ((job.loaded place).update patch).1.store = ((job.loaded place).store.update patch).1 :=
  congrArg (·.host) (LiveStore.update_unheard ((job.solo place).unheard rfl) patch)

theorem Job.update_phase (new : Store.new config chain host = .ok job.store) {Place : Type}
    [Backend Place] (place : Place) (patch : Patch) :
    ((job.loaded place).update patch).1.store.phase = .ready := by
  rw [job.update_store]
  exact (Store.commit_phase _ (.ok patch)).trans (Job.ready new place)

theorem Job.update_answered (new : Store.new config chain host = .ok job.store) {Place : Type}
    [Backend Place] (place : Place) (patch : Patch) :
    ((job.loaded place).update patch).1.flush.2 = .ok () := by
  have solo := (job.solo place).update patch
  have run : Timeline.Run (fun _ _ => False) (Timeline.start job.store place) _ := solo.run rfl
  exact Timeline.flush_ok (Job.fresh new) run (solo.held rfl)

theorem Job.untouched (new : Store.new config chain host = .ok job.store) {Place : Type}
    [Backend Place] [Shelf Place] (place : Place)
    (current : (job.store.readBack (Backend.read place job.store.config.key)).2 = false) :
    (job.loaded place).store.writer.map Writer.history = some [] ∧
      (job.loaded place).place = place := by
  have empty : job.store.queued = [] := by rw [Store.new_eq new]
  have nothing : ¬ job.store.HasNews (Backend.read place job.store.config.key) := by
    rw [Store.hasNews_iff, current, empty]
    exact Bool.false_ne_true
  have given := (Job.wentOn new place).history.trans
    ((job.store.becomeReady_readied (Backend.read place job.store.config.key)).idle nothing).2
  obtain ⟨orderly, rooted, -⟩ := ((job.solo place).run rfl).rooted new
  refine ⟨given, rooted.untouched fun writer present => ?_⟩
  rw [present] at given
  exact (orderly.writer writer present).attempts_eq_nil (Option.some.inj given)

theorem Job.gives_back (new : Store.new config chain host = .ok job.store) {folder : Folder}
    {time : Timeline Folder} (solo : Timeline.Solo (Timeline.start job.store folder) time)
    (ready : time.store.phase = .ready) (distinct : time.store.settings.Distinct)
    (well : time.flush.1.store.tally.failed = 0) :
    job.store.readBack (Backend.read time.flush.1.place job.store.config.key) =
      (time.store.settings, false) := by
  obtain ⟨orderly, rooted, sameConfig, sameChain, codec⟩ := (solo.run rfl).rooted new
  obtain ⟨madeConfig, madeChain, madeCodec⟩ := Store.madeWith_of_new new
  have codecs : time.store.codec = job.store.codec := codec.trans madeCodec.symm
  have chains : time.store.chain = job.store.chain := sameChain.trans madeChain.symm
  rw [← Store.readBack_congr codecs chains, madeConfig, ← sameConfig]
  obtain ⟨none, -, untouched⟩ | ⟨-, -, bytes, encoded, held⟩ := solo.flush_writes new ready well
  · obtain ⟨writer, present, history⟩ := Option.map_eq_some_iff.mp none
    rw [untouched]
    exact rooted.unchanged writer present history
  · have stored : Backend.read time.flush.1.place time.store.config.key = .ok (some bytes) :=
      Folder.read_of_held held
    rw [stored]
    exact Store.readBack_of_restores (Store.restores_encode codec distinct encoded)

end Places

section Setting

variable {Place : Type} [Backend Place] {time : Timeline Place} {assignments : List String}

theorem set_succeeds {record : Record} {patch : Patch}
    (assigned : readAssignments? assignments = .ok record) (typed : Patch.ofRecord record = .ok patch)
    (answered : (time.update patch).1.flush.2 = .ok ())
    (well : (time.update patch).1.flush.1.store.tally.failed = 0) :
    setSettings time assignments =
      ((time.update patch).1.flush.1, showSettings (time.update patch).1.flush.1) := by
  simp only [setSettings, assigned, typed, save_eq answered, well, Nat.lt_irrefl, if_false]

theorem set_cases (answered : ∀ patch, (time.update patch).1.flush.2 = .ok ())
    (succeeded : (setSettings time assignments).2.code = 0) :
    ∃ record patch, readAssignments? assignments = .ok record ∧ Patch.ofRecord record = .ok patch ∧
      (time.update patch).1.flush.1.store.tally.failed = 0 := by
  rw [setSettings] at succeeded
  split at succeeded
  · cases succeeded
  · rename_i record assigned
    split at succeeded
    · cases succeeded
    · rename_i patch typed
      refine ⟨record, patch, assigned, typed, ?_⟩
      dsimp only at succeeded
      rw [save_eq (answered patch)] at succeeded
      by_contra failed
      rw [if_pos (Nat.pos_of_ne_zero failed)] at succeeded
      cases succeeded

end Setting

theorem Job.run_print {job : Job} (command : job.command = .print) {Place : Type} [Backend Place]
    (place : Place) :
    job.run place = ((job.loaded place).place, showSettings (job.loaded place)) := by
  rw [Job.run, command]
  rfl

theorem Job.run_set {job : Job} {assignments : List String}
    (command : job.command = .set assignments) {Place : Type} [Backend Place] (place : Place) :
    job.run place =
      ((setSettings (job.loaded place) assignments).1.place,
        (setSettings (job.loaded place) assignments).2) := by
  rw [Job.run, command]
  rfl

structure Job.Alike (job other : Job) : Prop where
  directory : other.directory = job.directory
  key : other.store.config.key = job.store.config.key
  format : other.store.config.format = job.store.config.format
  session : other.store.session = job.store.session

section Showing

variable {job other : Job} {config later : Config} {chain : Chain} {host guest : Host}

theorem Job.Alike.readBack (alike : job.Alike other)
    (new : Store.new config chain host = .ok job.store)
    (again : Store.new later chain guest = .ok other.store)
    (stored : Except StorageError (Option Bytes)) :
    other.store.readBack stored = job.store.readBack stored := by
  obtain ⟨config, sameChain, codec⟩ := Store.madeWith_of_new new
  obtain ⟨config', sameChain', codec'⟩ := Store.madeWith_of_new again
  have format := alike.format
  rw [config, config'] at format
  exact Store.readBack_congr (codec'.trans (format ▸ codec.symm)) (sameChain'.trans sameChain.symm)
    stored

theorem Job.prints (again : Store.new later chain guest = .ok other.store)
    (showing : other.command = .print) {Place : Type} [Backend Place] [Shelf Place] {place : Place}
    {settings : Settings}
    (gives : other.store.readBack (Backend.read place other.store.config.key) = (settings, false)) :
    other.run place = (place, .success
      (Json.prettyText (Snapshot.mk settings { other.store.session with loaded := true }).document)) := by
  obtain ⟨-, untouched⟩ := Job.untouched again place (congrArg Prod.snd gives)
  have settled := Job.settings again place
  have session := Job.session again place
  rw [gives] at settled
  rw [Job.run_print showing, untouched, showSettings, Store.snapshot, settled, session]

theorem Job.shows_what_was_set {assignments : List String}
    (new : Store.new config chain host = .ok job.store)
    (again : Store.new later chain guest = .ok other.store)
    (setting : job.command = .set assignments) (showing : other.command = .print)
    (alike : job.Alike other) {folder : Folder} (succeeded : (job.run folder).2.code = 0) :
    other.run (job.run folder).1 = job.run folder := by
  have fresh := Job.fresh new
  have solo := job.solo folder
  have ready := Job.ready new folder
  have answered := Job.update_answered new folder
  rw [Job.run_set setting] at succeeded ⊢
  obtain ⟨record, patch, assigned, typed, well⟩ := set_cases answered succeeded
  rw [set_succeeds assigned typed (answered patch) well]
  have phase := Job.update_phase new folder patch
  have session : ((job.loaded folder).update patch).1.store.session =
      { job.store.session with loaded := true } := by
    rw [job.update_store]
    exact (Store.commit_session _ (.ok patch)).trans (Job.session new folder)
  have distinct : ((job.loaded folder).update patch).1.store.settings.Distinct := by
    rw [job.update_store, (Store.update_ready _ patch ready).1, Job.settings new folder]
    exact Settings.apply_distinct (Store.readBack_distinct _ _) typed
  have gives := Job.gives_back new (solo.update patch) phase distinct well
  have wentOn := (solo.update patch).flush_wentOn fresh phase
  rw [← alike.key, ← alike.readBack new again] at gives
  have kept : ((job.loaded folder).update patch).1.flush.1.store.session =
      { other.store.session with loaded := true } := by
    rw [wentOn.same, alike.session]
    exact session
  rw [Job.prints again showing gives, showSettings, Store.snapshot, wentOn.settings, kept]

/-- Settings that were set are shown as they were printed, whatever stood in the file at first, and
showing them leaves every file as it is; so they are shown again and again. -/
theorem set_then_show {environment further : String → Option String}
    {arguments options assignments : List String} {tree : FileTree}
    (planned : plan environment arguments = .job job) (setting : job.command = .set assignments)
    (planned' : plan further options = .job other) (showing : other.command = .print)
    (alike : job.Alike other) (succeeded : (run environment arguments tree).2.code = 0) :
    run further options (run environment arguments tree).1 = run environment arguments tree := by
  obtain ⟨_, _, new⟩ := plan_job planned
  obtain ⟨_, _, again⟩ := plan_job planned'
  have first := run_job planned tree
  have second := run_job planned' (run environment arguments tree).1
  have code : (job.run (⟨job.directory, tree⟩ : Folder)).2.code = 0 := by rwa [← first]
  have shown := Job.shows_what_was_set new again setting showing alike code
  rw [← first] at shown
  rw [alike.directory, shown] at second
  exact Prod.ext (congrArg (fun result => result.1.tree) second)
    (congrArg (fun result => result.2) second)

theorem update_history {store : Store} (none : store.writer.map Writer.history = some [])
    (patch : Patch) :
    ∃ history, (store.update patch).1.writer.map Writer.history = some history ∧
      history.length ≤ 1 := by
  change ∃ history, (store.commit (.ok patch)).1.writer.map Writer.history = some history ∧
    history.length ≤ 1
  rcases store.commit_cases (.ok patch) with same | ⟨_, _, same⟩ | ⟨_, _, same⟩ <;> rw [same]
  · exact ⟨[], none, Nat.zero_le 1⟩
  · exact ⟨[], none, Nat.zero_le 1⟩
  · obtain ⟨writer, present, empty⟩ := Option.map_eq_some_iff.mp none
    simp only [Store.schedule, present, Option.map_some, Option.some.injEq, exists_eq_left']
    unfold Writer.schedule Writer.send
    split <;> simp [empty]

/-- Setting succeeds when the assignments give a patch, the file can be written and what stands there
need not be migrated. -/
theorem run_set_succeeds {environment : String → Option String} {arguments assignments : List String}
    {record : Record} {patch : Patch} {tree : FileTree}
    (planned : plan environment arguments = .job job) (setting : job.command = .set assignments)
    (assigned : readAssignments? assignments = .ok record) (typed : Patch.ofRecord record = .ok patch)
    (writable : ∀ bytes,
      (Folder.write ⟨job.directory, tree⟩ job.store.config.key bytes).2 = .ok ())
    (current : (job.store.readBack (job.file tree)).2 = false) :
    (run environment arguments tree).2.code = 0 := by
  obtain ⟨_, _, new⟩ := plan_job planned
  have fresh := Job.fresh new
  let folder : Folder := ⟨job.directory, tree⟩
  have solo := (job.solo folder).update patch
  obtain ⟨history, given, few⟩ := update_history (Job.untouched new folder current).1 patch
  rw [← job.update_store, ← (solo.flush_wentOn fresh (Job.update_phase new folder patch)).history]
    at given
  have well := (solo.flushes rfl).failed_eq_zero fresh (Job.encodes new) writable given few
  have answered := Job.update_answered new folder patch
  have same := run_job planned tree
  rw [Job.run_set setting, set_succeeds assigned typed answered well] at same
  have outcome := congrArg Prod.snd same
  dsimp only at outcome
  rw [outcome]
  rfl

end Showing

def privateStore : Store :=
  { Timeline.pageStore .json with session := .ofHost { incognito := true } }

def settingJob : Job := ⟨".", privateStore, .set ["showClock=true"]⟩
def showingJob : Job := ⟨".", privateStore, .print⟩

theorem plan_settingJob :
    plan (fun _ => none) ["--incognito", "set", "showClock=true"] = .job settingJob := by
  have understood : read ["--incognito", "set", "showClock=true"] =
      .ok ({ incognito := true }, .set ["showClock=true"]) := by decide +kernel
  rw [plan, understood]
  rfl

theorem plan_showingJob : plan (fun _ => none) ["--incognito", "show"] = .job showingJob := by
  have understood : read ["--incognito", "show"] = .ok ({ incognito := true }, .print) := by
    decide +kernel
  rw [plan, understood]
  rfl

/-- In place of the settings there was an opening brace and nothing else. -/
theorem flag_set_over_damage_is_shown :
    (run (fun _ => none) ["--incognito", "set", "showClock=true"] (treeWith [0x7B])).2.code = 0 ∧
    run (fun _ => none) ["--incognito", "show"]
        (run (fun _ => none) ["--incognito", "set", "showClock=true"] (treeWith [0x7B])).1 =
      run (fun _ => none) ["--incognito", "set", "showClock=true"] (treeWith [0x7B]) := by
  have assigned : readAssignments? ["showClock=true"] =
      .ok (.ofList [("showClock", .boolean true)]) := by decide +kernel
  have accepted : (Patch.ofRecord (.ofList [("showClock", .boolean true)])).isOk = true := by
    decide +kernel
  have stands : Folder.readFile ⟨".", treeWith [0x7B]⟩ "new-tab-data" = .ok [0x7B] := by
    decide +kernel
  have writable := Folder.write_of_readFile stands (by decide +kernel)
  have current : (settingJob.store.readBack (settingJob.file (treeWith [0x7B]))).2 = false := by
    decide +kernel
  have alike : settingJob.Alike showingJob := ⟨rfl, rfl, rfl, rfl⟩
  cases typed : Patch.ofRecord (.ofList [("showClock", .boolean true)]) with
  | error fault =>
    rw [typed] at accepted
    cases accepted
  | ok patch =>
    have succeeded := run_set_succeeds plan_settingJob rfl assigned typed writable current
    exact ⟨succeeded, set_then_show plan_settingJob rfl plan_showingJob rfl alike succeeded⟩

end CommandLine
end StartPage
