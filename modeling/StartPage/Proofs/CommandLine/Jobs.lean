import StartPage.CommandLine
import StartPage.Proofs.Storage.Answers
import StartPage.Proofs.Store.Solo

/-!
Jobs on a folder. A job has a new store of the page, which nobody else knows of, so what is known
of a store that has its place to itself holds of every job.
-/
namespace StartPage

open Migration (Chain)

namespace Folder

variable {folder : Folder} {key : String} {bytes : Bytes}

theorem read_of_held (held : Shelf.held folder key = some bytes) :
    folder.read key = .ok (some bytes) := by
  have stands : folder.readFile key = .ok bytes := by
    change (folder.readFile key).toOption = some bytes at held
    cases found : folder.readFile key with
    | error fault =>
      rw [found] at held
      cases held
    | ok content =>
      rw [found] at held
      exact congrArg Except.ok (Option.some.inj held)
  rw [read, stands]

theorem write_name (folder : Folder) (key : String) (bytes : Bytes) :
    (folder.write key bytes).1.name = folder.name := by
  have made : folder.makeDirectory.1.name = folder.name := by
    unfold makeDirectory
    split <;> rfl
  unfold write
  dsimp only
  split
  · rename_i same
    rwa [same] at made
  · rename_i same
    rw [same] at made
    split
    · exact made
    · rename_i replaced put
      unfold replaceFile at put
      obtain ⟨_, -, put⟩ := bind_ok put
      obtain ⟨_, -, put⟩ := bind_ok put
      obtain ⟨_, -, put⟩ := bind_ok put
      rw [← Except.ok.inj put]
      exact made

/-- A file that can be read can be replaced, when there is room for the path of a draft. -/
theorem write_of_readFile (read : folder.readFile key = .ok bytes)
    (room : (Route.read (folder.tree.fromRoot (draftPath folder.name))).isOk = true)
    (other : Bytes) : (folder.write key other).2 = .ok () := by
  rw [readFile] at read
  obtain ⟨directory, located, read⟩ := bind_ok read
  have put : ∃ after, folder.replaceFile key other = .ok after := by
    rw [FileTree.readFile] at read
    obtain ⟨found, stands, read⟩ := bind_ok read
    cases drafted : Route.read (folder.tree.fromRoot (draftPath folder.name)) with
    | error fault =>
      rw [drafted] at room
      cases room
    | ok route =>
      cases found with
      | none => cases read
      | some node =>
        cases node with
        | directory => cases read
        | file content =>
          rw [replaceFile, drafted, located]
          simp only [bind, Except.bind, FileTree.replaceFile, stands]
          exact ⟨_, rfl⟩
  obtain ⟨after, put⟩ := put
  rw [write, makeDirectory_of_locate located]
  simp only [put]

end Folder

namespace Store

variable {store : Store}

theorem restores_encode {format : Format} {settings : Settings} {bytes : Bytes}
    (codec : store.codec = format.codec) (distinct : settings.Distinct)
    (encoded : store.encode settings = some bytes) :
    store.Restores (.ok (some bytes)) ⟨settings, store.chain.current, store.chain.current, []⟩ := by
  have order := Settings.length_le_of_nodup distinct.1
  have removed := Settings.length_le_of_nodup distinct.2
  have short : format = .messagePack →
      settings.stackOrder.length < 2 ^ 32 ∧ settings.removed.length < 2 ^ 32 :=
    fun _ => ⟨by omega, by omega⟩
  obtain ⟨written, stamped, decoded⟩ := Chain.decode_encode_stamp store.chain short
  rw [encode, codec, stamped] at encoded
  obtain rfl := Option.some.inj encoded
  have settled := store.chain.settles_stamp settings
  rw [Settings.withoutRepeats_of_distinct distinct] at settled
  exact ⟨_, _, rfl, codec ▸ decoded, settled⟩

end Store

namespace CommandLine

section Saving

variable {Place : Type} [Backend Place] {time : Timeline Place}

/-- An answered flush leaves only the writes to ask about. -/
theorem save_eq (answered : time.flush.2 = .ok ()) (complaint : String) :
    save time complaint =
      (time.flush.1,
        if 0 < time.flush.1.store.tally.failed then some (.plain complaint) else none) := by
  rw [save]
  split
  · rename_i flushed fault same
    rw [same] at answered
    cases answered
  · rename_i flushed same
    rw [same]
    split <;> rfl

end Saving

theorem save_time {Place : Type} [Backend Place] (time : Timeline Place) (complaint : String) :
    (save time complaint).1 = time.flush.1 := by
  rw [save]
  split <;> rename_i same <;> rw [same]
  split <;> rfl

variable {Place : Type} [Backend Place]

def Job.loaded (job : Job) (place : Place) : Timeline Place :=
  (Timeline.start job.store place).load.1

theorem plan_job {environment : String → Option String} {arguments : List String} {job : Job}
    (planned : plan environment arguments = .job job) :
    ∃ config host, Store.new config Migration.widgetStack host = .ok job.store := by
  unfold plan at planned
  split at planned
  · cases planned
  · cases planned
  · split at planned
    · cases planned
    · rename_i options command _ _ config _
      dsimp only at planned
      split at planned
      · cases planned
      · split at planned
        · cases planned
        · rename_i made new
          cases planned
          exact ⟨_, _, new⟩

section Loaded

variable {job : Job} {config : Config} {chain : Chain} {host : Host}
variable (new : Store.new config chain host = .ok job.store) (place : Place)
include new

theorem Job.fresh : job.store.Fresh := ⟨_, _, _, _, job.store.codec, new, rfl⟩

theorem Job.encodes (settings : Settings) : (job.store.encode settings).isSome = true := by
  rw [Store.new_eq new, Store.encode]
  cases config.format <;> rfl

omit new in
theorem Job.solo : Timeline.Solo (Timeline.start job.store place) (job.loaded place) :=
  Timeline.Solo.start.loads rfl

theorem Job.wentOn :
    (Timeline.start job.store place).opened.WentOn (job.loaded place).store :=
  (Timeline.load_opens (Job.fresh new) place).1

theorem Job.ready : (job.loaded place).store.phase = .ready :=
  (Timeline.load_opens (Job.fresh new) place).2

theorem Job.madeWith [Shelf Place] :
    (job.loaded place).store.config = job.store.config ∧
      (job.loaded place).store.chain = job.store.chain ∧
      (job.loaded place).store.codec = job.store.codec := by
  have made := (((job.solo place).run rfl).rooted new).2.2
  rw [Store.new_eq new]
  exact made

theorem Job.encode_eq [Shelf Place] (settings : Settings) :
    (job.loaded place).store.encode settings = job.store.encode settings := by
  obtain ⟨-, sameChain, sameCodec⟩ := Job.madeWith new place
  rw [Store.encode, Store.encode, sameChain, sameCodec]

end Loaded

/-- Whatever a job does, its store has the place to itself. -/
theorem Job.ends (job : Job) (place : Place) :
    ∃ time, Timeline.Solo (Timeline.start job.store place) time ∧
      (job.run place).1 = time.place := by
  have loaded := job.solo place
  cases asked : job.command with
  | print | path =>
    refine ⟨_, loaded, ?_⟩
    rw [Job.run, asked]
    rfl
  | migrate =>
    refine ⟨_, loaded.flushes rfl, ?_⟩
    have migrated : ∀ time : Timeline Place, (migrate time).1 = time.flush.1 := by
      intro time
      rw [← save_time time "Migrated record could not be written", migrate]
      split <;> rename_i same <;> rw [same]
      split <;> rfl
    rw [← migrated, Job.run, asked]
    rfl
  | set assignments =>
    have done : ∃ time, Timeline.Solo (Timeline.start job.store place) time ∧
        (setSettings (job.loaded place) assignments).1 = time := by
      rw [setSettings]
      split
      · exact ⟨_, loaded, rfl⟩
      · split
        · exact ⟨_, loaded, rfl⟩
        · rename_i patch _
          refine ⟨_, (loaded.update patch).flushes rfl, ?_⟩
          rw [← save_time _ "Settings were not saved; see the log for the backend error"]
          dsimp only
          split <;> rename_i same <;> rw [same]
    obtain ⟨time, solo, rfl⟩ := done
    refine ⟨_, solo, ?_⟩
    rw [Job.run, asked]
    rfl

def treeWith (bytes : Bytes) : FileTree := { nodes := [(["new-tab-data.state"], .file bytes)] }

def Job.file (job : Job) (tree : FileTree) : Except StorageError (Option Bytes) :=
  Folder.read ⟨job.directory, tree⟩ job.store.config.key

theorem run_job {environment : String → Option String} {arguments : List String} {job : Job}
    (planned : plan environment arguments = .job job) (tree : FileTree) :
    (⟨job.directory, (run environment arguments tree).1⟩, (run environment arguments tree).2) =
      job.run (⟨job.directory, tree⟩ : Folder) := by
  obtain ⟨time, solo, same⟩ := job.ends (⟨job.directory, tree⟩ : Folder)
  have named : (job.run (⟨job.directory, tree⟩ : Folder)).1.name = job.directory := by
    rw [same]
    exact solo.place_keep (fun folder : Folder => folder.name = job.directory)
      (fun folder key bytes kept => (folder.write_name key bytes).trans kept) rfl
  rw [run, planned]
  exact Prod.ext (congrArg (Folder.mk · _) named.symm) rfl

end CommandLine
end StartPage
