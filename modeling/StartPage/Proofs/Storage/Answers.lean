import StartPage.Proofs.Storage

/-!
What a place answers to reads and writes one after the other. Memory answers a read with the last
write under the very key. A folder answers with the last write into the file of the key, and a file
belongs to every key of one stem: a folder is a memory whose keys are stems. So the two answer
alike as long as no two keys in use share a stem.

A folder may be missing when it is first written to, and is made then. What counts is what stands
in it once it is there.
-/
namespace StartPage

inductive Access where
  | read (key : String)
  | write (key : String) (bytes : Bytes)
deriving DecidableEq, Repr

namespace Access

def key : Access → String
  | read key => key
  | write key _ => key

def rename (name : String → String) : Access → Access
  | read key => read (name key)
  | write key bytes => write (name key) bytes

/-- The bytes of the last write among the calls whose key has the name of the key. -/
def newest (name : String → String) (key : String) (calls : List Access) : Option Bytes :=
  calls.reverse.findSome? fun
    | read _ => none
    | write other bytes => if name key = name other then some bytes else none

/-- What a call is to be answered after others; a write is answered with nothing but its success. -/
def due (name : String → String) (before : List Access) : Access → Option Bytes
  | read key => newest name key before
  | write _ _ => none

def dues (name : String → String) (before : List Access) :
    List Access → List (Except StorageError (Option Bytes))
  | [] => []
  | call :: rest => .ok (call.due name before) :: dues name (before ++ [call]) rest

section Due

variable {name : String → String} {before calls : List Access} {key other : String} {bytes : Bytes}

@[simp] theorem newest_read :
    newest name key (before ++ [read other]) = newest name key before := by
  simp [newest]

@[simp] theorem newest_write : newest name key (before ++ [write other bytes]) =
    if name key = name other then some bytes else newest name key before := by
  by_cases same : name key = name other <;> simp [newest, same]

theorem newest_rename :
    newest id (name key) (before.map (rename name)) = newest name key before := by
  -- The last write counts, so the calls are taken from their end.
  induction before using List.reverseRecOn with
  | nil => rfl
  | append_singleton earlier call ih =>
    rw [List.map_append]
    cases call with
    | read other => simpa [rename] using ih
    | write other bytes => simp [rename, ih]

theorem newest_id (apart : ∀ call ∈ before, name key = name call.key → key = call.key) :
    newest name key before = newest id key before := by
  induction before using List.reverseRecOn with
  | nil => rfl
  | append_singleton earlier call ih =>
    have same := ih fun other member => apart other (List.mem_append_left _ member)
    have last := apart call (by simp)
    cases call with
    | read other => simpa using same
    | write other bytes =>
      have iff : name key = name other ↔ key = other := ⟨last, congrArg name⟩
      simp [same, iff]

theorem dues_rename : dues id (before.map (rename name)) (calls.map (rename name)) =
    dues name before calls := by
  induction calls generalizing before with
  | nil => rfl
  | cons call rest ih =>
    have later : dues id ((before ++ [call]).map (rename name)) (rest.map (rename name)) =
        dues name (before ++ [call]) rest := ih
    rw [List.map_append] at later
    refine List.cons_eq_cons.mpr ⟨congrArg _ ?_, later⟩
    cases call with
    | read key => exact newest_rename
    | write key bytes => rfl

theorem dues_id (apart : ∀ first ∈ before ++ calls, ∀ second ∈ before ++ calls,
    name first.key = name second.key → first.key = second.key) :
    dues name before calls = dues id before calls := by
  induction calls generalizing before with
  | nil => rfl
  | cons call rest ih =>
    have later : dues name (before ++ [call]) rest = dues id (before ++ [call]) rest :=
      ih (by simpa using apart)
    refine List.cons_eq_cons.mpr ⟨congrArg _ ?_, later⟩
    cases call with
    | read key =>
      exact newest_id fun other member =>
        apart (read key) (by simp) other (List.mem_append_left _ member)
    | write key bytes => rfl

theorem getElem?_dues (past : List Access) (call : Access) (after : List Access) :
    (dues name past (before ++ call :: after))[before.length]? =
      some (.ok (call.due name (past ++ before))) := by
  induction before generalizing past with
  | nil => simp [dues]
  | cons first rest ih => simpa [dues] using ih (past ++ [first])

end Due

section Calls

variable {Place : Type} [Backend Place] {place : Place} {name : String → String}
  {before calls : List Access}

def perform (place : Place) : Access → Place × Except StorageError (Option Bytes)
  | read key => (place, Backend.read place key)
  | write key bytes =>
    ((Backend.write place key bytes).1, (Backend.write place key bytes).2.map fun _ => none)

def replies (place : Place) : List Access → List (Except StorageError (Option Bytes))
  | [] => []
  | call :: rest => (call.perform place).2 :: replies (call.perform place).1 rest

end Calls

end Access

open Access

namespace Memory

/-- Memory that does not fail, and holds under each key what was last written under it. -/
structure Mirrors (memory : Memory) (before : List Access) : Prop where
  readable : memory.failReads = false
  writable : memory.failWrites = false
  get? : ∀ key, memory.get? key = newest id key before

theorem Mirrors.perform {memory : Memory} {before : List Access} (mirrors : memory.Mirrors before)
    (call : Access) : (call.perform memory).2 = .ok (call.due id before) ∧
      Mirrors (call.perform memory).1 (before ++ [call]) := by
  obtain ⟨readable, writable, held⟩ := mirrors
  cases call with
  | read key =>
    have found : memory.read key = .ok (newest id key before) := by
      rw [Memory.read, readable, held]
      rfl
    refine ⟨found, readable, writable, fun other => ?_⟩
    rw [newest_read]
    exact held other
  | write key bytes =>
    have written : memory.write key bytes =
        ({ memory.put key bytes with writes := memory.writes + 1 }, .ok ()) := by
      rw [Memory.write, writable]
      rfl
    simp only [Access.perform, Backend.write, written]
    refine ⟨rfl, readable, writable, fun other => ?_⟩
    rw [newest_write, ← held]
    exact memory.get?_put key other bytes

theorem Mirrors.replies {memory : Memory} {before : List Access} (mirrors : memory.Mirrors before)
    (calls : List Access) : replies memory calls = dues id before calls := by
  induction calls generalizing memory before with
  | nil => rfl
  | cons call rest ih =>
    obtain ⟨answered, further⟩ := mirrors.perform call
    exact List.cons_eq_cons.mpr ⟨answered, ih further⟩

theorem mirrors_empty : Mirrors {} [] := ⟨rfl, rfl, fun _ => rfl⟩

end Memory

namespace FileTree

variable {tree : FileTree} {route : Route} {here : Location}

theorem walk_append {first second : List String} (fromRoot : Bool) :
    tree.walk ⟨fromRoot, first ++ second⟩ =
      tree.walk ⟨fromRoot, first⟩ >>= fun there => second.foldlM tree.enter there :=
  List.foldlM_append ..

theorem walk_steps (tree : FileTree) (route : Route) :
    tree.walk { route with parts := route.steps } = tree.walk route := by
  have walk : ∀ (parts : List String) (here : Location),
      (parts.filter fun part => part ≠ "" && part ≠ ".").foldlM tree.enter here =
        parts.foldlM tree.enter here := by
    intro parts
    induction parts with
    | nil => exact fun _ => rfl
    | cons part rest ih =>
      intro here
      rw [List.filter_cons]
      split
      case isTrue leads =>
        simp only [List.foldlM_cons, ih]
      case isFalse stays =>
        have stays : part = "" ∨ part = "." := by simpa [Classical.or_iff_not_imp_left] using stays
        rw [ih, List.foldlM_cons, enter, if_pos stays]
        rfl
  exact walk route.parts _

theorem makeDirectory_of_walk (walked : tree.walk route = .ok here) :
    tree.makeDirectory route = .error .alreadyExists := by
  rw [makeDirectory]
  have cut := List.takeWhile_append_dropWhile (p := fun part => decide (part = ""))
    (l := route.parts.reverse)
  split
  case h_1 => rfl
  case h_2 name parents last =>
    -- The way goes on from the parent through the last part with a name; those behind it are empty.
    have named : name ≠ "" := by
      have head := List.head?_dropWhile_not (fun part => decide (part = "")) route.parts.reverse
      rw [last] at head
      simpa using head
    have parts : route.parts = parents.reverse ++
        name :: (route.parts.reverse.takeWhile fun part => decide (part = "")).reverse := by
      rw [last] at cut
      simpa using (congrArg List.reverse cut).symm
    have walked : tree.walk ⟨route.fromRoot, route.parts⟩ = .ok here := walked
    rw [parts, walk_append] at walked
    obtain ⟨directory, reached, walked⟩ := bind_ok walked
    rw [List.foldlM_cons] at walked
    obtain ⟨there, entered, -⟩ := bind_ok walked
    rw [reached]
    simp only [bind, Except.bind]
    split
    case isTrue => rfl
    case isFalse leads =>
      obtain ⟨undotted, single⟩ := not_or.mp leads
      rw [enter, if_neg (not_or.mpr ⟨named, undotted⟩), if_neg single] at entered
      obtain ⟨node, found, entered⟩ := bind_ok entered
      rw [found]
      cases node with
      | none => cases entered
      | some node => rfl

theorem ensureDirectory_of_walk (walked : tree.walk route = .ok here) :
    tree.ensureDirectory route = (tree, .ok ()) := by
  rw [ensureDirectory, makeDirectory_of_walk walked, isDirectory, walked]
  rfl

theorem makeDirectories_of_walk (walked : tree.walk route = .ok here) :
    tree.makeDirectories route = (tree, .ok ()) := by
  -- Each level is the beginning of a way that leads somewhere, so it leads somewhere itself.
  have levels : ∀ level ∈ route.above ++ [route], ∃ there, tree.walk level = .ok there := by
    intro level member
    rcases List.mem_append.mp member with above | same
    · obtain ⟨n, -, rfl⟩ := List.mem_map.mp above
      rw [← walk_steps, ← List.take_append_drop (n + 1) route.steps] at walked
      rw [walk_append] at walked
      obtain ⟨there, walked, -⟩ := bind_ok walked
      exact ⟨there, walked⟩
    · obtain rfl := List.mem_singleton.mp same
      exact ⟨here, walked⟩
  rw [makeDirectories]
  generalize route.above ++ [route] = all at levels
  induction all with
  | nil => rfl
  | cons level rest ih =>
    obtain ⟨there, walked⟩ := levels level List.mem_cons_self
    rw [List.foldl_cons]
    simp only [ensureDirectory_of_walk walked]
    exact ih fun other member => levels other (List.mem_cons_of_mem _ member)

theorem readFile_set {directory : Location} {name other : String} {node : FileNode}
    (apart : other ≠ name) :
    (tree.set (directory ++ [name]) node).readFile directory other =
      tree.readFile directory other := by
  have elsewhere : directory ++ [other] ≠ directory ++ [name] := by simpa using apart
  rw [readFile, readFile, find?, find?, get?_set tree (List.concat_ne_nil _ _), if_neg elsewhere]

theorem readFile_of_directories (bare : ∀ entry ∈ tree.nodes, entry.2 = .directory)
    (directory : Location) (name : String) : (tree.readFile directory name).toOption = none := by
  rw [readFile, find?]
  split
  · rfl
  · cases found : tree.get? (directory ++ [name]) with
    | none => rfl
    | some node =>
      rw [get?, if_neg (List.concat_ne_nil _ _)] at found
      obtain ⟨before, after, nodes, -⟩ := List.lookup_eq_some_iff.mp found
      obtain rfl : node = .directory := bare (directory ++ [name], node) (by simp [nodes])
      rfl

end FileTree

namespace Folder

variable {folder after : Folder} {key other : String} {bytes : Bytes} {before : List Access}

/-- A folder whose directory, once it is there, has no file under any key. -/
def Blank (folder : Folder) : Prop := ∀ key, Shelf.held folder.makeDirectory.1 key = none

theorem fileName_inj : fileName other = fileName key ↔ stem other = stem key := by
  rw [fileName, fileName, String.append_left_inj]

theorem held_congr (same : stem other = stem key) :
    Shelf.held folder other = Shelf.held folder key := by
  simp only [Shelf.held, readFile, locate, pathFor, fileName, same]

theorem makeDirectory_of_locate {directory : Location}
    (located : folder.locate key = .ok directory) : folder.makeDirectory = (folder, .ok ()) := by
  rw [locate] at located
  obtain ⟨-, -, located⟩ := bind_ok located
  obtain ⟨route, named, walked⟩ := bind_ok located
  rw [makeDirectory, named]
  simp only [FileTree.makeDirectories_of_walk walked]

theorem held_makeDirectory {found : Bytes} (held : Shelf.held folder key = some found) :
    Shelf.held folder.makeDirectory.1 key = some found := by
  have read : (folder.readFile key).toOption = some found := held
  cases located : folder.locate key with
  | error fault =>
    rw [readFile, located] at read
    cases read
  | ok directory => rwa [makeDirectory_of_locate located]

theorem locate_eq {directory : Location} (located : folder.locate key = .ok directory)
    (other : String) : folder.locate other =
      (Route.read (pathFor folder.name other)).map fun _ => directory := by
  rw [locate] at located ⊢
  obtain ⟨-, -, located⟩ := bind_ok located
  obtain ⟨route, named, walked⟩ := bind_ok located
  rw [named]
  simp only [bind, Except.bind, walked]
  cases Route.read (pathFor folder.name other) <;> rfl

/-- A file that is replaced is the file of all keys of one stem, and of no others. -/
theorem held_replaceFile (put : folder.replaceFile key bytes = .ok after) (other : String) :
    Shelf.held after other =
      if stem other = stem key then some bytes else Shelf.held folder other := by
  split
  case isTrue same =>
    rw [held_congr same]
    exact congrArg Except.toOption (readFile_replaceFile put)
  case isFalse apart =>
    rw [replaceFile] at put
    obtain ⟨draft, -, put⟩ := bind_ok put
    obtain ⟨directory, located, put⟩ := bind_ok put
    obtain ⟨tree, replaced, put⟩ := bind_ok put
    obtain rfl := Except.ok.inj put
    obtain ⟨free, rfl⟩ := FileTree.replaceFile_eq replaced
    have again : ({ folder with
        tree := folder.tree.set (directory ++ [fileName key]) (.file bytes) } : Folder).locate key =
          .ok directory := locate_set_file (List.concat_ne_nil _ _) free located
    -- Both files lie in one directory, so different stems are different places.
    have name : fileName other ≠ fileName key := fileName_inj.not.mpr apart
    refine congrArg Except.toOption ?_
    rw [readFile, readFile, locate_eq again, locate_eq located]
    cases Route.read (pathFor folder.name other) with
    | error fault => simp only [Except.map, bind, Except.bind]
    | ok route =>
      simp only [Except.map, bind, Except.bind]
      exact FileTree.readFile_set name

theorem locate_replaceFile (put : folder.replaceFile key bytes = .ok after) :
    ∃ directory, after.locate key = .ok directory := by
  have read := readFile_replaceFile put
  rw [readFile] at read
  obtain ⟨directory, located, -⟩ := bind_ok read
  exact ⟨directory, located⟩

theorem write_ok (written : Backend.write folder key bytes = (after, .ok ())) :
    ∃ opened, folder.makeDirectory = (opened, .ok ()) ∧
      opened.replaceFile key bytes = .ok after := by
  change folder.write key bytes = (after, .ok ()) at written
  rw [write] at written
  split at written
  case h_1 => cases written
  case h_2 opened made =>
    split at written
    case h_1 => cases written
    case h_2 replaced put =>
      obtain ⟨rfl, -⟩ := Prod.mk.inj written
      exact ⟨opened, made, put⟩

/-- What is held, now and once the directory is there, was last written under a key of the same
stem. -/
structure Mirrors (folder : Folder) (before : List Access) : Prop where
  held : ∀ key, Shelf.held folder key = newest stem key before
  settled : ∀ key, Shelf.held folder.makeDirectory.1 key = newest stem key before

theorem Blank.mirrors (blank : folder.Blank) : folder.Mirrors [] := by
  refine ⟨fun key => ?_, blank⟩
  cases held : Shelf.held folder key with
  | none => rfl
  | some found => cases (held_makeDirectory held).symm.trans (blank key)

theorem Mirrors.perform (mirrors : folder.Mirrors before) (call : Access)
    (sound : (call.perform folder).2.isOk = true) :
    (call.perform folder).2 = .ok (call.due stem before) ∧
      Mirrors (call.perform folder).1 (before ++ [call]) := by
  cases call with
  | read key =>
    have same : Mirrors folder (before ++ [.read key]) := by
      constructor <;> intro other <;> rw [newest_read]
      · exact mirrors.held other
      · exact mirrors.settled other
    cases read : Backend.read folder key with
    | error fault =>
      rw [Access.perform, read] at sound
      cases sound
    | ok found =>
      refine ⟨?_, same⟩
      rw [Access.perform, read, Shelf.read_ok read, mirrors.held]
      rfl
  | write key bytes =>
    cases written : Backend.write folder key bytes with
    | mk after result =>
      rw [Access.perform, written] at sound ⊢
      cases result with
      | error fault => cases sound
      | ok _ =>
        refine ⟨rfl, ?_⟩
        -- The directory is made first: what the write adds to is what stands in it then.
        obtain ⟨opened, made, put⟩ := write_ok written
        have held (other : String) :
            Shelf.held after other = newest stem other (before ++ [.write key bytes]) := by
          rw [held_replaceFile put, newest_write, ← mirrors.settled, made]
        refine ⟨held, fun other => ?_⟩
        obtain ⟨directory, located⟩ := locate_replaceFile put
        rw [makeDirectory_of_locate located]
        exact held other

theorem Mirrors.replies (mirrors : folder.Mirrors before) (calls : List Access)
    (sound : ∀ reply ∈ replies folder calls, reply.isOk = true) :
    replies folder calls = dues stem before calls := by
  induction calls generalizing folder before with
  | nil => rfl
  | cons call rest ih =>
    obtain ⟨answered, further⟩ := mirrors.perform call (sound _ List.mem_cons_self)
    exact List.cons_eq_cons.mpr
      ⟨answered, ih further fun reply member => sound reply (List.mem_cons_of_mem _ member)⟩

theorem blank_of_directories
    (bare : ∀ entry ∈ folder.makeDirectory.1.tree.nodes, entry.2 = .directory) : folder.Blank := by
  intro key
  generalize folder.makeDirectory.1 = opened at bare ⊢
  change (opened.readFile key).toOption = none
  rw [readFile]
  cases opened.locate key with
  | error fault => rfl
  | ok directory =>
    simp only [bind, Except.bind]
    exact FileTree.readFile_of_directories bare directory (fileName key)

end Folder

/-- A folder answers as a memory whose keys are stems does: a read is answered with the last write
under a key of the same stem, where memory answers with the last one under the same key. As long as
no two keys in use share a stem, there is no difference. -/
theorem folder_answers_by_stem {folder : Folder} {calls : List Access} (blank : folder.Blank)
    (sound : ∀ reply ∈ replies folder calls, reply.isOk = true) :
    (∀ before call after, calls = before ++ call :: after →
      (replies folder calls)[before.length]? = some (.ok (call.due Folder.stem before)) ∧
      (replies ({} : Memory) calls)[before.length]? = some (.ok (call.due id before))) ∧
    replies folder calls = replies ({} : Memory) (calls.map (rename Folder.stem)) ∧
    ((∀ first ∈ calls, ∀ second ∈ calls,
      Folder.stem first.key = Folder.stem second.key → first.key = second.key) →
        replies folder calls = replies ({} : Memory) calls) := by
  have folders := blank.mirrors.replies calls sound
  have memories (calls : List Access) := Memory.mirrors_empty.replies calls
  rw [folders, memories, memories]
  have renamed : dues id (([] : List Access).map (rename Folder.stem))
      (calls.map (rename Folder.stem)) = dues Folder.stem [] calls := dues_rename
  refine ⟨?_, renamed.symm, fun apart => dues_id apart⟩
  rintro before call after rfl
  exact ⟨getElem?_dues [] call after, getElem?_dues [] call after⟩

def freshFolder : Folder := ⟨"settings", {}⟩

def neighbours : List Access := [.write "a/b" [49], .read "a_b", .read "a/b", .read "a-b"]

/-- Two keys of stems of their own, the last of which is written again. -/
def strangers : List Access :=
  [.write "a/b" [49], .write "a-b" [50], .write "a/b" [51], .read "a/b", .read "a-b", .read "c"]

theorem strangers_answered_by_key :
    freshFolder.Blank ∧ (∀ reply ∈ replies freshFolder strangers, reply.isOk = true) ∧
    replies freshFolder strangers = replies ({} : Memory) strangers ∧
    replies freshFolder strangers =
      [.ok none, .ok none, .ok none, .ok (some [51]), .ok (some [50]), .ok none] := by
  have blank : freshFolder.Blank := Folder.blank_of_directories (by decide +kernel)
  have sound : ∀ reply ∈ replies freshFolder strangers, reply.isOk = true := by decide +kernel
  obtain ⟨-, -, alike⟩ := folder_answers_by_stem blank sound
  exact ⟨blank, sound, alike (by decide +kernel), by decide +kernel⟩

/-- A key that was never written is answered with what stands under its neighbour. -/
theorem neighbours_share_a_file :
    freshFolder.Blank ∧ (∀ reply ∈ replies freshFolder neighbours, reply.isOk = true) ∧
    replies freshFolder neighbours ≠ replies ({} : Memory) neighbours ∧
    replies freshFolder neighbours = [.ok none, .ok (some [49]), .ok (some [49]), .ok none] ∧
    replies ({} : Memory) neighbours = [.ok none, .ok none, .ok (some [49]), .ok none] := by
  have blank : freshFolder.Blank := Folder.blank_of_directories (by decide +kernel)
  exact ⟨blank, by decide +kernel, by decide +kernel, by decide +kernel, by decide +kernel⟩

end StartPage
