import StartPage.Proofs.Settings
import StartPage.Storage.Folder
import StartPage.Storage.Memory

/-!
What a place holds. The bytes under a key are those of the last write under it that succeeded, and
a read that succeeds gives them; this is all that a store relies on. In a folder a write puts a file
where no directory stood, so every path that led somewhere leads there still.
-/
namespace StartPage

/-- A place that gives back what was put there. -/
class Shelf (Place : Type) [Backend Place] where
  held : Place → String → Option Bytes
  read_ok {place : Place} {key : String} {found : Option Bytes} :
    Backend.read place key = .ok found → found = held place key
  write_ok {place after : Place} {key : String} {bytes : Bytes} :
    Backend.write place key bytes = (after, .ok ()) → held after key = some bytes

instance : Shelf Memory where
  held := Memory.get?
  read_ok {memory key found} read := by
    change memory.read key = .ok found at read
    rw [Memory.read] at read
    split at read
    · cases read
    · exact (Except.ok.inj read).symm
  write_ok {memory after key bytes} written := by
    change memory.write key bytes = (after, .ok ()) at written
    rw [Memory.write] at written
    split at written
    · cases written
    · obtain ⟨rfl, -⟩ := Prod.mk.inj written
      exact (Memory.get?_put memory key key bytes).trans (if_pos rfl)

namespace FileTree

variable {tree after : FileTree} {location here there : Location} {content : Bytes}

theorem enter_set_file {part : String} (below : location ≠ [])
    (free : tree.get? location ≠ some .directory) (entered : tree.enter here part = .ok there) :
    (tree.set location (.file content)).enter here part = .ok there := by
  unfold enter at entered ⊢
  split at entered
  case isTrue stay => rwa [if_pos stay]
  case isFalse leave =>
    rw [if_neg leave]
    split at entered
    case isTrue up => rwa [if_pos up]
    case isFalse down =>
      rw [if_neg down]
      obtain ⟨node, found, entered⟩ := bind_ok entered
      unfold find? at found ⊢
      split at found
      case isTrue => cases found
      case isFalse short =>
        rw [if_neg short]
        split at entered
        case h_1 =>
          -- The way leads through a directory, so not through the file.
          have stands : tree.get? (here ++ [part]) = some .directory := Except.ok.inj found
          have apart : here ++ [part] ≠ location := fun same => free (same ▸ stands)
          rw [tree.get?_set below, if_neg apart, stands]
          exact entered
        case h_2 => cases entered
        case h_3 => cases entered

theorem walk_set_file {route : Route} (below : location ≠ [])
    (free : tree.get? location ≠ some .directory) (walked : tree.walk route = .ok there) :
    (tree.set location (.file content)).walk route = .ok there := by
  have walk : ∀ parts here, List.foldlM tree.enter here parts = .ok there →
      List.foldlM (tree.set location (.file content)).enter here parts = .ok there := by
    intro parts
    induction parts with
    | nil => exact fun _ walked => walked
    | cons part rest ih =>
      intro here walked
      rw [List.foldlM_cons] at walked ⊢
      obtain ⟨next, entered, walked⟩ := bind_ok walked
      rw [enter_set_file below free entered]
      exact ih next walked
  exact walk route.parts _ walked

theorem replaceFile_eq {directory : Location} {name : String}
    (put : tree.replaceFile directory name content = .ok after) :
    tree.get? (directory ++ [name]) ≠ some .directory ∧
      after = tree.set (directory ++ [name]) (.file content) := by
  rw [replaceFile, find?] at put
  obtain ⟨node, found, put⟩ := bind_ok put
  split at found
  · cases found
  · rw [Except.ok.inj found]
    split at put
    case h_1 => cases put
    case h_2 other free => exact ⟨free, (Except.ok.inj put).symm⟩

end FileTree

namespace Folder

variable {folder after : Folder} {key : String} {bytes : Bytes}

theorem locate_set_file {directory location : Location} (below : location ≠ [])
    (free : folder.tree.get? location ≠ some .directory)
    (located : folder.locate key = .ok directory) :
    ({ folder with tree := folder.tree.set location (.file bytes) } : Folder).locate key =
      .ok directory := by
  rw [locate] at located ⊢
  obtain ⟨path, writable, located⟩ := bind_ok located
  obtain ⟨route, named, walked⟩ := bind_ok located
  rw [writable, named]
  exact FileTree.walk_set_file below free walked

theorem readFile_replaceFile (put : folder.replaceFile key bytes = .ok after) :
    after.readFile key = .ok bytes := by
  rw [replaceFile] at put
  obtain ⟨draft, -, put⟩ := bind_ok put
  obtain ⟨directory, located, put⟩ := bind_ok put
  obtain ⟨tree, replaced, put⟩ := bind_ok put
  obtain rfl := Except.ok.inj put
  obtain ⟨free, same⟩ := FileTree.replaceFile_eq replaced
  have found := FileTree.readFile_replaceFile replaced
  have again : ({ folder with tree } : Folder).locate key = .ok directory := by
    rw [same]
    exact locate_set_file (List.concat_ne_nil _ _) free located
  rw [readFile, again]
  simp only [bind, Except.bind]
  exact found

end Folder

instance : Shelf Folder where
  held folder key := (folder.readFile key).toOption
  read_ok {folder key found} read := by
    change folder.read key = .ok found at read
    rw [Folder.read] at read
    split at read
    case h_1 content stands =>
      cases read
      rw [stands]
      rfl
    case h_2 missing =>
      cases read
      rw [missing]
      rfl
    case h_3 => cases read
  write_ok {folder after key bytes} written := by
    change folder.write key bytes = (after, .ok ()) at written
    rw [Folder.write] at written
    split at written
    case h_1 => cases written
    case h_2 made directory =>
      split at written
      case h_1 => cases written
      case h_2 replaced put =>
        obtain ⟨rfl, -⟩ := Prod.mk.inj written
        rw [Folder.readFile_replaceFile put]
        rfl

end StartPage
