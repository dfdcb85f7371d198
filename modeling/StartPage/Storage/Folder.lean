import StartPage.Storage.Backend
import StartPage.Storage.FileTree

/-!
Bytes kept in a directory, one file for each key. A character that is not safe in a file name
becomes an underscore, so the file of a key lies directly in the directory; keys that differ
only in such characters share a file. Writing makes the directory when it is missing and
replaces the file in one piece.
-/
namespace StartPage

structure Folder where
  name : String
  tree : FileTree
deriving DecidableEq, Repr, Inhabited

namespace Folder

def isSafe (c : Char) : Bool := c.isAlphanum || c == '-' || c == '_' || c == '.'

def stem (key : String) : String :=
  String.ofList (key.toList.map fun c => if isSafe c then c else '_')

def fileName (key : String) : String := stem key ++ ".state"

/-- A directory's path and a name in it, with a single slash added where there is none. -/
def join (directory name : String) : String :=
  if directory = "" ∨ directory.toList.getLast? = some '/' then directory ++ name
  else directory ++ "/" ++ name

def pathFor (directory key : String) : String := join directory (fileName key)

def locate (folder : Folder) (key : String) : Except FileFault Location := do
  let _ ← Route.read (pathFor folder.name key)
  folder.tree.walk (← Route.read folder.name)

def readFile (folder : Folder) (key : String) : Except FileFault Bytes := do
  folder.tree.readFile (← folder.locate key) (fileName key)

def makeDirectory (folder : Folder) : Folder × Except FileFault Unit :=
  match Route.read folder.name with
  | .error fault => (folder, .error fault)
  | .ok route =>
    let (tree, result) := folder.tree.makeDirectories route
    ({ folder with tree }, result)

/-- A file is written under another name first: a name of ten characters in the same directory. -/
def draftPath (directory : String) : String := join directory ".tmp000000"

/-- The draft's path is written from the root, so there has to be room for the working directory
as well. -/
def replaceFile (folder : Folder) (key : String) (bytes : Bytes) : Except FileFault Folder := do
  let _ ← Route.read (folder.tree.fromRoot (draftPath folder.name))
  let directory ← folder.locate key
  return { folder with tree := ← folder.tree.replaceFile directory (fileName key) bytes }

def read (folder : Folder) (key : String) : Except StorageError (Option Bytes) :=
  match folder.readFile key with
  | .ok content => .ok (some content)
  | .error .notFound => .ok none
  | .error _ => .error (.unreadable (pathFor folder.name key))

def write (folder : Folder) (key : String) (bytes : Bytes) : Folder × Except StorageError Unit :=
  let fault := Except.error (.unwritable (pathFor folder.name key))
  match folder.makeDirectory with
  | (folder, .error _) => (folder, fault)
  | (folder, .ok ()) =>
    match folder.replaceFile key bytes with
    | .error _ => (folder, fault)
    | .ok folder => (folder, .ok ())

instance : Backend Folder := ⟨read, write⟩

end Folder
end StartPage
