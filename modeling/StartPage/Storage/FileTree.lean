import StartPage.Text.Bytes

/-!
A tree of directories and files, as far as storing settings needs one, seen from a working
directory. Permissions, links and the order of directory entries are not modelled.

A path as it is written is walked part by part: an empty part and a single dot stay, two dots
lead up, a name leads into the directory of that name. Every part is looked at from a directory
that exists, so `a/..` leads nowhere unless there is a directory `a`.
-/
namespace StartPage

inductive FileNode where
  | directory
  | file (content : Bytes)
deriving DecidableEq, Repr, Inhabited

/-- Names from the root down, none of them empty or made of dots that lead elsewhere. -/
abbrev Location := List String

structure FileTree where
  nodes : List (Location × FileNode) := []
  /-- Where a path begins that does not begin at the root. -/
  workingDirectory : Location := []
deriving DecidableEq, Repr, Inhabited

inductive FileFault where
  | notFound
  | alreadyExists
  | notADirectory
  | isADirectory
  | tooLong
  | notAPath
deriving DecidableEq, Repr

structure Route where
  fromRoot : Bool
  parts : List String
deriving DecidableEq, Repr, Inhabited

namespace Route

def ofText (text : String) : Route :=
  ⟨text.toList.head? = some '/', (text.toList.splitOn '/').map String.ofList⟩

/-- Bytes that the text of a path must stay below. -/
def textLimit : Nat := 4096

def read (text : String) : Except FileFault Route :=
  if Char.ofNat 0 ∈ text.toList then .error .notAPath
  else if textLimit ≤ (Text.bytes text).length then .error .tooLong
  else .ok (ofText text)

def steps (route : Route) : List String :=
  route.parts.filter fun part => part ≠ "" && part ≠ "."

def above (route : Route) : List Route :=
  (List.range (route.steps.length - 1)).map fun n =>
    { route with parts := route.steps.take (n + 1) }

def text (route : Route) : String :=
  (if route.fromRoot then "/" else "") ++ "/".intercalate route.parts

end Route

namespace FileTree

/-- Bytes that a name may have. -/
def nameLimit : Nat := 255

def isTooLong (name : String) : Bool := nameLimit < (Text.bytes name).length

def get? (tree : FileTree) (location : Location) : Option FileNode :=
  if location = [] then some .directory else tree.nodes.lookup location

def set (tree : FileTree) (location : Location) (node : FileNode) : FileTree :=
  { tree with
    nodes := (location, node) :: tree.nodes.filter fun entry => entry.1 != location }

def fromRoot (tree : FileTree) (text : String) : String :=
  if text.toList.head? = some '/' then text
  else "/" ++ "/".intercalate (tree.workingDirectory ++ [text])

def find? (tree : FileTree) (directory : Location) (name : String) :
    Except FileFault (Option FileNode) :=
  if isTooLong name then .error .tooLong else .ok (tree.get? (directory ++ [name]))

def enter (tree : FileTree) (here : Location) (part : String) : Except FileFault Location :=
  if part = "" ∨ part = "." then .ok here
  else if part = ".." then .ok here.dropLast
  else do
    match ← tree.find? here part with
    | some .directory => return here ++ [part]
    | some (.file _) => .error .notADirectory
    | none => .error .notFound

def walk (tree : FileTree) (route : Route) : Except FileFault Location :=
  route.parts.foldlM tree.enter (if route.fromRoot then [] else tree.workingDirectory)

def isDirectory (tree : FileTree) (route : Route) : Bool := (tree.walk route).isOk

/-- Makes one directory; slashes at the end of the route do not matter. -/
def makeDirectory (tree : FileTree) (route : Route) : Except FileFault FileTree :=
  match route.parts.reverse.dropWhile (· = "") with
  | [] => .error .alreadyExists
  | name :: parents => do
    let directory ← tree.walk { route with parts := parents.reverse }
    if name = "." ∨ name = ".." then .error .alreadyExists
    else
      match ← tree.find? directory name with
      | some _ => .error .alreadyExists
      | none => return tree.set (directory ++ [name]) .directory

def ensureDirectory (tree : FileTree) (route : Route) : FileTree × Except FileFault Unit :=
  match tree.makeDirectory route with
  | .ok tree => (tree, .ok ())
  | .error .alreadyExists =>
    (tree, if tree.isDirectory route then .ok () else .error .notADirectory)
  | .error fault => (tree, .error fault)

/-- Makes the directories above, from the first one down, and then the directory itself. What was
made before an obstacle stays. -/
def makeDirectories (tree : FileTree) (route : Route) : FileTree × Except FileFault Unit :=
  (route.above ++ [route]).foldl (fun (tree, result) level =>
    match result with
    | .ok () => tree.ensureDirectory level
    | .error fault => (tree, .error fault)) (tree, .ok ())

def readFile (tree : FileTree) (directory : Location) (name : String) : Except FileFault Bytes := do
  match ← tree.find? directory name with
  | some (.file content) => return content
  | some .directory => .error .isADirectory
  | none => .error .notFound

def replaceFile (tree : FileTree) (directory : Location) (name : String) (content : Bytes) :
    Except FileFault FileTree := do
  match ← tree.find? directory name with
  | some .directory => .error .isADirectory
  | _ => return tree.set (directory ++ [name]) (.file content)

def children (tree : FileTree) (directory : Location) : List (String × FileNode) :=
  tree.nodes.filterMap fun (location, node) =>
    match location.getLast? with
    | some name => if location.dropLast = directory then some (name, node) else none
    | none => none

theorem get?_set (tree : FileTree) {location : Location} (below : location ≠ [])
    (other : Location) (node : FileNode) :
    (tree.set location node).get? other =
      if other = location then some node else tree.get? other := by
  simp only [get?, set, List.lookup_cons]
  by_cases root : other = []
  · simp [root, below.symm]
  · by_cases same : other = location
    · simp [same, below]
    · rw [beq_false_of_ne same, if_neg root, if_neg same, if_neg root]
      induction tree.nodes with
      | nil => rfl
      | cons entry rest ih => grind

theorem readFile_replaceFile {tree after : FileTree} {directory : Location} {name : String}
    {content : Bytes} (put : tree.replaceFile directory name content = .ok after) :
    after.readFile directory name = .ok content := by
  unfold replaceFile find? at put
  split at put
  · contradiction
  · rename_i short
    have view := tree.get?_set (List.concat_ne_nil name directory) (directory ++ [name])
      (.file content)
    simp only [if_true] at view
    cases found : tree.get? (directory ++ [name]) with
    | none =>
      simp only [found, bind, Except.bind, pure, Except.pure, Except.ok.injEq] at put
      simp [readFile, find?, short, ← put, view, bind, Except.bind, pure, Except.pure]
    | some node =>
      cases node with
      | directory => simp [found, bind, Except.bind] at put
      | file old =>
        simp only [found, bind, Except.bind, pure, Except.pure, Except.ok.injEq] at put
        simp [readFile, find?, short, ← put, view, bind, Except.bind, pure, Except.pure]

end FileTree
end StartPage
