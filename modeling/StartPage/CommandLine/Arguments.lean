import StartPage.Codec

/-!
The arguments of the command line: options, then one command with its own arguments. Options
are written out in full and given at most once; a value follows its option or stands behind an
equals sign. Arguments are read from left to right, and the first request for help or the first
mistake ends the reading. A value that follows its option is judged late: when the next option
is met, or else when the command has been read to its end. So help on a command is given even
if the value before it is a mistake.
-/
namespace StartPage.CommandLine

structure Options where
  directory : Option String := none
  key : Option String := none
  format : Option Format := none
  incognito : Bool := false
  tor : Bool := false
  rtl : Bool := false
deriving DecidableEq, Repr, Inhabited

inductive Command where
  | print
  | set (assignments : List String)
  | migrate
  | path
deriving DecidableEq, Repr, Inhabited

inductive Refusal where
  | help
  | usage
deriving DecidableEq, Repr

abbrev Reading := Except Refusal

inductive Token where
  /-- Two hyphens: what follows is no option. -/
  | separator
  | long (name : String) (value : Option String)
  | short (letters : List Char)
  | word (text : String)
deriving DecidableEq, Repr

/-- A single hyphen is a word. -/
def Token.of (argument : String) : Token :=
  match argument.toList with
  | ['-', '-'] => .separator
  | '-' :: '-' :: rest =>
    let name := rest.takeWhile (· != '=')
    .long (.ofList name) ((rest.dropWhile (· != '=')).tail?.map String.ofList)
  | '-' :: c :: rest => .short (c :: rest)
  | _ => .word argument

def Token.refusal : Token → Refusal
  | .long "help" none => .help
  | .short ('h' :: _) => .help
  | _ => .usage

def readNothing (command : Command) : List String → Reading Command
  | [] => .ok command
  | argument :: rest =>
    match Token.of argument with
    | .separator => if rest = [] then .ok command else .error .usage
    | token => .error token.refusal

def readWords : List String → Reading (List String)
  | [] => .ok []
  | argument :: rest =>
    match Token.of argument with
    | .separator => .ok rest
    | .word text => return text :: (← readWords rest)
    | token => .error token.refusal

def readAssignments (arguments : List String) : Reading Command := do
  let words ← readWords arguments
  if words = [] then .error .usage else return .set words

/-- Help on a command is asked for by its name. -/
def readHelp : List String → Reading Command
  | [] => .error .help
  | [name] =>
    if name ∈ ["show", "set", "migrate", "path", "help"] then .error .help else .error .usage
  | _ => .error .usage

def readCommand? (name : String) (arguments : List String) : Option (Reading Command) :=
  match name with
  | "show" => some (readNothing .print arguments)
  | "set" => some (readAssignments arguments)
  | "migrate" => some (readNothing .migrate arguments)
  | "path" => some (readNothing .path arguments)
  | "help" => some (readHelp arguments)
  | _ => none

def Options.setFlag (options : Options) (name : String) : Reading Options :=
  match name, options with
  | "incognito", { incognito := false, .. } => .ok { options with incognito := true }
  | "tor", { tor := false, .. } => .ok { options with tor := true }
  | "rtl", { rtl := false, .. } => .ok { options with rtl := true }
  | _, _ => .error .usage

def Options.setValue (options : Options) (name value : String) : Reading Options :=
  match name, options with
  | "dir", { directory := none, .. } =>
    if value = "" then .error .usage else .ok { options with directory := some value }
  | "key", { key := none, .. } => .ok { options with key := some value }
  | "codec", { format := none, .. } =>
    match Format.parse value with
    | .ok format => .ok { options with format := some format }
    | .error _ => .error .usage
  | _, _ => .error .usage

def takesValue (name : String) : Bool := name ∈ ["dir", "key", "codec"]

/-- An option with the value that follows it, not judged yet. -/
structure Assigned where
  name : String
  value : String
deriving DecidableEq, Repr

def Options.judge (options : Options) : Option Assigned → Reading Options
  | none => .ok options
  | some assigned => options.setValue assigned.name assigned.value

def readOptions (options : Options) (unjudged : Option Assigned) :
    List String → Reading (Options × Command)
  | [] => .error .usage
  | argument :: rest =>
    match Token.of argument with
    | .word name =>
      match readCommand? name rest with
      | some command => do
        let command ← command
        return (← options.judge unjudged, command)
      | none => .error .usage
    | .long name (some value) => do
      let options ← options.judge unjudged
      if takesValue name then readOptions (← options.setValue name value) none rest
      else .error .usage
    | .long name none => do
      let options ← options.judge unjudged
      if name = "help" then .error .help
      else if takesValue name then
        match rest with
        | [] => .error .usage
        | value :: rest =>
          match Token.of value with
          | .word value => readOptions options (some ⟨name, value⟩) rest
          | _ => .error .usage
      else readOptions (← options.setFlag name) none rest
    | token => do
      let _ ← options.judge unjudged
      .error token.refusal

def read (arguments : List String) : Reading (Options × Command) := readOptions {} none arguments

end StartPage.CommandLine
