import StartPage.Codec

/-!
Assignments: a name, an equals sign and a value. A value is read as JSON where it is JSON, and
is a plain string otherwise; a number stays the string that was typed. Blanks around the name
and around the value are dropped, and of assignments to one name the last counts.
-/
namespace StartPage.CommandLine

inductive AssignmentError where
  | noEquals (text : String)
  | noName (text : String)
deriving DecidableEq, Repr

def AssignmentError.message : AssignmentError → String
  | .noEquals text => "Invalid assignment '" ++ text ++ "'. Expected format: name=value"
  | .noName text => "Missing field name in '" ++ text ++ "'"

def readValue (text : String) : Value :=
  match Json.readValue Json.depthLimit (Text.bytes text) with
  | some (.number _) => .string text
  | some value => value
  | none => .string text

def readAssignment (text : String) : Except AssignmentError (String × Value) :=
  match text.toList.dropWhile (· != '=') with
  | [] => .error (.noEquals text)
  | _ :: value =>
    let name := Text.trim (.ofList (text.toList.takeWhile (· != '=')))
    if name = "" then .error (.noName text)
    else .ok (name, readValue (Text.trim (.ofList value)))

def readAssignments? (texts : List String) : Except AssignmentError Record := do
  return Record.ofList (← texts.mapM readAssignment)

end StartPage.CommandLine
