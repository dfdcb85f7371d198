import StartPage.Codec

/-!
Where and how settings are stored: the key, the quiet window before a burst of updates is
written, and the format. Environment variables override the defaults one by one. The checks
come in a fixed order, and the first that fails is reported: the window's text, the format's
name, the key, the window's length.
-/
namespace StartPage

structure Config where
  key : String := "new-tab-data"
  /-- Milliseconds. -/
  window : Nat := 50
  format : Format := .json
deriving DecidableEq, Repr, Inhabited

namespace Config

def keyVariable : String := "NEWTAB_STATE_KEY"
def windowVariable : String := "NEWTAB_STATE_DEBOUNCE_MS"
def formatVariable : String := "NEWTAB_STATE_CODEC"

def isBlank (text : String) : Bool := text.toList.all Text.isBlank

def validate (config : Config) : Except ConfigError Config :=
  if isBlank config.key then .error .emptyKey
  else if config.window = 0 then .error .zeroWindow
  else .ok config

/-- Digits after at most one plus sign, of a value below 2^64. -/
def natural? (text : List Char) : Option Nat :=
  let digits := match text with
    | '+' :: rest => rest
    | _ => text
  if digits = [] ∨ !digits.all Char.isDigit then none
  else
    let value := digits.foldl (fun total c => 10 * total + (c.toNat - '0'.toNat)) 0
    if value < UInt64.size then some value else none

def parseWindow (text : String) : Except ConfigError Nat :=
  match natural? (Text.trim text).toList with
  | some value => .ok value
  | none => .error (.windowNotNumber windowVariable text)

def ofEnvironment (lookup : String → Option String) : Except ConfigError Config := do
  let config : Config := {}
  let key := ((lookup keyVariable).map Text.trim).getD config.key
  let window ← match lookup windowVariable with
    | some text => parseWindow text
    | none => pure config.window
  let format ← match lookup formatVariable with
    | some text => Format.parse (Text.trim text)
    | none => pure config.format
  validate { key, window, format }

end Config
end StartPage
