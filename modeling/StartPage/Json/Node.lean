import StartPage.Decimal.Numeral
import StartPage.Record
import StartPage.Text.Bytes

/-!
JSON text as a tree, before its numbers and strings are given a meaning. A tree may hold
what no value can: a numeral beyond every double, half of a surrogate pair, bytes that are
not UTF-8. `Node.value?` is the value of a tree that holds none of these; of entries with
one key the last counts.
-/
namespace StartPage.Json

open Decimal (Numeral)

/-- A string between its quotes: bytes as they stand or as a short escape gives them, and
16-bit units written in hexadecimal. -/
inductive Piece where
  | byte (value : UInt8)
  | unit (value : Nat)
deriving DecidableEq, Inhabited

abbrev Literal := List Piece

namespace Literal

def isHigh (unit : Nat) : Bool := 0xD800 ≤ unit && unit < 0xDC00
def isLow (unit : Nat) : Bool := 0xDC00 ≤ unit && unit < 0xE000

/-- A high unit must be followed by a low one, and a low unit must follow a high one. -/
def bytes? : Literal → Option Bytes
  | [] => some []
  | .byte value :: rest => (bytes? rest).map (value :: ·)
  | .unit high :: .unit low :: rest =>
    if isHigh high then
      if isLow low then
        (bytes? rest).map
          (String.utf8EncodeChar (.ofNat (0x10000 + (high - 0xD800) * 0x400 + (low - 0xDC00))) ++ ·)
      else none
    else if isLow high then none
    else (bytes? (.unit low :: rest)).map (String.utf8EncodeChar (.ofNat high) ++ ·)
  | .unit unit :: rest =>
    if isHigh unit || isLow unit then none
    else (bytes? rest).map (String.utf8EncodeChar (.ofNat unit) ++ ·)

def text? (literal : Literal) : Option String := (bytes? literal).bind Text.ofUtf8?

end Literal

inductive Node where
  | null
  | boolean (value : Bool)
  | number (numeral : Numeral)
  | string (literal : Literal)
  | list (items : List Node)
  | mapping (entries : List (Literal × Node))
deriving Inhabited

namespace Node

mutual
def value? : Node → Option Value
  | .null => some .null
  | .boolean value => some (.boolean value)
  | .number numeral => numeral.number?.map .number
  | .string literal => literal.text?.map .string
  | .list items => (values? items).map .list
  | .mapping entries => (entries? entries).map fun found => (Record.ofList found).toValue
def values? : List Node → Option (List Value)
  | [] => some []
  | item :: rest => do return (← item.value?) :: (← values? rest)
def entries? : List (Literal × Node) → Option (List (String × Value))
  | [] => some []
  | (key, item) :: rest => do return (← key.text?, ← item.value?) :: (← entries? rest)
end

end Node
end StartPage.Json
