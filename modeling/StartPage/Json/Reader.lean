import StartPage.Json.Node

/-!
Reading JSON text. The reader works on bytes and gives a tree together with the bytes that
follow it; `read` asks that only blanks follow. Between tokens a blank is a space, a tab, a
line feed or a carriage return. A reader takes how many containers may be nested and how many
items each may hold, and refuses one more.
-/
namespace StartPage.Json

open Decimal (Numeral)

/-- The character of a byte; above ASCII it is none that JSON gives a meaning to. -/
def char (byte : UInt8) : Char := Char.ofUInt8 byte

def isBlank (byte : UInt8) : Bool :=
  char byte == ' ' || char byte == '\t' || char byte == '\n' || char byte == '\r'

def skipBlank (input : Bytes) : Bytes := input.dropWhile isBlank

def isDigit (byte : UInt8) : Bool := (char byte).isDigit

def digitValue (byte : UInt8) : Nat := byte.toNat - 48

def digits (input : Bytes) : List Nat × Bytes :=
  ((input.takeWhile isDigit).map digitValue, input.dropWhile isDigit)

def after? (expected : Char) : Bytes → Option Bytes
  | [] => none
  | byte :: rest => if char byte = expected then some rest else none

def afterWord? : List Char → Bytes → Option Bytes
  | [], input => some input
  | expected :: word, input => (after? expected input).bind (afterWord? word)

def readFraction (input : Bytes) : Option (List Nat × Bytes) :=
  match after? '.' input with
  | none => some ([], input)
  | some rest =>
    let (found, rest) := digits rest
    if found = [] then none else some (found, rest)

def ofDigits (found : List Nat) : Nat := found.foldl (fun total digit => 10 * total + digit) 0

def readExponent (input : Bytes) : Option (Option Int × Bytes) :=
  match (after? 'e' input).or (after? 'E' input) with
  | none => some (none, input)
  | some rest =>
    let (negative, rest) :=
      match after? '-' rest with
      | some rest => (true, rest)
      | none => (false, (after? '+' rest).getD rest)
    let (found, rest) := digits rest
    if found = [] then none
    else some (some (if negative then -(ofDigits found : Int) else ofDigits found), rest)

/-- A leading zero stands alone. -/
def readNumeral (input : Bytes) : Option (Numeral × Bytes) := do
  let (negative, rest) :=
    match after? '-' input with
    | some rest => (true, rest)
    | none => (false, input)
  let (whole, rest) := digits rest
  if whole = [] ∨ (whole.head? = some 0 ∧ whole.length ≠ 1) then none
  let (fraction, rest) ← readFraction rest
  let (exponent, rest) ← readExponent rest
  return (⟨negative, whole, fraction, exponent⟩, rest)

def hexValue? (byte : UInt8) : Option Nat :=
  let c := char byte
  if c.isDigit then some (c.toNat - '0'.toNat)
  else if 'a' ≤ c ∧ c ≤ 'f' then some (c.toNat - 'a'.toNat + 10)
  else if 'A' ≤ c ∧ c ≤ 'F' then some (c.toNat - 'A'.toNat + 10)
  else none

def hexUnit? (a b c d : UInt8) : Option Nat := do
  return (((← hexValue? a) * 16 + (← hexValue? b)) * 16 + (← hexValue? c)) * 16 + (← hexValue? d)

def shortEscape? (byte : UInt8) : Option UInt8 :=
  match char byte with
  | '"' | '\\' | '/' => some byte
  | 'b' => some 8
  | 'f' => some 12
  | 'n' => some 10
  | 'r' => some 13
  | 't' => some 9
  | _ => none

def readLiteral : Bytes → Option (Literal × Bytes)
  | [] => none
  | byte :: rest =>
    if char byte = '"' then some ([], rest)
    else if byte < 32 then none
    else if char byte = '\\' then
      match rest with
      | [] => none
      | escape :: rest =>
        match shortEscape? escape with
        | some value => (readLiteral rest).map fun (pieces, rest) => (.byte value :: pieces, rest)
        | none =>
          if char escape = 'u' then
            match rest with
            | a :: b :: c :: d :: rest => do
              let unit ← hexUnit? a b c d
              let (pieces, rest) ← readLiteral rest
              return (.unit unit :: pieces, rest)
            | _ => none
          else none
    else (readLiteral rest).map fun (pieces, rest) => (.byte byte :: pieces, rest)

/-- Items with commas between them, up to the closing character, and not more of them than
there is room for. -/
def readSeries {α : Type} (close : Char) (item : Bytes → Option (α × Bytes)) :
    Nat → Bytes → Option (List α × Bytes)
  | 0, _ => none
  | room + 1, input =>
    match item input with
    | none => none
    | some (first, rest) =>
      match skipBlank rest with
      | [] => none
      | byte :: rest =>
        if char byte = close then some ([first], rest)
        else if char byte = ',' then
          -- After a comma an item must follow, never the closing character.
          (readSeries close item room rest).map fun (others, rest) => (first :: others, rest)
        else none

def readContents {α : Type} (room : Nat) (close : Char) (item : Bytes → Option (α × Bytes))
    (input : Bytes) : Option (List α × Bytes) :=
  match after? close (skipBlank input) with
  | some rest => some ([], rest)
  | none => readSeries close item room input

def readEntry (item : Bytes → Option (Node × Bytes)) (input : Bytes) :
    Option ((Literal × Node) × Bytes) := do
  let rest ← after? '"' (skipBlank input)
  let (key, rest) ← readLiteral rest
  let rest ← after? ':' (skipBlank rest)
  let (value, rest) ← item rest
  return ((key, value), rest)

def readNode (room limit : Nat) (input : Bytes) : Option (Node × Bytes) :=
  match skipBlank input with
  | [] => none
  | byte :: rest =>
    match char byte with
    | 'n' => (afterWord? ['u', 'l', 'l'] rest).map fun rest => (.null, rest)
    | 't' => (afterWord? ['r', 'u', 'e'] rest).map fun rest => (.boolean true, rest)
    | 'f' => (afterWord? ['a', 'l', 's', 'e'] rest).map fun rest => (.boolean false, rest)
    | '"' => (readLiteral rest).map fun (pieces, rest) => (.string pieces, rest)
    | '[' =>
      match limit with
      | 0 => none
      | limit + 1 =>
        (readContents room ']' (readNode room limit) rest).map fun (items, rest) =>
          (.list items, rest)
    | '{' =>
      match limit with
      | 0 => none
      | limit + 1 =>
        (readContents room '}' (readEntry (readNode room limit)) rest).map fun (entries, rest) =>
          (.mapping entries, rest)
    | _ => (readNumeral (byte :: rest)).map fun (numeral, rest) => (.number numeral, rest)

/-- The tree of a whole text, blanks around it allowed. Every item takes a byte at least, so no
container holds more of them than the text has bytes. -/
def read (limit : Nat) (input : Bytes) : Option Node :=
  match readNode input.length limit input with
  | some (node, rest) => if skipBlank rest = [] then some node else none
  | none => none

def readValue (limit : Nat) (input : Bytes) : Option Value := (read limit input).bind Node.value?

end StartPage.Json
