import StartPage.Decimal.Shortest
import StartPage.Value

/-!
Writing JSON text. `compact` writes no blank at all; `pretty` indents by two spaces. Both
write the entries of a mapping in the order in which they stand. A string escapes the quote,
the backslash and the characters below the space, and nothing else.
-/
namespace StartPage.Json

/-- Doubles from 1e-5 up to 1e16 are written without an exponent. -/
def layout : Decimal.Layout := ⟨-5, 15⟩

def integerText (value : Int) : List Char :=
  if value < 0 then '-' :: Nat.toDigits 10 value.natAbs else Nat.toDigits 10 value.natAbs

def numberText : Number → List Char
  | .integer value => integerText value
  | .double value => layout.write value

def escape (c : Char) : List Char :=
  match c with
  | '"' => ['\\', '"']
  | '\\' => ['\\', '\\']
  | '\n' => ['\\', 'n']
  | '\r' => ['\\', 'r']
  | '\t' => ['\\', 't']
  | c =>
    if c.toNat = 8 then ['\\', 'b']
    else if c.toNat = 12 then ['\\', 'f']
    else if c.toNat < 32 then
      ['\\', 'u', '0', '0', Nat.digitChar (c.toNat / 16), Nat.digitChar (c.toNat % 16)]
    else [c]

def quoted (text : String) : List Char := '"' :: text.toList.flatMap escape ++ ['"']

mutual
def compact : Value → List Char
  | .null => ['n', 'u', 'l', 'l']
  | .boolean true => ['t', 'r', 'u', 'e']
  | .boolean false => ['f', 'a', 'l', 's', 'e']
  | .number number => numberText number
  | .string text => quoted text
  | .list items => '[' :: compactItems items ++ [']']
  | .mapping entries => '{' :: compactEntries entries ++ ['}']
def compactItems : List Value → List Char
  | [] => []
  | [item] => compact item
  | item :: next :: rest => compact item ++ ',' :: compactItems (next :: rest)
def compactEntries : List (String × Value) → List Char
  | [] => []
  | [(key, item)] => quoted key ++ ':' :: compact item
  | (key, item) :: next :: rest =>
    quoted key ++ ':' :: compact item ++ ',' :: compactEntries (next :: rest)
end

def newline (level : Nat) : List Char := '\n' :: List.replicate (2 * level) ' '

mutual
def prettyAt (level : Nat) : Value → List Char
  | .list [] => ['[', ']']
  | .list items => '[' :: prettyItems (level + 1) items ++ newline level ++ [']']
  | .mapping [] => ['{', '}']
  | .mapping entries => '{' :: prettyEntries (level + 1) entries ++ newline level ++ ['}']
  | .null => compact .null
  | .boolean value => compact (.boolean value)
  | .number number => compact (.number number)
  | .string text => compact (.string text)
def prettyItems (level : Nat) : List Value → List Char
  | [] => []
  | [item] => newline level ++ prettyAt level item
  | item :: next :: rest =>
    newline level ++ prettyAt level item ++ ',' :: prettyItems level (next :: rest)
def prettyEntries (level : Nat) : List (String × Value) → List Char
  | [] => []
  | [(key, item)] => newline level ++ quoted key ++ ':' :: ' ' :: prettyAt level item
  | (key, item) :: next :: rest =>
    newline level ++ quoted key ++ ':' :: ' ' :: prettyAt level item ++
      ',' :: prettyEntries level (next :: rest)
end

def text (value : Value) : String := String.ofList (compact value)

def prettyText (value : Value) : String := String.ofList (prettyAt 0 value)

end StartPage.Json
