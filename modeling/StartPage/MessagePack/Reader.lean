import StartPage.MessagePack.Head
import StartPage.Record

/-!
Reading MessagePack. A key is a string; from the second entry of a mapping on it may also be
a byte string that holds UTF-8. The reader takes how many containers may be nested, and
gives the value together with the bytes after it.
-/
namespace StartPage.MessagePack

def readText (length : Nat) (input : Bytes) : Option (String × Bytes) := do
  let (raw, rest) ← take? length input
  let text ← Text.ofUtf8? raw
  return (text, rest)

def readKey (first : Bool) (input : Bytes) : Option (String × Bytes) :=
  match readHead input with
  | some (.text length, rest) => readText length rest
  | some (.binary length, rest) => if first then none else readText length rest
  | _ => none

def readItems (item : Bytes → Option (Value × Bytes)) : Nat → Bytes → Option (List Value × Bytes)
  | 0, input => some ([], input)
  | count + 1, input => do
    let (first, rest) ← item input
    let (others, rest) ← readItems item count rest
    return (first :: others, rest)

def readEntries (item : Bytes → Option (Value × Bytes)) (first : Bool) :
    Nat → Bytes → Option (List (String × Value) × Bytes)
  | 0, input => some ([], input)
  | count + 1, input => do
    let (key, rest) ← readKey first input
    let (value, rest) ← item rest
    let (others, rest) ← readEntries item false count rest
    return ((key, value) :: others, rest)

def readValue (limit : Nat) (input : Bytes) : Option (Value × Bytes) :=
  match readHead input with
  | none => none
  | some (.scalar value, rest) => some (value, rest)
  | some (.text length, rest) => (readText length rest).map fun (text, rest) => (.string text, rest)
  | some (.binary _, _) => none
  | some (.list length, rest) =>
    match limit with
    | 0 => none
    | limit + 1 =>
      (readItems (readValue limit) length rest).map fun (items, rest) => (.list items, rest)
  | some (.mapping length, rest) =>
    match limit with
    | 0 => none
    | limit + 1 =>
      (readEntries (readValue limit) true length rest).map fun (entries, rest) =>
        ((Record.ofList entries).toValue, rest)

end StartPage.MessagePack
