import StartPage.MessagePack.Head

/-!
Writing MessagePack: every head in its shortest form, the entries of a mapping in the order
in which they stand. Lengths take at most four bytes, so those of 2^32 and more are not
written faithfully.
-/
namespace StartPage.MessagePack

def stringBytes (text : String) : Bytes :=
  let raw := Text.bytes text
  textBytes raw.length ++ raw

def numberBytes : Number → Bytes
  | .integer value => integerBytes value
  | .double value => marked 0xCB 8 value.bits.toNat

mutual
def bytes : Value → Bytes
  | .null => [0xC0]
  | .boolean false => [0xC2]
  | .boolean true => [0xC3]
  | .number number => numberBytes number
  | .string text => stringBytes text
  | .list items => listBytes items.length ++ itemBytes items
  | .mapping entries => mappingBytes entries.length ++ entryBytes entries
def itemBytes : List Value → Bytes
  | [] => []
  | item :: rest => bytes item ++ itemBytes rest
def entryBytes : List (String × Value) → Bytes
  | [] => []
  | (key, item) :: rest => stringBytes key ++ bytes item ++ entryBytes rest
end

end StartPage.MessagePack
