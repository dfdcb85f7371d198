import StartPage.Value
import StartPage.Text.Bytes

/-!
Heads of MessagePack values. A head says everything about a scalar, and of a string, a byte
string, a list or a mapping how much follows. `Head.bytes` writes the shortest head there is,
save for doubles, which always take nine bytes; `readHead` accepts heads of every width.
Extension types and the one reserved byte have no head here.
-/
namespace StartPage.MessagePack

inductive Head where
  | scalar (value : Value)
  | text (length : Nat)
  | binary (length : Nat)
  | list (length : Nat)
  | mapping (length : Nat)
deriving DecidableEq, Inhabited

def bigEndian : Nat → Nat → Bytes
  | 0, _ => []
  | width + 1, n => bigEndian width (n / 256) ++ [UInt8.ofNat n]

def ofBigEndian (raw : Bytes) : Nat := raw.foldl (fun total byte => 256 * total + byte.toNat) 0

def take? : Nat → Bytes → Option (Bytes × Bytes)
  | 0, input => some ([], input)
  | _ + 1, [] => none
  | count + 1, byte :: input =>
    (take? count input).map fun (taken, rest) => (byte :: taken, rest)

def readNumber (width : Nat) (input : Bytes) : Option (Nat × Bytes) :=
  (take? width input).map fun (raw, rest) => (ofBigEndian raw, rest)

def integer (value : Int) : Head := .scalar (.number (.integer value))

/-- The signed number with the given bit pattern; `half` is the first pattern of a negative
one. -/
def signed (half pattern : Nat) : Int :=
  if pattern < half then pattern else (pattern : Int) - (2 * half : Nat)

/-- Infinities and NaNs have no value of their own and become null. -/
def double (bits : Nat) : Head :=
  let value : Binary64 := ⟨UInt64.ofNat bits⟩
  .scalar (if value.isFinite then .number (.double value) else .null)

def float (bits : Nat) : Head :=
  .scalar (((Binary64.ofBinary32? (UInt32.ofNat bits)).map fun value => .number (.double value)).getD
    .null)

def readWide (marker : Nat) (input : Bytes) : Option (Head × Bytes) :=
  let field (width : Nat) (head : Nat → Head) :=
    (readNumber width input).map fun (n, rest) => (head n, rest)
  match marker with
  | 0xC0 => some (.scalar .null, input)
  | 0xC2 => some (.scalar (.boolean false), input)
  | 0xC3 => some (.scalar (.boolean true), input)
  | 0xC4 => field 1 .binary
  | 0xC5 => field 2 .binary
  | 0xC6 => field 4 .binary
  | 0xCA => field 4 float
  | 0xCB => field 8 double
  | 0xCC => field 1 fun n => integer n
  | 0xCD => field 2 fun n => integer n
  | 0xCE => field 4 fun n => integer n
  | 0xCF => field 8 fun n => integer n
  | 0xD0 => field 1 fun n => integer (signed 0x80 n)
  | 0xD1 => field 2 fun n => integer (signed 0x8000 n)
  | 0xD2 => field 4 fun n => integer (signed 0x80000000 n)
  | 0xD3 => field 8 fun n => integer (signed 0x8000000000000000 n)
  | 0xD9 => field 1 .text
  | 0xDA => field 2 .text
  | 0xDB => field 4 .text
  | 0xDC => field 2 .list
  | 0xDD => field 4 .list
  | 0xDE => field 2 .mapping
  | 0xDF => field 4 .mapping
  | _ => none

def readHead : Bytes → Option (Head × Bytes)
  | [] => none
  | byte :: rest =>
    let marker := byte.toNat
    if marker < 0x80 then some (integer marker, rest)
    else if marker < 0x90 then some (.mapping (marker - 0x80), rest)
    else if marker < 0xA0 then some (.list (marker - 0x90), rest)
    else if marker < 0xC0 then some (.text (marker - 0xA0), rest)
    else if marker < 0xE0 then readWide marker rest
    else some (integer ((marker : Int) - 256), rest)

def marked (marker width n : Nat) : Bytes := UInt8.ofNat marker :: bigEndian width n

def integerBytes (value : Int) : Bytes :=
  if 0 ≤ value then
    let n := value.toNat
    if n < 0x80 then bigEndian 1 n
    else if n < 0x100 then marked 0xCC 1 n
    else if n < 0x10000 then marked 0xCD 2 n
    else if n < 0x100000000 then marked 0xCE 4 n
    else marked 0xCF 8 n
  else if -0x20 ≤ value then bigEndian 1 (value + 0x100).toNat
  else if -0x80 ≤ value then marked 0xD0 1 (value + 0x100).toNat
  else if -0x8000 ≤ value then marked 0xD1 2 (value + 0x10000).toNat
  else if -0x80000000 ≤ value then marked 0xD2 4 (value + 0x100000000).toNat
  else marked 0xD3 8 (value + 0x10000000000000000).toNat

def textBytes (length : Nat) : Bytes :=
  if length < 32 then bigEndian 1 (0xA0 + length)
  else if length < 0x100 then marked 0xD9 1 length
  else if length < 0x10000 then marked 0xDA 2 length
  else marked 0xDB 4 length

/-- The head of what holds so many others: `few` is the byte that holds the number itself. -/
def countedBytes (few marker length : Nat) : Bytes :=
  if length < 16 then bigEndian 1 (few + length)
  else if length < 0x10000 then marked marker 2 length
  else marked (marker + 1) 4 length

def listBytes : Nat → Bytes := countedBytes 0x90 0xDC

def mappingBytes : Nat → Bytes := countedBytes 0x80 0xDE

end StartPage.MessagePack
