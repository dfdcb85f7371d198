import StartPage.Error
import StartPage.Json.Printer
import StartPage.Json.Reader
import StartPage.MessagePack.Printer
import StartPage.MessagePack.Reader
import StartPage.Text.Blank

/-!
Records as bytes. A codec may refuse to encode; the two built-in ones never do. Decoding
refuses no bytes, bytes that are not well formed, and a value that is not a mapping, in this
order. JSON nests at most 127 containers, MessagePack 1023; JSON allows blanks after the
value, MessagePack any bytes at all.
-/
namespace StartPage

def Format.parse (text : String) : Except ConfigError Format :=
  let name := Text.lower text
  if name = "json" then .ok .json
  else if name = "msgpack" ∨ name = "messagepack" then .ok .messagePack
  else .error (.unknownFormat name)

structure Codec where
  encode : Record → Option Bytes
  decode : Bytes → Except DecodeError Record

namespace Codec

/-- A whole document must be a mapping. -/
def record : Value → Except DecodeError Record
  | .mapping entries => .ok ⟨entries⟩
  | value => .error (.notMapping value.kind)

end Codec

namespace Json

def depthLimit : Nat := 127

/-- Blanks that leave a text empty: those between tokens, and the form feed. -/
def isEmptyByte (byte : UInt8) : Bool := isBlank byte || byte == 12

def encode (record : Record) : Bytes := Text.utf8 (compact record.toValue)

def decode (input : Bytes) : Except DecodeError Record :=
  if input.all isEmptyByte then .error .empty
  else
    match readValue depthLimit input with
    | none => .error (.malformed .json)
    | some value => Codec.record value

end Json

namespace MessagePack

def depthLimit : Nat := 1023

def encode (record : Record) : Bytes := bytes record.toValue

def decode (input : Bytes) : Except DecodeError Record :=
  if input = [] then .error .empty
  else
    match readValue depthLimit input with
    | none => .error (.malformed .messagePack)
    | some (value, _) => Codec.record value

end MessagePack

def Format.codec : Format → Codec
  | .json => ⟨fun record => some (Json.encode record), Json.decode⟩
  | .messagePack => ⟨fun record => some (MessagePack.encode record), MessagePack.decode⟩

end StartPage
