/-!
Bytes, and text as bytes. `utf8` writes characters in their UTF-8 form and
`ofUtf8?` reads them back; a sequence that is not UTF-8 reads as no text at all.
-/
namespace StartPage

abbrev Bytes := List UInt8

namespace Text

def utf8 (text : List Char) : Bytes := text.flatMap String.utf8EncodeChar

def bytes (text : String) : Bytes := utf8 text.toList

def ofUtf8? (raw : Bytes) : Option String := String.fromUTF8? raw.toByteArray

@[simp] theorem utf8_nil : utf8 [] = [] := rfl

@[simp] theorem utf8_cons (c : Char) (text : List Char) :
    utf8 (c :: text) = String.utf8EncodeChar c ++ utf8 text := by simp [utf8]

@[simp] theorem utf8_append (front back : List Char) : utf8 (front ++ back) = utf8 front ++ utf8 back := by
  simp [utf8]

theorem toByteArray_bytes (text : String) : (bytes text).toByteArray = text.toByteArray := by
  rw [bytes, utf8, ← String.utf8Encode_toList]
  rfl

theorem ofUtf8?_bytes (text : String) : ofUtf8? (bytes text) = some text := by
  rw [ofUtf8?, toByteArray_bytes, String.fromUTF8?, dif_pos text.isValidUTF8]
  rfl

theorem eq_bytes_of_ofUtf8? {raw : Bytes} {text : String} (read : ofUtf8? raw = some text) :
    raw = bytes text := by
  rw [ofUtf8?, String.fromUTF8?] at read
  split at read
  · have same : raw.toByteArray = (bytes text).toByteArray := by
      rw [toByteArray_bytes, ← Option.some.inj read]
      rfl
    have data := congrArg (fun b => b.data.toList) same
    simpa using data
  · contradiction

end Text
end StartPage
