import StartPage.Codec
import StartPage.Proofs.Record

/-!
Reading back the MessagePack bytes of a record, whatever bytes follow them. A head is read as it
was written when its number fits the bytes it is given, so every length must take four bytes at
most.
-/
namespace StartPage

namespace MessagePack

section Bytes

theorem length_bigEndian (width n : Nat) : (bigEndian width n).length = width := by
  induction width generalizing n with
  | zero => rfl
  | succ width ih => rw [bigEndian, List.length_append, ih, List.length_singleton]

theorem ofBigEndian_concat (raw : Bytes) (byte : UInt8) :
    ofBigEndian (raw ++ [byte]) = 256 * ofBigEndian raw + byte.toNat := by
  rw [ofBigEndian, List.foldl_append]
  rfl

theorem ofBigEndian_bigEndian {width n : Nat} (small : n < 256 ^ width) :
    ofBigEndian (bigEndian width n) = n := by
  induction width generalizing n with
  | zero =>
    rw [Nat.pow_zero, Nat.lt_one_iff] at small
    rw [bigEndian, small]
    rfl
  | succ width ih =>
    have quotient : n / 256 < 256 ^ width := Nat.div_lt_of_lt_mul (by rwa [Nat.pow_succ'] at small)
    have digit : (UInt8.ofNat n).toNat = n % 256 := UInt8.toNat_ofNat'
    rw [bigEndian, ofBigEndian_concat, ih quotient, digit, Nat.div_add_mod]

theorem take?_append (raw rest : Bytes) : take? raw.length (raw ++ rest) = some (raw, rest) := by
  induction raw with
  | nil => rfl
  | cons byte raw ih => rw [List.cons_append, List.length_cons, take?, ih]; rfl

theorem readNumber_bigEndian {width n : Nat} (small : n < 256 ^ width) (rest : Bytes) :
    readNumber width (bigEndian width n ++ rest) = some (n, rest) := by
  have taken := take?_append (bigEndian width n) rest
  rw [length_bigEndian] at taken
  simp only [readNumber, taken, Option.map_some, ofBigEndian_bigEndian small]

end Bytes

section Heads

variable {n : Nat} (rest : Bytes)

theorem readHead_byte (small : n < 0x100) :
    readHead (bigEndian 1 n ++ rest) =
      if n < 0x80 then some (integer n, rest)
      else if n < 0x90 then some (.mapping (n - 0x80), rest)
      else if n < 0xA0 then some (.list (n - 0x90), rest)
      else if n < 0xC0 then some (.text (n - 0xA0), rest)
      else if n < 0xE0 then readWide n rest
      else some (integer ((n : Int) - 256), rest) := by
  have marker : (UInt8.ofNat n).toNat = n := UInt8.toNat_ofNat_of_lt' small
  rw [bigEndian, bigEndian, List.nil_append, List.singleton_append, readHead]
  simp only [marker]

theorem readHead_marked {marker width : Nat} (head : Nat → Head)
    (wide : 0xC0 ≤ marker ∧ marker < 0xE0)
    (reads : ∀ input,
      readWide marker input = (readNumber width input).map fun (n, rest) => (head n, rest))
    (small : n < 256 ^ width) :
    readHead (marked marker width n ++ rest) = some (head n, rest) := by
  have byte := readHead_byte (n := marker) (bigEndian width n ++ rest) (by omega)
  -- Markers with a number behind them lie above those that hold their number themselves.
  rw [if_neg (by omega), if_neg (by omega), if_neg (by omega), if_neg (by omega), if_pos wide.2,
    reads, readNumber_bigEndian small] at byte
  exact byte

theorem readHead_textBytes (fits : n < 2 ^ 32) :
    readHead (textBytes n ++ rest) = some (.text n, rest) := by
  rw [textBytes]
  split
  · rw [readHead_byte rest (by omega), if_neg (by omega), if_neg (by omega), if_neg (by omega),
      if_pos (by omega), Nat.add_sub_cancel_left]
  · split
    · exact readHead_marked rest .text (by decide) (fun _ => rfl) (by omega)
    · split
      · exact readHead_marked rest .text (by decide) (fun _ => rfl) (by omega)
      · exact readHead_marked rest .text (by decide) (fun _ => rfl) (by omega)

theorem readHead_countedBytes {few marker : Nat} (head : Nat → Head)
    (single : n < 16 → readHead (bigEndian 1 (few + n) ++ rest) = some (head n, rest))
    (wide : 0xC0 ≤ marker ∧ marker + 1 < 0xE0)
    (reads : ∀ input,
      readWide marker input = (readNumber 2 input).map (fun (n, rest) => (head n, rest)) ∧
        readWide (marker + 1) input = (readNumber 4 input).map fun (n, rest) => (head n, rest))
    (fits : n < 2 ^ 32) :
    readHead (countedBytes few marker n ++ rest) = some (head n, rest) := by
  rw [countedBytes]
  split
  · exact single (by assumption)
  · split
    · exact readHead_marked rest head (by omega) (fun input => (reads input).1) (by omega)
    · exact readHead_marked rest head (by omega) (fun input => (reads input).2) (by omega)

theorem readHead_listBytes (fits : n < 2 ^ 32) :
    readHead (listBytes n ++ rest) = some (.list n, rest) := by
  refine readHead_countedBytes rest .list (fun small => ?_) (by decide) (fun _ => ⟨rfl, rfl⟩) fits
  rw [readHead_byte rest (by omega), if_neg (by omega), if_neg (by omega), if_pos (by omega),
    Nat.add_sub_cancel_left]

theorem readHead_mappingBytes (fits : n < 2 ^ 32) :
    readHead (mappingBytes n ++ rest) = some (.mapping n, rest) := by
  refine readHead_countedBytes rest .mapping (fun small => ?_) (by decide) (fun _ => ⟨rfl, rfl⟩) fits
  rw [readHead_byte rest (by omega), if_neg (by omega), if_pos (by omega), Nat.add_sub_cancel_left]

theorem readHead_negative {marker width : Nat} (half : Nat) {value : Int}
    (wide : 0xC0 ≤ marker ∧ marker < 0xE0)
    (reads : ∀ input, readWide marker input =
      (readNumber width input).map fun (n, rest) => (integer (signed half n), rest))
    (patterns : 2 * half = 256 ^ width) (negative : value < 0) (range : -half ≤ value) :
    readHead (marked marker width (value + (2 * half : Nat)).toNat ++ rest) =
      some (integer value, rest) := by
  have pattern : signed half (value + (2 * half : Nat)).toNat = value := by
    rw [signed, if_neg (by omega)]
    omega
  have small : (value + (2 * half : Nat)).toNat < 256 ^ width := by omega
  have read := readHead_marked rest (fun n => integer (signed half n)) wide reads small
  rwa [pattern] at read

theorem readHead_integerBytes {value : Int}
    (whole : -0x8000000000000000 ≤ value ∧ value < 0x10000000000000000) :
    readHead (integerBytes value ++ rest) = some (integer value, rest) := by
  rw [integerBytes]
  split
  case isTrue natural =>
    have same : integer value = integer value.toNat := by
      rw [Int.toNat_of_nonneg natural]
    rw [same]
    dsimp only
    split
    · rw [readHead_byte rest (by omega), if_pos (by omega)]
    · split
      · exact readHead_marked rest (fun n => integer n) (by decide) (fun _ => rfl) (by omega)
      · split
        · exact readHead_marked rest (fun n => integer n) (by decide) (fun _ => rfl) (by omega)
        · split
          · exact readHead_marked rest (fun n => integer n) (by decide) (fun _ => rfl) (by omega)
          · exact readHead_marked rest (fun n => integer n) (by decide) (fun _ => rfl) (by omega)
  case isFalse negative =>
    have below : value < 0 := Int.not_le.mp negative
    split
    · rw [readHead_byte rest (by omega), if_neg (by omega), if_neg (by omega), if_neg (by omega),
        if_neg (by omega), if_neg (by omega)]
      congr 3
      omega
    · split
      · exact readHead_negative rest 0x80 (by decide) (fun _ => rfl) rfl below (by omega)
      · split
        · exact readHead_negative rest 0x8000 (by decide) (fun _ => rfl) rfl below (by omega)
        · split
          · exact readHead_negative rest 0x80000000 (by decide) (fun _ => rfl) rfl below (by omega)
          · exact readHead_negative rest 0x8000000000000000 (by decide) (fun _ => rfl) rfl below
              whole.1

end Heads

section Values

theorem readText_bytes (text : String) (rest : Bytes) :
    readText (Text.bytes text).length (Text.bytes text ++ rest) = some (text, rest) := by
  rw [readText, take?_append]
  simp only [Option.bind_eq_bind, Option.bind_some, Text.ofUtf8?_bytes]
  rfl

theorem readKey_stringBytes {text : String} (fits : (Text.bytes text).length < 2 ^ 32)
    (first : Bool) (rest : Bytes) : readKey first (stringBytes text ++ rest) = some (text, rest) := by
  rw [stringBytes, List.append_assoc, readKey, readHead_textBytes _ fits]
  exact readText_bytes text rest

variable {item : Bytes → Option (Value × Bytes)}

theorem readItems_itemBytes {items : List Value}
    (each : ∀ value ∈ items, ∀ rest, item (bytes value ++ rest) = some (value, rest))
    (rest : Bytes) : readItems item items.length (itemBytes items ++ rest) = some (items, rest) := by
  induction items with
  | nil => rfl
  | cons first items ih =>
    have others := ih fun value member => each value (List.mem_cons_of_mem _ member)
    rw [itemBytes, List.append_assoc, List.length_cons, readItems, each first List.mem_cons_self]
    simp only [Option.bind_eq_bind, Option.bind_some, others]
    rfl

theorem readEntries_entryBytes {entries : List (String × Value)}
    (keys : ∀ entry ∈ entries, (Text.bytes entry.1).length < 2 ^ 32)
    (each : ∀ entry ∈ entries, ∀ rest, item (bytes entry.2 ++ rest) = some (entry.2, rest))
    (first : Bool) (rest : Bytes) :
    readEntries item first entries.length (entryBytes entries ++ rest) = some (entries, rest) := by
  induction entries generalizing first with
  | nil => rfl
  | cons entry entries ih =>
    obtain ⟨key, value⟩ := entry
    have others := ih (fun entry member => keys entry (List.mem_cons_of_mem _ member))
      (fun entry member => each entry (List.mem_cons_of_mem _ member)) false
    rw [entryBytes, List.append_assoc, List.append_assoc, List.length_cons, readEntries,
      readKey_stringBytes (keys (key, value) List.mem_cons_self)]
    simp only [Option.bind_eq_bind, Option.bind_some, each (key, value) List.mem_cons_self, others]
    rfl

/-- A value is read back from its bytes, and nothing beyond them is read. -/
theorem readValue_bytes (value : Value) (whole : value.WholeNumbers) (ascend : value.Ascending)
    (fit : value.LengthsFit) {limit : Nat} (flat : value.depth ≤ limit) (rest : Bytes) :
    readValue limit (bytes value ++ rest) = some (value, rest) := by
  induction value using Value.induction generalizing limit rest with
  | null =>
    rw [readValue.eq_def]
    rfl
  | boolean value =>
    rw [readValue.eq_def]
    cases value <;> rfl
  | number number =>
    cases number with
    | double value => exact whole.elim
    | integer value =>
      rw [bytes, numberBytes, readValue.eq_def, readHead_integerBytes rest whole]
      rfl
  | string text =>
    rw [bytes, stringBytes, List.append_assoc, readValue.eq_def, readHead_textBytes _ fit]
    simp only [readText_bytes]
    rfl
  | list items ih =>
    obtain ⟨limit, rfl⟩ : ∃ n, limit = n + 1 := Nat.exists_eq_add_one.mpr (Nat.zero_lt_of_lt flat)
    have each : ∀ item ∈ items, ∀ rest,
        readValue limit (bytes item ++ rest) = some (item, rest) := by
      intro item member rest
      exact ih item member (Value.itemsWhole_iff.mp whole item member)
        (Value.itemsAscending_iff.mp ascend item member)
        (Value.itemLengthsFit_iff.mp fit.2 item member)
        (Value.depthOfItems_le_iff.mp (Nat.le_of_succ_le_succ flat) item member) rest
    rw [bytes, List.append_assoc, readValue.eq_def, readHead_listBytes _ fit.1]
    simp only [readItems_itemBytes each]
    rfl
  | mapping entries ih =>
    obtain ⟨limit, rfl⟩ : ∃ n, limit = n + 1 := Nat.exists_eq_add_one.mpr (Nat.zero_lt_of_lt flat)
    have lengths := Value.entryLengthsFit_iff.mp fit.2
    have each : ∀ entry ∈ entries, ∀ rest,
        readValue limit (bytes entry.2 ++ rest) = some (entry.2, rest) := by
      intro entry member rest
      exact ih entry member (Value.entriesWhole_iff.mp whole entry member)
        (Value.entriesAscending_iff.mp ascend.2 entry member) (lengths entry member).2
        (Value.depthOfEntries_le_iff.mp (Nat.le_of_succ_le_succ flat) entry member) rest
    rw [bytes, List.append_assoc, readValue.eq_def, readHead_mappingBytes _ fit.1]
    simp only [readEntries_entryBytes (fun entry member => (lengths entry member).1) each,
      Option.map_some, Record.ofList_of_keysAscend ascend.1]
    rfl

end Values

section Documents

variable {record : Record}

/-- A record comes back from its bytes, whatever follows them. -/
theorem decode_encode (whole : record.WholeNumbers) (ascend : record.Ascending)
    (fit : record.LengthsFit) (flat : record.depth ≤ depthLimit) (rest : Bytes) :
    decode (encode record ++ rest) = .ok record := by
  have read : readValue depthLimit (encode record ++ rest) = some (record.toValue, rest) :=
    readValue_bytes record.toValue whole ascend fit flat rest
  -- No bytes at all are not a value, so what was read is not empty.
  have filled : encode record ++ rest ≠ [] := by
    intro none
    rw [none, readValue.eq_def] at read
    cases read
  rw [decode, if_neg filled, read]
  rfl

end Documents

end MessagePack
end StartPage
