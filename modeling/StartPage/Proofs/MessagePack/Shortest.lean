import Mathlib.Data.List.Perm.Subperm
import StartPage.Proofs.MessagePack.RoundTrip

/-!
A record's bytes are the fewest that decode to it. A reader takes heads of every width, byte
strings as keys and keys that are repeated; none of these saves a byte over what is written. Only a
double may be shorter than it is written, as a float of four bytes.
-/
namespace StartPage.MessagePack

section Heads

variable {input rest : Bytes} {head : Head}

/-- How many bytes a head takes at least; what a double takes need not be known. -/
def Head.least : Head → Nat
  | .scalar (.number (.double _)) => 1
  | .scalar value => (bytes value).length
  | .text length | .binary length => (textBytes length).length
  | .list length => (listBytes length).length
  | .mapping length => (mappingBytes length).length

theorem least_integer (value : Int) : (integer value).least = (integerBytes value).length := rfl

theorem length_marked (marker width n : Nat) : (marked marker width n).length = width + 1 := by
  rw [marked, List.length_cons, length_bigEndian]

theorem take?_exact {count : Nat} {raw : Bytes} (read : take? count input = some (raw, rest)) :
    raw.length = count ∧ input = raw ++ rest := by
  induction count generalizing input raw with
  | zero =>
    cases read
    exact ⟨rfl, rfl⟩
  | succ count ih =>
    cases input with
    | nil => cases read
    | cons byte input =>
      rw [take?, Option.map_eq_some_iff] at read
      obtain ⟨⟨taken, left⟩, read, made⟩ := read
      cases made
      obtain ⟨count, rfl⟩ := ih read
      exact ⟨congrArg (· + 1) count, rfl⟩

theorem ofBigEndian_lt (raw : Bytes) : ofBigEndian raw < 256 ^ raw.length := by
  induction raw using List.reverseRecOn with
  | nil => decide
  | append_singleton raw byte ih =>
    rw [ofBigEndian_concat, List.length_append, List.length_singleton, Nat.pow_succ]
    have small := byte.toNat_lt
    omega

theorem readNumber_exact {width n : Nat} (read : readNumber width input = some (n, rest)) :
    n < 256 ^ width ∧ input.length = width + rest.length := by
  rw [readNumber, Option.map_eq_some_iff] at read
  obtain ⟨⟨raw, left⟩, taken, made⟩ := read
  cases made
  obtain ⟨rfl, rfl⟩ := take?_exact taken
  exact ⟨ofBigEndian_lt raw, List.length_append⟩

theorem readField_least {width : Nat} {make : Nat → Head}
    (each : ∀ n < 256 ^ width, (make n).least ≤ width + 1)
    (read : (readNumber width input).map (fun (n, rest) => (make n, rest)) = some (head, rest)) :
    head.least + rest.length ≤ input.length + 1 := by
  obtain ⟨⟨n, left⟩, read, made⟩ := Option.map_eq_some_iff.mp read
  cases made
  obtain ⟨small, length⟩ := readNumber_exact read
  have least := each n small
  omega

theorem length_textBytes {n width : Nat} (wide : width = 1 ∨ width = 2 ∨ width = 4)
    (small : n < 256 ^ width) : (textBytes n).length ≤ width + 1 := by
  rw [textBytes]
  rcases wide with rfl | rfl | rfl <;> split_ifs <;>
    simp only [length_bigEndian, length_marked] <;> omega

theorem length_countedBytes {few marker n width : Nat} (wide : width = 2 ∨ width = 4)
    (small : n < 256 ^ width) : (countedBytes few marker n).length ≤ width + 1 := by
  rw [countedBytes]
  rcases wide with rfl | rfl <;> split_ifs <;>
    simp only [length_bigEndian, length_marked] <;> omega

theorem length_countedBytes_few {few marker n : Nat} (small : n < 16) :
    (countedBytes few marker n).length = 1 := by
  rw [countedBytes, if_pos small, length_bigEndian]

theorem length_integerBytes {value : Int} {width : Nat}
    (wide : width = 1 ∨ width = 2 ∨ width = 4 ∨ width = 8)
    (low : -(256 ^ width : Nat) ≤ 2 * value) (high : value < (256 ^ width : Nat)) :
    (integerBytes value).length ≤ width + 1 := by
  simp only [integerBytes]
  rcases wide with rfl | rfl | rfl | rfl <;> split_ifs <;>
    simp only [length_bigEndian, length_marked] <;> omega

theorem signed_bounds {half pattern : Nat} (small : pattern < 2 * half) :
    -(2 * half : Nat) ≤ 2 * signed half pattern ∧ signed half pattern < (2 * half : Nat) := by
  rw [signed]
  split <;> omega

theorem least_unsigned {n width : Nat} (wide : width = 1 ∨ width = 2 ∨ width = 4 ∨ width = 8)
    (small : n < 256 ^ width) : (integer n).least ≤ width + 1 := by
  rw [least_integer]
  exact length_integerBytes wide (by omega) (by exact_mod_cast small)

theorem least_signed {n width half : Nat} (wide : width = 1 ∨ width = 2 ∨ width = 4 ∨ width = 8)
    (patterns : 2 * half = 256 ^ width) (small : n < 256 ^ width) :
    (integer (signed half n)).least ≤ width + 1 := by
  have bounds := signed_bounds (patterns.symm ▸ small)
  rw [patterns] at bounds
  rw [least_integer]
  exact length_integerBytes wide bounds.1 bounds.2

theorem least_float (bits : Nat) : (float bits).least = 1 := by
  rw [float]
  cases Binary64.ofBinary32? (UInt32.ofNat bits) <;> rfl

theorem least_double (bits : Nat) : (double bits).least = 1 := by
  simp only [double]
  split <;> rfl

theorem readWide_least {marker : Nat} (read : readWide marker input = some (head, rest)) :
    head.least + rest.length ≤ input.length + 1 := by
  fun_cases readWide marker input with
  | case1 | case2 | case3 =>
    cases read
    exact Nat.le_of_eq (Nat.add_comm _ _)
  | case4 => exact readField_least (fun _ small => length_textBytes (by simp) small) read
  | case5 => exact readField_least (fun _ small => length_textBytes (by simp) small) read
  | case6 => exact readField_least (fun _ small => length_textBytes (by simp) small) read
  | case7 => exact readField_least (fun n _ => le_of_eq_of_le (least_float n) (by decide)) read
  | case8 => exact readField_least (fun n _ => le_of_eq_of_le (least_double n) (by decide)) read
  | case9 => exact readField_least (fun _ small => least_unsigned (by simp) small) read
  | case10 => exact readField_least (fun _ small => least_unsigned (by simp) small) read
  | case11 => exact readField_least (fun _ small => least_unsigned (by simp) small) read
  | case12 => exact readField_least (fun _ small => least_unsigned (by simp) small) read
  | case13 => exact readField_least (fun _ small => least_signed (by simp) rfl small) read
  | case14 => exact readField_least (fun _ small => least_signed (by simp) rfl small) read
  | case15 => exact readField_least (fun _ small => least_signed (by simp) rfl small) read
  | case16 => exact readField_least (fun _ small => least_signed (by simp) rfl small) read
  | case17 => exact readField_least (fun _ small => length_textBytes (by simp) small) read
  | case18 => exact readField_least (fun _ small => length_textBytes (by simp) small) read
  | case19 => exact readField_least (fun _ small => length_textBytes (by simp) small) read
  | case20 => exact readField_least (fun _ small => length_countedBytes (by simp) small) read
  | case21 => exact readField_least (fun _ small => length_countedBytes (by simp) small) read
  | case22 => exact readField_least (fun _ small => length_countedBytes (by simp) small) read
  | case23 => exact readField_least (fun _ small => length_countedBytes (by simp) small) read
  | case24 => simp_all [readWide]

theorem least_single {value : Int} (low : -0x20 ≤ value) (high : value < 0x80) :
    (integer value).least = 1 := by
  rw [least_integer, integerBytes]
  by_cases natural : 0 ≤ value
  · have small : value.toNat < 0x80 := by omega
    simp only [if_pos natural, if_pos small, length_bigEndian]
  · rw [if_neg natural, if_pos low, length_bigEndian]

theorem readHead_least (read : readHead input = some (head, rest)) :
    head.least + rest.length ≤ input.length := by
  cases input with
  | nil => cases read
  | cons byte input =>
    have small := byte.toNat_lt
    have one {head : Head} (single : head.least = 1) :
        head.least + input.length ≤ (byte :: input).length := by
      rw [single, Nat.add_comm]
      exact Nat.le_refl _
    simp only [readHead] at read
    split_ifs at read with natural mapping list text wide
    · cases read
      exact one (least_single (by omega) (by omega))
    · cases read
      exact one (by rw [Head.least, mappingBytes, length_countedBytes_few (by omega)])
    · cases read
      exact one (by rw [Head.least, listBytes, length_countedBytes_few (by omega)])
    · cases read
      exact one (by rw [Head.least, textBytes, if_pos (by omega), length_bigEndian])
    · exact readWide_least read
    · cases read
      exact one (least_single (by omega) (by omega))

end Heads

section Values

variable {input rest : Bytes}

theorem readText_exact {length : Nat} {text : String} (read : readText length input = some (text, rest)) :
    (Text.bytes text).length = length ∧ input.length = length + rest.length := by
  simp only [readText, Option.bind_eq_bind, Option.bind_eq_some_iff] at read
  obtain ⟨⟨raw, left⟩, taken, found, decoded, made⟩ := read
  cases made
  obtain ⟨rfl, rfl⟩ := take?_exact taken
  rw [← Text.eq_bytes_of_ofUtf8? decoded]
  exact ⟨rfl, List.length_append⟩

theorem length_stringBytes (text : String) :
    (stringBytes text).length = (textBytes (Text.bytes text).length).length + (Text.bytes text).length := by
  rw [stringBytes, List.length_append]

theorem readKey_length {first : Bool} {key : String} (read : readKey first input = some (key, rest)) :
    (stringBytes key).length + rest.length ≤ input.length := by
  have behind {length : Nat} {left : Bytes}
      (least : (textBytes length).length + left.length ≤ input.length)
      (text : readText length left = some (key, rest)) :
      (stringBytes key).length + rest.length ≤ input.length := by
    obtain ⟨rfl, exact⟩ := readText_exact text
    rw [length_stringBytes]
    omega
  rw [readKey] at read
  cases begun : readHead input with
  | none => simp [begun] at read
  | some found =>
    obtain ⟨head, left⟩ := found
    have least := readHead_least begun
    rw [begun] at read
    cases head with
    | text length => exact behind least read
    | binary length =>
      cases first with
      | true => cases read
      | false => exact behind least read
    | scalar value => cases read
    | list length => cases read
    | mapping length => cases read

/-- A reader takes no fewer bytes than a value without doubles is written in. -/
def Thrifty (item : Bytes → Option (Value × Bytes)) : Prop :=
  ∀ input value rest, item input = some (value, rest) → rest.length ≤ input.length ∧
    (value.WholeNumbers → (bytes value).length + rest.length ≤ input.length)

variable {item : Bytes → Option (Value × Bytes)}

theorem readItems_succ {count : Nat} {items : List Value}
    (read : readItems item (count + 1) input = some (items, rest)) :
    ∃ first others middle, items = first :: others ∧ item input = some (first, middle) ∧
      readItems item count middle = some (others, rest) := by
  simp only [readItems, Option.bind_eq_bind, Option.bind_eq_some_iff] at read
  obtain ⟨⟨first, middle⟩, firstRead, ⟨others, left⟩, othersRead, made⟩ := read
  cases made
  exact ⟨first, others, middle, rfl, firstRead, othersRead⟩

theorem readEntries_succ {first : Bool} {count : Nat} {found : List (String × Value)}
    (read : readEntries item first (count + 1) input = some (found, rest)) :
    ∃ key value others behind middle, found = (key, value) :: others ∧
      readKey first input = some (key, behind) ∧ item behind = some (value, middle) ∧
      readEntries item false count middle = some (others, rest) := by
  simp only [readEntries, Option.bind_eq_bind, Option.bind_eq_some_iff] at read
  obtain ⟨⟨key, behind⟩, keyRead, ⟨value, middle⟩, valueRead, ⟨others, left⟩, othersRead, made⟩ := read
  cases made
  exact ⟨key, value, others, behind, middle, rfl, keyRead, valueRead, othersRead⟩

theorem Thrifty.items (thrifty : Thrifty item) {count : Nat} {items : List Value}
    (read : readItems item count input = some (items, rest)) :
    items.length = count ∧ rest.length ≤ input.length ∧
      ((∀ value ∈ items, value.WholeNumbers) →
        (itemBytes items).length + rest.length ≤ input.length) := by
  induction count generalizing input items with
  | zero =>
    cases read
    exact ⟨rfl, Nat.le_refl _, fun _ => Nat.le_of_eq (Nat.zero_add _)⟩
  | succ count ih =>
    obtain ⟨first, others, middle, rfl, firstRead, othersRead⟩ := readItems_succ read
    obtain ⟨shrinks, short⟩ := thrifty _ _ _ firstRead
    obtain ⟨rfl, further, tail⟩ := ih othersRead
    refine ⟨rfl, Nat.le_trans further shrinks, fun whole => ?_⟩
    obtain ⟨wholeFirst, wholeOthers⟩ := List.forall_mem_cons.mp whole
    have head := short wholeFirst
    have rest := tail wholeOthers
    rw [itemBytes, List.length_append]
    omega

theorem Thrifty.entries (thrifty : Thrifty item) {first : Bool} {count : Nat}
    {found kept : List (String × Value)} (read : readEntries item first count input = some (found, rest))
    (sub : kept.Sublist found) (whole : ∀ entry ∈ kept, entry.2.WholeNumbers) :
    found.length = count ∧ (entryBytes kept).length + rest.length ≤ input.length := by
  induction count generalizing input found kept first with
  | zero =>
    cases read
    rw [List.sublist_nil.mp sub]
    exact ⟨rfl, Nat.le_of_eq (Nat.zero_add _)⟩
  | succ count ih =>
    obtain ⟨key, value, others, behind, middle, rfl, keyRead, valueRead, othersRead⟩ :=
      readEntries_succ read
    have keyShort := readKey_length keyRead
    obtain ⟨shrinks, short⟩ := thrifty _ _ _ valueRead
    cases sub with
    | cons _ sub =>
      obtain ⟨rfl, tail⟩ := ih othersRead sub whole
      exact ⟨rfl, by omega⟩
    | cons_cons _ sub =>
      obtain ⟨wholeFirst, wholeOthers⟩ := List.forall_mem_cons.mp whole
      obtain ⟨rfl, tail⟩ := ih othersRead sub wholeOthers
      have head := short wholeFirst
      refine ⟨rfl, ?_⟩
      rw [entryBytes, List.length_append, List.length_append]
      omega

end Values

section Mappings

/-- Placing an entry keeps no entry twice and makes up none. -/
theorem place_subperm (key : String) (value : Value) (entries : List (String × Value)) :
    (Record.place key value entries).Subperm ((key, value) :: entries) := by
  induction entries with
  | nil => exact .refl _
  | cons entry rest ih =>
    rw [Record.place]
    split
    case isTrue => exact ((List.sublist_cons_self entry rest).cons_cons _).subperm
    case isFalse =>
      split
      case isTrue => exact .refl _
      case isFalse =>
        exact ((List.subperm_cons entry).mpr ih).trans (List.Perm.swap _ _ _).subperm

theorem ofList_subperm (entries : List (String × Value)) :
    (Record.ofList entries).entries.Subperm entries := by
  have built (start : Record) :
      (entries.foldl (fun record entry => record.insert entry.1 entry.2) start).entries.Subperm
        (start.entries ++ entries) := by
    induction entries generalizing start with
    | nil => rw [List.append_nil]; exact .refl _
    | cons entry entries ih =>
      refine (ih (start.insert entry.1 entry.2)).trans ?_
      have placed := place_subperm entry.1 entry.2 start.entries
      exact ((List.subperm_append_right entries).mpr placed).trans List.perm_middle.symm.subperm
  exact built {}

theorem length_entryBytes_perm {entries other : List (String × Value)} (perm : entries.Perm other) :
    (entryBytes entries).length = (entryBytes other).length := by
  induction perm with
  | nil => rfl
  | cons entry perm ih => simp only [entryBytes, List.length_append, ih]
  | swap first second rest =>
    simp only [entryBytes, List.length_append]
    omega
  | trans _ _ front back => exact front.trans back

theorem mappingBytes_mono {less more : Nat} (le : less ≤ more) :
    (mappingBytes less).length ≤ (mappingBytes more).length := by
  rw [mappingBytes, countedBytes, countedBytes]
  split_ifs <;> simp only [length_bigEndian, length_marked] <;> omega

theorem least_scalar {value : Value} (whole : value.WholeNumbers) :
    (Head.scalar value).least = (bytes value).length := by
  cases value with
  | number number =>
    cases number with
    | integer value => rfl
    | double value => exact whole.elim
  | _ => rfl

/-- Whatever a value is read from, it takes no fewer bytes than writing the value. -/
theorem thrifty_readValue (limit : Nat) : Thrifty (readValue limit) := by
  induction limit using Nat.strongRecOn with
  | ind limit ih =>
    intro input value rest read
    rw [readValue.eq_def] at read
    cases begun : readHead input with
    | none => simp [begun] at read
    | some found =>
      obtain ⟨head, left⟩ := found
      have least := readHead_least begun
      rw [begun] at read
      cases head with
      | scalar value =>
        cases read
        exact ⟨by omega, fun whole => least_scalar whole ▸ least⟩
      | text length =>
        obtain ⟨⟨text, after⟩, textRead, made⟩ := Option.map_eq_some_iff.mp read
        cases made
        obtain ⟨rfl, exact⟩ := readText_exact textRead
        rw [Head.least] at least
        refine ⟨by omega, fun _ => ?_⟩
        rw [bytes, length_stringBytes]
        omega
      | binary length => cases read
      | list length =>
        cases limit with
        | zero => cases read
        | succ limit =>
          obtain ⟨⟨items, after⟩, itemsRead, made⟩ := Option.map_eq_some_iff.mp read
          cases made
          obtain ⟨rfl, shrinks, short⟩ := (ih limit (Nat.lt_succ_self _)).items itemsRead
          rw [Head.least] at least
          refine ⟨by omega, fun whole => ?_⟩
          have inner := short (Value.itemsWhole_iff.mp whole)
          rw [bytes, List.length_append]
          omega
      | mapping length =>
        cases limit with
        | zero => cases read
        | succ limit =>
          obtain ⟨⟨found, after⟩, entriesRead, made⟩ := Option.map_eq_some_iff.mp read
          cases made
          have thrifty := ih limit (Nat.lt_succ_self _)
          obtain ⟨rfl, shrinks⟩ := thrifty.entries entriesRead (List.nil_sublist _) (by simp)
          rw [Head.least] at least
          refine ⟨by omega, fun whole => ?_⟩
          -- Of entries with one key one is kept, so what is written has no more than were read.
          obtain ⟨kept, perm, sub⟩ := ofList_subperm found
          have wholeKept : ∀ entry ∈ kept, entry.2.WholeNumbers := fun entry member =>
            Value.entriesWhole_iff.mp whole entry (perm.mem_iff.mp member)
          have inner := (thrifty.entries entriesRead sub wholeKept).2
          have fewer := mappingBytes_mono (perm.length_eq ▸ sub.length_le)
          rw [length_entryBytes_perm perm] at inner
          rw [Record.toValue, bytes, List.length_append]
          omega

end Mappings

section Documents

variable {record : Record}

theorem readValue_of_decode {input : Bytes} (decoded : decode input = .ok record) :
    ∃ rest, readValue depthLimit input = some (record.toValue, rest) := by
  rw [decode] at decoded
  split at decoded
  · cases decoded
  · split at decoded
    case h_1 => cases decoded
    case h_2 value rest read =>
      rw [read]
      cases value with
      | mapping entries =>
        cases decoded
        exact ⟨rest, rfl⟩
      | _ => cases decoded

/-- A record comes back from the bytes that are written for it, whatever follows them, and from no
fewer bytes than these. -/
theorem fewest_bytes_read_back {record : Record} (whole : record.WholeNumbers)
    (ascend : record.Ascending) (fit : record.LengthsFit) (flat : record.depth ≤ 1023) :
    ∃ raw, Format.messagePack.codec.encode record = some raw ∧
      (∀ rest, Format.messagePack.codec.decode (raw ++ rest) = .ok record) ∧
      ∀ other, Format.messagePack.codec.decode other = .ok record → raw.length ≤ other.length := by
  refine ⟨encode record, rfl, decode_encode whole ascend fit flat, fun other decoded => ?_⟩
  obtain ⟨rest, read⟩ := readValue_of_decode decoded
  have fewest := (thrifty_readValue depthLimit other _ rest read).2 whole
  exact Nat.le_trans (Nat.le_add_right _ _) fewest

/-- Numbers at the edges of what a marker byte holds, and of what eight bytes hold. -/
def edges : Record :=
  ⟨[("", .list [.number (.integer 0x7F), .number (.integer 0x80), .number (.integer (-0x20)),
      .number (.integer (-0x21)), .number (.integer 0xFFFFFFFFFFFFFFFF),
      .number (.integer (-0x8000000000000000))]),
    ("é", .mapping [("a", .null), ("b", .string "")])]⟩

def widened : Bytes := [0xDE, 0x00, 0x02] ++ (encode edges).tail

theorem edges_read_back :
    ∃ raw, Format.messagePack.codec.encode edges = some raw ∧
      Format.messagePack.codec.decode (raw ++ [0xFF, 0x00]) = .ok edges ∧
      Format.messagePack.codec.decode widened = .ok edges ∧ raw.length ≤ widened.length := by
  have whole : edges.WholeNumbers := by
    simp [edges, Record.WholeNumbers, Record.toValue, Value.WholeNumbers, Value.EntriesWhole,
      Value.ItemsWhole]
  have ascend : edges.Ascending := by
    simp only [edges, Record.Ascending, Record.toValue, Value.Ascending, Value.KeysAscend,
      Value.EntriesAscending, Value.ItemsAscending]
    decide
  have fit : edges.LengthsFit := by
    simp only [edges, Record.LengthsFit, Record.toValue, Value.LengthsFit, Value.EntryLengthsFit,
      Value.ItemLengthsFit]
    decide
  have again : Format.messagePack.codec.decode widened = .ok edges := by decide +kernel
  obtain ⟨raw, written, read, fewest⟩ := fewest_bytes_read_back whole ascend fit (by decide)
  exact ⟨raw, written, read [0xFF, 0x00], again, fewest widened again⟩

end Documents
end StartPage.MessagePack
