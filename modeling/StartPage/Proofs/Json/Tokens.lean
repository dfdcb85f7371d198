import StartPage.Json.Printer
import StartPage.Json.Reader

/-!
Reading back the tokens that JSON text is written in: single characters, words, whole numbers
and strings. ASCII characters are their own bytes, and every byte of another character is beyond
ASCII, so no byte inside a string is taken for a token. A numeral is read to its end only when
what follows cannot carry it on.
-/
namespace StartPage

namespace Text

theorem utf8_ascii {c : Char} (ascii : c.toNat < 128) (text : List Char) :
    utf8 (c :: text) = UInt8.ofNat c.toNat :: utf8 text := by
  have small : c.val.toNat ≤ 0x7f := Nat.le_of_lt_succ ascii
  rw [utf8_cons, String.utf8EncodeChar, if_pos small]
  rfl

theorem high_of_mem_utf8EncodeChar {c : Char} (wide : 128 ≤ c.toNat) {byte : UInt8}
    (member : byte ∈ String.utf8EncodeChar c) : 128 ≤ byte.toNat := by
  have large : ¬ c.val.toNat ≤ 0x7f := Nat.not_le_of_lt wide
  rw [String.utf8EncodeChar, if_neg large] at member
  split at member
  · simp only [List.mem_cons, List.not_mem_nil, or_false] at member
    rcases member with rfl | rfl <;> simp <;> omega
  · split at member
    · simp only [List.mem_cons, List.not_mem_nil, or_false] at member
      rcases member with rfl | rfl | rfl <;> simp <;> omega
    · simp only [List.mem_cons, List.not_mem_nil, or_false] at member
      rcases member with rfl | rfl | rfl | rfl <;> simp <;> omega

end Text

namespace Json

open Text (utf8 utf8_ascii)
open Decimal (Numeral absorb)

section Characters

@[simp] theorem toNat_char (byte : UInt8) : (char byte).toNat = byte.toNat := rfl

theorem char_ofNat {c : Char} (ascii : c.toNat < 128) : char (UInt8.ofNat c.toNat) = c := by
  apply Char.toNat_inj.mp
  rw [toNat_char, UInt8.toNat_ofNat', Nat.mod_eq_of_lt (Nat.lt_trans ascii (by decide))]

theorem after?_utf8 {c : Char} (ascii : c.toNat < 128) (text : List Char) (rest : Bytes) :
    after? c (utf8 (c :: text) ++ rest) = some (utf8 text ++ rest) := by
  rw [utf8_ascii ascii, List.cons_append, after?, char_ofNat ascii, if_pos rfl]

theorem after?_other {c expected : Char} (ascii : c.toNat < 128) (other : c ≠ expected)
    (text : List Char) (rest : Bytes) :
    after? expected (utf8 (c :: text) ++ rest) = none := by
  rw [utf8_ascii ascii, List.cons_append, after?, char_ofNat ascii, if_neg other]

theorem skipBlank_utf8 {c : Char} (ascii : c.toNat < 128) (solid : c ∉ [' ', '\t', '\n', '\r'])
    (text : List Char) (rest : Bytes) :
    skipBlank (utf8 (c :: text) ++ rest) = utf8 (c :: text) ++ rest := by
  have printed : isBlank (UInt8.ofNat c.toNat) = false := by
    rw [isBlank, char_ofNat ascii]
    simpa [not_or, and_assoc] using solid
  rw [utf8_ascii ascii, List.cons_append, skipBlank, List.dropWhile_cons_of_neg (by simp [printed])]

theorem skipBlank_ascii {c : Char} (ascii : c.toNat < 128) (solid : c ∉ [' ', '\t', '\n', '\r'])
    (text : List Char) (rest : Bytes) :
    skipBlank (utf8 (c :: text) ++ rest) = UInt8.ofNat c.toNat :: (utf8 text ++ rest) := by
  rw [skipBlank_utf8 ascii solid, utf8_ascii ascii, List.cons_append]

theorem afterWord?_utf8 {word : List Char} (ascii : word.all fun c => c.toNat < 128)
    (rest : Bytes) : afterWord? word (utf8 word ++ rest) = some rest := by
  induction word with
  | nil => rfl
  | cons first word ih =>
    rw [List.all_cons, Bool.and_eq_true, decide_eq_true_eq] at ascii
    rw [afterWord?, after?_utf8 ascii.1, Option.bind_some, ih ascii.2]

end Characters

section Numerals

/-- What follows a numeral carries it on neither as a digit nor with a fraction or an exponent. -/
def Ends (rest : Bytes) : Prop :=
  ∀ byte ∈ rest.head?,
    isDigit byte = false ∧ char byte ≠ '.' ∧ char byte ≠ 'e' ∧ char byte ≠ 'E'

theorem ends_nil : Ends [] := by
  intro byte head
  cases head

theorem ends_utf8 {c : Char} (ascii : c.toNat < 128)
    (stops : c.isDigit = false ∧ c ≠ '.' ∧ c ≠ 'e' ∧ c ≠ 'E') (text : List Char) (rest : Bytes) :
    Ends (utf8 (c :: text) ++ rest) := by
  intro byte head
  rw [utf8_ascii ascii, List.cons_append, List.head?_cons, Option.mem_some_iff] at head
  subst head
  rwa [isDigit, char_ofNat ascii]

theorem after?_ends {rest : Bytes} {c : Char} (other : ∀ byte ∈ rest.head?, char byte ≠ c) :
    after? c rest = none := by
  cases rest with
  | nil => rfl
  | cons byte rest => rw [after?, if_neg (other byte rfl)]

def decimals (n : Nat) : List Nat := (Nat.toDigits 10 n).map fun c => c.toNat - 48

theorem ofDigits_decimals (n : Nat) : ofDigits (decimals n) = n := by
  rw [ofDigits, decimals, List.foldl_map]
  exact Nat.ofDigitChars_toDigits (by decide) (by decide)

theorem decimals_ne_nil (n : Nat) : decimals n ≠ [] := by simp [decimals]

theorem ascii_of_isDigit {c : Char} (digit : c.isDigit = true) : c.toNat < 128 := by
  simp only [Char.isDigit, Bool.and_eq_true, decide_eq_true_eq, UInt32.le_iff_toNat_le] at digit
  exact Nat.lt_of_le_of_lt digit.2 (by decide)

/-- Whatever begins a number, and its fraction or exponent where no digit stands before them. -/
theorem ascii_of_numeric {c : Char} (numeric : c.isDigit = true ∨ c ∈ ['-', '.', 'e']) :
    c.toNat < 128 := by
  rcases numeric with digit | mark
  · exact ascii_of_isDigit digit
  · simp only [List.mem_cons, List.not_mem_nil, or_false] at mark
    rcases mark with rfl | rfl | rfl <;> decide

theorem isDigit_toDigits (n : Nat) : ∀ c ∈ Nat.toDigits 10 n, c.isDigit = true :=
  fun _ member => Nat.isDigit_of_mem_toDigits (by decide) (by decide) member

theorem head?_toDigits {n : Nat} (positive : 0 < n) : (Nat.toDigits 10 n).head? ≠ some '0' := by
  induction n using Nat.strongRecOn with
  | ind n ih =>
    rw [Nat.toDigits_eq_if (by decide)]
    split
    case isTrue small =>
      rw [List.head?_cons, ne_eq, Option.some.injEq, Nat.digitChar_eq_zero]
      exact Nat.ne_of_gt positive
    case isFalse large =>
      have more := ih (n / 10) (Nat.div_lt_self positive (by decide)) (by omega)
      cases found : Nat.toDigits 10 (n / 10) with
      | nil => exact absurd found Nat.toDigits_ne_nil
      | cons first others => rwa [found] at more

theorem decimals_leading (n : Nat) :
    ¬ ((decimals n).head? = some 0 ∧ (decimals n).length ≠ 1) := by
  rintro ⟨zero, longer⟩
  by_cases positive : 0 < n
  · rw [decimals, List.head?_map, Option.map_eq_some_iff] at zero
    obtain ⟨c, head, low⟩ := zero
    have digit : c.isDigit = true := isDigit_toDigits n c (List.mem_of_head? head)
    simp only [Char.isDigit, Bool.and_eq_true, decide_eq_true_eq, UInt32.le_iff_toNat_le] at digit
    have least : c.toNat = '0'.toNat := Nat.le_antisymm (Nat.le_of_sub_eq_zero low) digit.1
    exact head?_toDigits positive (Char.toNat_inj.mp least ▸ head)
  · obtain rfl : n = 0 := Nat.eq_zero_of_not_pos positive
    exact longer rfl

theorem digits_utf8 {text : List Char} (all : ∀ c ∈ text, c.isDigit = true) {rest : Bytes}
    (other : ∀ byte ∈ rest.head?, isDigit byte = false) :
    digits (utf8 text ++ rest) = (text.map fun c => c.toNat - 48, rest) := by
  induction text with
  | nil =>
    cases rest with
    | nil => rfl
    | cons byte rest => simp [digits, other byte rfl]
  | cons c text ih =>
    have ascii := ascii_of_isDigit (all c List.mem_cons_self)
    have digit : isDigit (UInt8.ofNat c.toNat) = true := by
      rw [isDigit, char_ofNat ascii, all c List.mem_cons_self]
    have worth : digitValue (UInt8.ofNat c.toNat) = c.toNat - 48 := by
      rw [digitValue, ← toNat_char, char_ofNat ascii]
    have tail := ih fun other member => all other (List.mem_cons_of_mem _ member)
    simp only [digits, Prod.mk.injEq] at tail
    rw [utf8_ascii ascii, List.cons_append, digits, List.takeWhile_cons_of_pos digit,
      List.dropWhile_cons_of_pos digit, List.map_cons, worth, tail.1, tail.2, List.map_cons]

theorem le_foldl_digits (found : List Nat) (start : Nat) :
    start ≤ found.foldl (fun total digit => 10 * total + digit) start := by
  induction found generalizing start with
  | nil => exact Nat.le_refl start
  | cons digit found ih =>
    calc start ≤ 10 * start + digit := by omega
      _ ≤ _ := ih _

theorem absorb_all {found : List Nat} {start : Nat}
    (fits : found.foldl (fun total digit => 10 * total + digit) start < UInt64.size) :
    absorb start found = (found.foldl (fun total digit => 10 * total + digit) start, []) := by
  induction found generalizing start with
  | nil => rfl
  | cons digit found ih =>
    rw [List.foldl_cons] at fits ⊢
    rw [absorb, if_pos (Nat.lt_of_le_of_lt (le_foldl_digits found _) fits), ih fits]

def numeral (value : Int) : Numeral := ⟨decide (value < 0), decimals value.natAbs, [], none⟩

theorem integer?_numeral {value : Int}
    (whole : -0x8000000000000000 ≤ value ∧ value < 0x10000000000000000) :
    (numeral value).integer? = some value := by
  -- Every digit is taken up, so the numeral has an integer and no float is needed.
  have fits : value.natAbs < UInt64.size := by simp only [UInt64.size]; omega
  have taken : absorb 0 (decimals value.natAbs) = (value.natAbs, []) := by
    have total : ofDigits (decimals value.natAbs) < UInt64.size := by rwa [ofDigits_decimals]
    exact (absorb_all total).trans (by rw [← ofDigits, ofDigits_decimals])
  have bare : ¬ (([] : List Nat) ≠ [] ∨ (none : Option Int).isSome = true ∨
      ([] : List Nat) ≠ []) := by simp
  simp only [Numeral.integer?, numeral, taken]
  rw [if_neg bare]
  by_cases negative : value < 0
  · have range : 0 < value.natAbs ∧ value.natAbs ≤ 0x8000000000000000 := by omega
    have same : -(value.natAbs : Int) = value := by omega
    rw [if_neg (by simp [negative]), if_pos range, same]
  · have same : (value.natAbs : Int) = value := by omega
    rw [if_pos (by simp [negative]), same]

theorem number?_numeral {value : Int}
    (whole : -0x8000000000000000 ≤ value ∧ value < 0x10000000000000000) :
    (numeral value).number? = some (.integer value) := by
  rw [Numeral.number?, integer?_numeral whole]

theorem readNumeral_integerText (value : Int) {rest : Bytes} (ends : Ends rest) :
    readNumeral (utf8 (integerText value) ++ rest) = some (numeral value, rest) := by
  have all := isDigit_toDigits value.natAbs
  have read : digits (utf8 (Nat.toDigits 10 value.natAbs) ++ rest) = (decimals value.natAbs, rest) :=
    digits_utf8 all fun byte head => (ends byte head).1
  have point : after? '.' rest = none := after?_ends fun byte head => (ends byte head).2.1
  have small : after? 'e' rest = none := after?_ends fun byte head => (ends byte head).2.2.1
  have capital : after? 'E' rest = none := after?_ends fun byte head => (ends byte head).2.2.2
  have fraction : readFraction rest = some ([], rest) := by rw [readFraction, point]
  have exponent : readExponent rest = some (none, rest) := by
    rw [readExponent, small, capital, Option.or_none]
  have leading : ¬ (decimals value.natAbs = [] ∨
      ((decimals value.natAbs).head? = some 0 ∧ (decimals value.natAbs).length ≠ 1)) :=
    not_or.mpr ⟨decimals_ne_nil _, decimals_leading _⟩
  rw [integerText]
  -- The sign is read first, and the digits of a number never begin with one.
  by_cases negative : value < 0
  · have signed := after?_utf8 (c := '-') (by decide) (Nat.toDigits 10 value.natAbs) rest
    simp only [if_pos negative, readNumeral, signed, read, if_neg leading, fraction]
    simp [exponent, numeral, negative]
  · have unsigned : after? '-' (utf8 (Nat.toDigits 10 value.natAbs) ++ rest) = none := by
      cases found : Nat.toDigits 10 value.natAbs with
      | nil => exact absurd found Nat.toDigits_ne_nil
      | cons first others =>
        have digit : first.isDigit = true := all first (by simp [found])
        have other : first ≠ '-' := by
          rintro rfl
          exact absurd digit (by decide)
        exact after?_other (ascii_of_isDigit digit) other others rest
    simp only [if_neg negative, readNumeral, unsigned, read, if_neg leading, fraction]
    simp [exponent, numeral, negative]

end Numerals

section Strings

/-- One character of a string, as it is read back: a control character without a short escape
as a unit, any other as its bytes. -/
def pieces (c : Char) : Literal :=
  if c.toNat < 32 ∧ c ∉ ['\n', '\r', '\t', Char.ofNat 8, Char.ofNat 12] then [.unit c.toNat]
  else (String.utf8EncodeChar c).map .byte

def literal (text : String) : Literal := text.toList.flatMap pieces

theorem readLiteral_short (escape value : UInt8) (short : shortEscape? escape = some value)
    (rest : Bytes) :
    readLiteral (92 :: escape :: rest) =
      (readLiteral rest).map fun (found, rest) => (.byte value :: found, rest) := by
  rw [readLiteral.eq_def]
  simp (disch := decide) only [if_neg, if_pos, short]

theorem readLiteral_unit {a b c d : UInt8} {unit : Nat} (hex : hexUnit? a b c d = some unit)
    (rest : Bytes) :
    readLiteral (92 :: 117 :: a :: b :: c :: d :: rest) =
      (readLiteral rest).map fun (found, rest) => (.unit unit :: found, rest) := by
  have long : shortEscape? 117 = none := by decide
  rw [readLiteral.eq_def]
  simp (disch := decide) only [if_neg, if_pos, long, hex]
  cases readLiteral rest <;> rfl

theorem readLiteral_plain {raw : Bytes}
    (plain : ∀ byte ∈ raw, char byte ≠ '"' ∧ ¬ byte < 32 ∧ char byte ≠ '\\') (rest : Bytes) :
    readLiteral (raw ++ rest) =
      (readLiteral rest).map fun (found, rest) => (raw.map .byte ++ found, rest) := by
  induction raw with
  | nil => simp
  | cons byte raw ih =>
    obtain ⟨quote, control, backslash⟩ := plain byte List.mem_cons_self
    have tail := ih fun other member => plain other (List.mem_cons_of_mem _ member)
    rw [List.cons_append, readLiteral.eq_def]
    simp only [if_neg quote, if_neg control, if_neg backslash, tail]
    cases readLiteral rest <;> rfl

theorem hexUnit?_control : ∀ n < 32,
    hexUnit? 48 48 (UInt8.ofNat (Nat.digitChar (n / 16)).toNat)
      (UInt8.ofNat (Nat.digitChar (n % 16)).toNat) = some n := by
  decide

theorem ascii_digitChar {n : Nat} (small : n < 16) : n.digitChar.toNat < 128 := by
  have all : ∀ n < 16, n.digitChar.toNat < 128 := by decide
  exact all n small

theorem readLiteral_escape (c : Char) (rest : Bytes) :
    readLiteral (utf8 (escape c) ++ rest) =
      (readLiteral rest).map fun (found, rest) => (pieces c ++ found, rest) := by
  fun_cases escape c with
  | case1 => exact readLiteral_short 34 34 (by decide) rest
  | case2 => exact readLiteral_short 92 92 (by decide) rest
  | case3 => exact readLiteral_short 110 10 (by decide) rest
  | case4 => exact readLiteral_short 114 13 (by decide) rest
  | case5 => exact readLiteral_short 116 9 (by decide) rest
  | case6 c _ _ _ _ _ backspace =>
    obtain rfl : c = Char.ofNat 8 := Char.toNat_inj.mp backspace
    exact readLiteral_short 98 8 (by decide) rest
  | case7 c _ _ _ _ _ _ formFeed =>
    obtain rfl : c = Char.ofNat 12 := Char.toNat_inj.mp formFeed
    exact readLiteral_short 102 12 (by decide) rest
  | case8 c _ _ lineFeed carriageReturn tab backspace formFeed control =>
    -- A control character without a short escape is written in hexadecimal.
    have bare : pieces c = [.unit c.toNat] := by
      refine if_pos ⟨control, ?_⟩
      simp only [List.mem_cons, List.not_mem_nil, or_false, not_or]
      exact ⟨lineFeed, carriageReturn, tab, fun same => backspace (same ▸ rfl),
        fun same => formFeed (same ▸ rfl)⟩
    rw [bare, utf8_ascii (by decide), utf8_ascii (by decide), utf8_ascii (by decide),
      utf8_ascii (by decide), utf8_ascii (ascii_digitChar (by omega)),
      utf8_ascii (ascii_digitChar (by omega))]
    exact readLiteral_unit (hexUnit?_control c.toNat control) rest
  | case9 c quote backslash _ _ _ _ _ printed =>
    have bare : pieces c = (String.utf8EncodeChar c).map .byte := if_neg fun low => printed low.1
    rw [bare, Text.utf8_cons, Text.utf8_nil, List.append_nil]
    -- Any other character is its own byte, or its bytes are all beyond ASCII.
    apply readLiteral_plain
    intro byte member
    rw [UInt8.lt_iff_toNat_lt]
    by_cases ascii : c.toNat < 128
    · have own : byte = UInt8.ofNat c.toNat := by
        have single : String.utf8EncodeChar c = [UInt8.ofNat c.toNat] := by
          simpa using utf8_ascii ascii []
        rw [single] at member
        exact List.mem_singleton.mp member
      subst own
      rw [char_ofNat ascii, ← toNat_char, char_ofNat ascii]
      exact ⟨quote, printed, backslash⟩
    · have high := Text.high_of_mem_utf8EncodeChar (Nat.le_of_not_lt ascii) member
      have beyond : ∀ {other : Char}, other.toNat < 128 → char byte ≠ other := by
        rintro other low rfl
        exact absurd high (Nat.not_le_of_lt low)
      exact ⟨beyond (by decide), Nat.not_lt.mpr (Nat.le_trans (by decide) high), beyond (by decide)⟩

theorem readLiteral_quoted (text : String) (rest : Bytes) :
    readLiteral (utf8 (text.toList.flatMap escape ++ ['"']) ++ rest) = some (literal text, rest) := by
  rw [literal]
  induction text.toList with
  | nil =>
    rw [List.flatMap_nil, List.nil_append, utf8_ascii (by decide), List.cons_append,
      readLiteral.eq_def]
    simp (disch := decide) only [char_ofNat, if_pos]
    rfl
  | cons c text ih =>
    rw [List.flatMap_cons, List.append_assoc, Text.utf8_append, List.append_assoc,
      readLiteral_escape, ih, List.flatMap_cons]
    rfl

theorem bytes?_plain (raw : Bytes) (rest : Literal) :
    Literal.bytes? (raw.map .byte ++ rest) = (Literal.bytes? rest).map (raw ++ ·) := by
  induction raw with
  | nil => simp
  | cons byte raw ih =>
    rw [List.map_cons, List.cons_append, Literal.bytes?, ih, Option.map_map]
    rfl

theorem bytes?_unit {unit : Nat} (low : unit < 0xD800) (rest : Literal) :
    Literal.bytes? (.unit unit :: rest) =
      (Literal.bytes? rest).map (String.utf8EncodeChar (.ofNat unit) ++ ·) := by
  have high : Literal.isHigh unit = false := by simp [Literal.isHigh]; omega
  have notLow : Literal.isLow unit = false := by simp [Literal.isLow]; omega
  rw [Literal.bytes?.eq_def]
  cases rest with
  | nil => simp [high, notLow]
  | cons piece rest => cases piece <;> simp [high, notLow]

theorem bytes?_pieces (c : Char) (rest : Literal) :
    Literal.bytes? (pieces c ++ rest) =
      (Literal.bytes? rest).map (String.utf8EncodeChar c ++ ·) := by
  rw [pieces]
  split
  case isTrue control =>
    rw [List.singleton_append, bytes?_unit (Nat.lt_trans control.1 (by decide)), Char.ofNat_toNat]
  case isFalse => exact bytes?_plain _ rest

theorem bytes?_literal (text : String) : Literal.bytes? (literal text) = some (Text.bytes text) := by
  rw [literal, Text.bytes]
  induction text.toList with
  | nil => rfl
  | cons c text ih => rw [List.flatMap_cons, bytes?_pieces, ih, Text.utf8_cons]; rfl

theorem text?_literal (text : String) : (literal text).text? = some text := by
  rw [Literal.text?, bytes?_literal, Option.bind_some, Text.ofUtf8?_bytes]

end Strings
end Json
end StartPage
