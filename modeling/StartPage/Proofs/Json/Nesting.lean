import StartPage.Proofs.Json.RoundTrip

/-!
How deep JSON text may nest. Whatever value a text was written for, a reader that takes the text
has read it to its end and went no deeper than it may, so text that nests deeper is refused. This
holds of doubles too: it matters where the reading of their digits ends, not what they read as.
-/
namespace StartPage.Json

open Text (utf8 utf8_ascii)
open Decimal (positional scientific)

section Numerals

inductive IsFraction : List Char → Prop
  | missing : IsFraction []
  | point {digits : List Char} (all : ∀ c ∈ digits, c.isDigit = true) : IsFraction ('.' :: digits)

inductive IsExponent : List Char → Prop
  | missing : IsExponent []
  | power {sign : Char} (signed : sign = '-' ∨ sign = '+') {digits : List Char}
      (all : ∀ c ∈ digits, c.isDigit = true) : IsExponent ('e' :: sign :: digits)

/-- The text of a number without its sign, as the reader divides it. -/
inductive IsUnsigned : List Char → Prop
  | parts {whole fraction exponent : List Char} (all : ∀ c ∈ whole, c.isDigit = true)
      (broken : IsFraction fraction) (raised : IsExponent exponent)
      (filled : whole ++ (fraction ++ exponent) ≠ []) :
      IsUnsigned (whole ++ (fraction ++ exponent))

inductive IsNumber : List Char → Prop
  | plain {body : List Char} (unsigned : IsUnsigned body) : IsNumber body
  | negative {body : List Char} (unsigned : IsUnsigned body) : IsNumber ('-' :: body)

theorem isDigit_parts (s : Decimal.Scientific) : ∀ c ∈ s.parts.1, c.isDigit = true := by
  intro c member
  have kept := (List.dropWhile_sublist _).subset (List.mem_reverse.mp member)
  exact isDigit_toDigits _ c (List.mem_reverse.mp kept)

theorem isDigit_zeros (n : Nat) : ∀ c ∈ List.replicate n '0', c.isDigit = true := by
  intro c member
  rw [(List.mem_replicate.mp member).2]
  rfl

theorem isDigit_zero : ∀ c ∈ ['0'], c.isDigit = true := isDigit_zeros 1

theorem isDigit_append {front back : List Char} (first : ∀ c ∈ front, c.isDigit = true)
    (last : ∀ c ∈ back, c.isDigit = true) : ∀ c ∈ front ++ back, c.isDigit = true := by
  intro c member
  exact (List.mem_append.mp member).elim (first c) (last c)

theorem isUnsigned_point {whole fraction : List Char} (before : ∀ c ∈ whole, c.isDigit = true)
    (behind : ∀ c ∈ fraction, c.isDigit = true) : IsUnsigned (whole ++ '.' :: fraction) := by
  have parts := IsUnsigned.parts before (.point behind) .missing (by simp)
  rwa [List.append_nil] at parts

theorem isUnsigned_toDigits (n : Nat) : IsUnsigned (Nat.toDigits 10 n) := by
  have parts := IsUnsigned.parts (isDigit_toDigits n) .missing .missing (by simp)
  rwa [List.append_nil, List.append_nil] at parts

theorem isUnsigned_positional {digits : List Char} (all : ∀ c ∈ digits, c.isDigit = true)
    (power : Int) : IsUnsigned (positional digits power) := by
  simp only [positional]
  split
  case isTrue =>
    exact isUnsigned_point isDigit_zero (isDigit_append (isDigit_zeros _) all)
  case isFalse =>
    split
    case isTrue =>
      exact isUnsigned_point (isDigit_append all (isDigit_zeros _)) isDigit_zero
    case isFalse =>
      exact isUnsigned_point (fun c member => all c (List.mem_of_mem_take member))
        fun c member => all c (List.mem_of_mem_drop member)

theorem isUnsigned_scientific {digits : List Char} (all : ∀ c ∈ digits, c.isDigit = true)
    (power : Int) : IsUnsigned (scientific digits power) := by
  have broken : IsFraction (if digits.length ≤ 1 then [] else '.' :: digits.drop 1) := by
    split
    · exact .missing
    · exact .point fun c member => all c (List.mem_of_mem_drop member)
  have signed : (if power < 0 then '-' else '+') = '-' ∨ (if power < 0 then '-' else '+') = '+' := by
    split <;> simp
  have first : ∀ c ∈ digits.take 1, c.isDigit = true := fun c member =>
    all c (List.mem_of_mem_take member)
  have parts := IsUnsigned.parts first broken (.power signed (isDigit_toDigits power.natAbs)) (by simp)
  rwa [← List.append_assoc] at parts

theorem isNumber_sign {body : List Char} (unsigned : IsUnsigned body) (negative : Prop)
    [Decidable negative] : IsNumber (if negative then '-' :: body else body) := by
  split
  · exact .negative unsigned
  · exact .plain unsigned

theorem isNumber_numberText (number : Number) : IsNumber (numberText number) := by
  cases number with
  | integer value => exact isNumber_sign (isUnsigned_toDigits value.natAbs) _
  | double value =>
    have all := isDigit_parts (Decimal.shortest value)
    apply isNumber_sign
    split
    case isTrue => exact isUnsigned_point isDigit_zero isDigit_zero
    case isFalse =>
      simp only
      split
      · exact isUnsigned_positional all _
      · exact isUnsigned_scientific all _

variable {fraction exponent text : List Char} {rest : Bytes}

theorem head_exponent (raised : IsExponent exponent) (ends : Ends rest) :
    ∀ byte ∈ (utf8 exponent ++ rest).head?, isDigit byte = false ∧ char byte ≠ '.' := by
  intro byte head
  cases raised with
  | missing => exact ⟨(ends byte head).1, (ends byte head).2.1⟩
  | power _ _ =>
    rw [utf8_ascii (by decide), List.cons_append, List.head?_cons, Option.mem_some_iff] at head
    subst head
    decide

theorem head_fraction (broken : IsFraction fraction)
    (next : ∀ byte ∈ rest.head?, isDigit byte = false ∧ char byte ≠ '.') :
    ∀ byte ∈ (utf8 fraction ++ rest).head?, isDigit byte = false := by
  intro byte head
  cases broken with
  | missing => exact (next byte head).1
  | point _ =>
    rw [utf8_ascii (by decide), List.cons_append, List.head?_cons, Option.mem_some_iff] at head
    subst head
    decide

theorem readFraction_ends (broken : IsFraction fraction)
    (next : ∀ byte ∈ rest.head?, isDigit byte = false ∧ char byte ≠ '.') {found : List Nat × Bytes}
    (read : readFraction (utf8 fraction ++ rest) = some found) : found.2 = rest := by
  cases broken with
  | missing =>
    have point : after? '.' rest = none := after?_ends fun byte head => (next byte head).2
    rw [Text.utf8_nil, List.nil_append, readFraction, point] at read
    exact (Option.some.inj read) ▸ rfl
  | point all =>
    rw [readFraction, after?_utf8 (by decide)] at read
    simp only [digits_utf8 all fun byte head => (next byte head).1, Option.ite_none_left_eq_some] at read
    exact (Option.some.inj read.2) ▸ rfl

theorem readExponent_ends (raised : IsExponent exponent) (ends : Ends rest)
    {found : Option Int × Bytes} (read : readExponent (utf8 exponent ++ rest) = some found) :
    found.2 = rest := by
  cases raised with
  | missing =>
    have small : after? 'e' rest = none := after?_ends fun byte head => (ends byte head).2.2.1
    have capital : after? 'E' rest = none := after?_ends fun byte head => (ends byte head).2.2.2
    rw [Text.utf8_nil, List.nil_append, readExponent, small, capital, Option.or_none] at read
    exact (Option.some.inj read) ▸ rfl
  | power signed all =>
    have digits := digits_utf8 all fun byte head => (ends byte head).1
    rw [readExponent, after?_utf8 (by decide), Option.some_or] at read
    rcases signed with rfl | rfl
    · simp only [after?_utf8 (show '-'.toNat < 128 by decide), digits,
        Option.ite_none_left_eq_some] at read
      exact (Option.some.inj read.2) ▸ rfl
    · simp (disch := decide) only [after?_other, after?_utf8, Option.getD_some, digits,
        Option.ite_none_left_eq_some] at read
      exact (Option.some.inj read.2) ▸ rfl

theorem starts_unsigned {body : List Char} (unsigned : IsUnsigned body) :
    ∃ c tail, body = c :: tail ∧ (c.isDigit = true ∨ c ∈ ['.', 'e']) := by
  cases unsigned with
  | @parts whole fraction exponent all broken raised filled =>
    cases whole with
    | cons c tail => exact ⟨c, _, rfl, .inl (all c List.mem_cons_self)⟩
    | nil =>
      cases broken with
      | point _ => exact ⟨'.', _, rfl, .inr (by decide)⟩
      | missing =>
        cases raised with
        | power _ _ => exact ⟨'e', _, rfl, .inr (by decide)⟩
        | missing => exact absurd rfl filled

theorem starts_number (numeric : IsNumber text) :
    ∃ c tail, text = c :: tail ∧ (c.isDigit = true ∨ c ∈ ['-', '.', 'e']) := by
  cases numeric with
  | plain unsigned =>
    obtain ⟨c, tail, begins, starts⟩ := starts_unsigned unsigned
    exact ⟨c, tail, begins, starts.imp_right (List.mem_cons_of_mem _)⟩
  | negative unsigned => exact ⟨'-', _, rfl, .inr List.mem_cons_self⟩

theorem readParts_ends (broken : IsFraction fraction) (raised : IsExponent exponent)
    (ends : Ends rest) {α : Type} {make : List Nat × Bytes → Option Int × Bytes → α}
    {found : α × Bytes}
    (read : (do
      let broken ← readFraction (utf8 fraction ++ (utf8 exponent ++ rest))
      let raised ← readExponent broken.2
      pure (make broken raised, raised.2)) = some found) : found.2 = rest := by
  simp only [Option.bind_eq_bind, Option.bind_eq_some_iff] at read
  obtain ⟨first, firstRead, second, secondRead, made⟩ := read
  have between := readFraction_ends broken (head_exponent raised ends) firstRead
  rw [between] at secondRead
  rw [← Option.some.inj made]
  exact readExponent_ends raised ends secondRead

theorem readNumeral_ends (numeric : IsNumber text) (ends : Ends rest)
    {found : Decimal.Numeral × Bytes} (read : readNumeral (utf8 text ++ rest) = some found) :
    found.2 = rest := by
  cases numeric with
  | negative unsigned =>
    obtain ⟨all, broken, raised, -⟩ := unsigned
    have whole := digits_utf8 all (head_fraction broken (head_exponent raised ends))
    simp only [readNumeral, after?_utf8 (show '-'.toNat < 128 by decide), Text.utf8_append,
      List.append_assoc, whole] at read
    split at read
    · cases read
    · exact readParts_ends broken raised ends read
  | plain unsigned =>
    have sign : after? '-' (utf8 text ++ rest) = none := by
      obtain ⟨c, tail, rfl, starts⟩ := starts_unsigned unsigned
      apply after?_other (ascii_of_numeric (starts.imp_right (List.mem_cons_of_mem _)))
      rintro rfl
      simp at starts
    obtain ⟨all, broken, raised, -⟩ := unsigned
    have whole := digits_utf8 all (head_fraction broken (head_exponent raised ends))
    rw [Text.utf8_append, Text.utf8_append, List.append_assoc, List.append_assoc] at read sign
    simp only [readNumeral, sign, whole] at read
    split at read
    · cases read
    · exact readParts_ends broken raised ends read

end Numerals

section Series

variable {ι α : Type} {written : ι → List Char} {P : ι → Prop} {parts : List ι} {close : Char}
  {item : Bytes → Option (α × Bytes)} {rest : Bytes} {found : List α × Bytes}

theorem readSeries_ends (bracket : close = ']' ∨ close = '}')
    (each : ∀ part ∈ parts, ∀ rest found, Ends rest →
      item (utf8 (written part) ++ rest) = some found → found.2 = rest ∧ P part)
    (filled : parts ≠ []) {room : Nat}
    (read : readSeries close item room (utf8 (joined (parts.map written) ++ [close]) ++ rest) =
      some found) : found.2 = rest ∧ ∀ part ∈ parts, P part := by
  have ascii : close.toNat < 128 := by rcases bracket with rfl | rfl <;> decide
  have solid : close ∉ [' ', '\t', '\n', '\r'] := by rcases bracket with rfl | rfl <;> decide
  have stops : close.isDigit = false ∧ close ≠ '.' ∧ close ≠ 'e' ∧ close ≠ 'E' := by
    rcases bracket with rfl | rfl <;> decide
  induction parts generalizing room found with
  | nil => exact absurd rfl filled
  | cons first parts ih =>
    obtain ⟨room, rfl⟩ : ∃ n, room = n + 1 := by
      cases room with
      | zero => cases read
      | succ room => exact ⟨room, rfl⟩
    have firstEnds := each first List.mem_cons_self
    cases parts with
    | nil =>
      rw [List.map_singleton, joined, Text.utf8_append, List.append_assoc, readSeries] at read
      cases begun : item (utf8 (written first) ++ (utf8 [close] ++ rest)) with
      | none => simp [begun, -Text.utf8_cons] at read
      | some one =>
        obtain ⟨left, held⟩ := firstEnds _ one (ends_utf8 ascii stops [] rest) begun
        obtain ⟨value, left⟩ := one
        subst left
        simp only [begun, skipBlank_ascii ascii solid, char_ofNat ascii, if_pos] at read
        exact ⟨(Option.some.inj read) ▸ rfl, by simpa using held⟩
    | cons second parts =>
      have other : ¬ ',' = close := by rcases bracket with rfl | rfl <;> decide
      rw [List.map_cons, List.map_cons, joined, List.append_assoc, Text.utf8_append,
        List.append_assoc, readSeries, List.cons_append, ← List.map_cons] at read
      cases begun : item (utf8 (written first) ++
          (utf8 (',' :: (joined ((second :: parts).map written) ++ [close])) ++ rest)) with
      | none => simp only [begun] at read; cases read
      | some one =>
        obtain ⟨left, held⟩ := firstEnds _ one (ends_utf8 (by decide) (by decide) _ rest) begun
        obtain ⟨value, left⟩ := one
        subst left
        simp (disch := decide) only [begun, skipBlank_ascii, char_ofNat, if_neg other, if_pos,
          Option.map_eq_some_iff] at read
        obtain ⟨others, further, rfl⟩ := read
        have tail := ih (fun part member => each part (List.mem_cons_of_mem _ member)) (by simp) further
        exact ⟨tail.1, List.forall_mem_cons.mpr ⟨held, tail.2⟩⟩

theorem joined_cons (text : List Char) (texts : List (List Char)) :
    ∃ tail, joined (text :: texts) = text ++ tail := by
  cases texts with
  | nil => exact ⟨[], (List.append_nil text).symm⟩
  | cons second texts => exact ⟨_, rfl⟩

theorem readContents_ends (bracket : close = ']' ∨ close = '}')
    (each : ∀ part ∈ parts, ∀ rest found, Ends rest →
      item (utf8 (written part) ++ rest) = some found → found.2 = rest ∧ P part)
    (opens : ∀ part ∈ parts, ∀ rest, after? close (skipBlank (utf8 (written part) ++ rest)) = none)
    {room : Nat}
    (read : readContents room close item (utf8 (joined (parts.map written) ++ [close]) ++ rest) =
      some found) : found.2 = rest ∧ ∀ part ∈ parts, P part := by
  cases parts with
  | nil =>
    have ascii : close.toNat < 128 := by rcases bracket with rfl | rfl <;> decide
    have solid : close ∉ [' ', '\t', '\n', '\r'] := by rcases bracket with rfl | rfl <;> decide
    rw [readContents, List.map_nil, joined, List.nil_append, skipBlank_utf8 ascii solid,
      after?_utf8 ascii] at read
    exact ⟨(Option.some.inj read) ▸ rfl, by simp⟩
  | cons first parts =>
    -- An item stands before the closing character, so a series is read.
    have closed : after? close
        (skipBlank (utf8 (joined ((first :: parts).map written) ++ [close]) ++ rest)) = none := by
      obtain ⟨tail, begins⟩ := joined_cons (written first) (parts.map written)
      rw [List.map_cons, begins, List.append_assoc, Text.utf8_append, List.append_assoc]
      exact opens first List.mem_cons_self _
    rw [readContents, closed] at read
    exact readSeries_ends bracket each (by simp) read

end Series

section Nodes

variable {room limit : Nat} {rest : Bytes}

theorem starts_compact (value : Value) :
    ∃ c text, compact value = c :: text ∧ c.toNat < 128 ∧
      c ∉ [' ', '\t', '\n', '\r', ']', '}'] := by
  cases value with
  | null => exact ⟨'n', _, by rw [compact], by decide, by decide⟩
  | boolean value =>
    cases value with
    | true => exact ⟨'t', _, by rw [compact], by decide, by decide⟩
    | false => exact ⟨'f', _, by rw [compact], by decide, by decide⟩
  | number number =>
    obtain ⟨c, text, begins, numeric⟩ := starts_number (isNumber_numberText number)
    refine ⟨c, text, by rw [compact, begins], ascii_of_numeric numeric, fun token => ?_⟩
    have other : c.isDigit = false ∧ c ∉ ['-', '.', 'e'] := by
      simp only [List.mem_cons, List.not_mem_nil, or_false] at token
      rcases token with rfl | rfl | rfl | rfl | rfl | rfl <;> decide
    exact ne_of_numeric numeric other rfl
  | string text => exact ⟨'"', _, by rw [compact, quoted]; rfl, by decide, by decide⟩
  | list items => exact ⟨'[', _, by rw [compact]; rfl, by decide, by decide⟩
  | mapping entries => exact ⟨'{', _, by rw [compact]; rfl, by decide, by decide⟩

theorem opens_compact (value : Value) (rest : Bytes) :
    after? ']' (skipBlank (utf8 (compact value) ++ rest)) = none := by
  obtain ⟨c, text, begins, ascii, solid⟩ := starts_compact value
  simp only [List.mem_cons, List.not_mem_nil, or_false, not_or] at solid
  rw [begins, skipBlank_utf8 ascii (by simp [solid]), after?_other ascii solid.2.2.2.2.1]

theorem opens_quoted (key : String) (text : List Char) (rest : Bytes) :
    after? '}' (skipBlank (utf8 (quoted key ++ text) ++ rest)) = none := by
  rw [quoted, List.cons_append, List.cons_append, skipBlank_utf8 (by decide) (by decide),
    after?_other (by decide) (by decide)]

theorem readNode_numberText (number : Number) (rest : Bytes) :
    readNode room limit (utf8 (numberText number) ++ rest) =
      (readNumeral (utf8 (numberText number) ++ rest)).map
        fun (numeral, rest) => (.number numeral, rest) := by
  obtain ⟨c, text, begins, numeric⟩ := starts_number (isNumber_numberText number)
  rw [begins, readNode_numeral numeric]

theorem readEntry_ends {node : Bytes → Option (Node × Bytes)} {key : String} {text : List Char}
    {P : Prop} (each : ∀ found, node (utf8 text ++ rest) = some found → found.2 = rest ∧ P)
    {found : (Literal × Node) × Bytes}
    (read : readEntry node (utf8 (quoted key ++ ':' :: text) ++ rest) = some found) :
    found.2 = rest ∧ P := by
  rw [quoted, List.cons_append, List.cons_append, readEntry,
    skipBlank_utf8 (by decide) (by decide), after?_utf8 (by decide), Text.utf8_append,
    List.append_assoc] at read
  simp (disch := decide) only [Option.bind_eq_bind, Option.bind_some, readLiteral_quoted,
    skipBlank_utf8, after?_utf8, Option.bind_eq_some_iff] at read
  obtain ⟨value, read, made⟩ := read
  rw [← Option.some.inj made]
  exact each value read

/-- A text that is read at all is read to its end, and nests no deeper than the reader may go. -/
theorem readNode_ends (value : Value) (ends : Ends rest) {found : Node × Bytes}
    (read : readNode room limit (utf8 (compact value) ++ rest) = some found) :
    found.2 = rest ∧ value.depth ≤ limit := by
  induction value using Value.induction generalizing limit rest found with
  | null =>
    rw [readNode_null] at read
    exact ⟨(Option.some.inj read) ▸ rfl, Nat.zero_le _⟩
  | boolean value =>
    rw [readNode_boolean] at read
    exact ⟨(Option.some.inj read) ▸ rfl, Nat.zero_le _⟩
  | string text =>
    rw [readNode_string] at read
    exact ⟨(Option.some.inj read) ▸ rfl, Nat.zero_le _⟩
  | number number =>
    rw [compact, readNode_numberText, Option.map_eq_some_iff] at read
    obtain ⟨numeral, read, rfl⟩ := read
    exact ⟨readNumeral_ends (isNumber_numberText number) ends read, Nat.zero_le _⟩
  | list items ih =>
    rw [compact, compactItems_eq, List.cons_append, readNode_eq,
      skipBlank_ascii (by decide) (by decide)] at read
    simp (disch := decide) only [char_ofNat] at read
    cases limit with
    | zero => cases read
    | succ limit =>
      obtain ⟨contents, inside, rfl⟩ := Option.map_eq_some_iff.mp read
      have inner := readContents_ends (P := fun item => item.depth ≤ limit) (.inl rfl)
        (fun item member rest found ends read => ih item member ends read)
        (fun item _ rest => opens_compact item rest) inside
      exact ⟨inner.1, Nat.succ_le_succ (Value.depthOfItems_le_iff.mpr inner.2)⟩
  | mapping entries ih =>
    rw [compact, compactEntries_eq, List.cons_append, readNode_eq,
      skipBlank_ascii (by decide) (by decide)] at read
    simp (disch := decide) only [char_ofNat] at read
    cases limit with
    | zero => cases read
    | succ limit =>
      obtain ⟨contents, inside, rfl⟩ := Option.map_eq_some_iff.mp read
      have inner := readContents_ends (P := fun entry => entry.2.depth ≤ limit) (.inr rfl)
        (fun entry member rest found ends read =>
          readEntry_ends (fun _ value => ih entry member ends value) read)
        (fun entry _ rest => opens_quoted entry.1 _ rest) inside
      exact ⟨inner.1, Nat.succ_le_succ (Value.depthOfEntries_le_iff.mpr inner.2)⟩

end Nodes

section Documents

variable {blanks : List Char} {record : Record}

theorem decode_deep (blank : ∀ c ∈ blanks, c ∈ [' ', '\t', '\n', '\r'])
    (deep : depthLimit < record.depth) :
    decode (utf8 blanks ++ encode record) = .error (.malformed .json) := by
  have tokens : readNode (utf8 blanks ++ encode record).length depthLimit (encode record) = none := by
    refine Option.eq_none_iff_forall_ne_some.mpr fun found read => ?_
    rw [encode, ← List.append_nil (utf8 (compact record.toValue))] at read
    exact Nat.not_lt.mpr (readNode_ends record.toValue ends_nil read).2 deep
  have value : readValue depthLimit (utf8 blanks ++ encode record) = none := by
    rw [readValue_blanks blank, tokens]
    rfl
  rw [decode_nonempty, value]

/-- The text of a record is read back, whatever blanks stand before it, if no more than 127
containers are nested in it, and is malformed if more are. -/
theorem text_reads_back_up_to_limit (record : Record) :
    ∃ text, Format.json.codec.encode record = some text ∧
      ∀ blanks : List Char, (∀ c ∈ blanks, c ∈ [' ', '\t', '\n', '\r']) →
        (record.WholeNumbers → record.Ascending → record.depth ≤ 127 →
          Format.json.codec.decode (utf8 blanks ++ text) = .ok record) ∧
        (127 < record.depth →
          Format.json.codec.decode (utf8 blanks ++ text) = .error (.malformed .json)) :=
  ⟨encode record, rfl, fun _ blank => ⟨decode_encode_blanks blank, decode_deep blank⟩⟩

def chain : Nat → Value
  | 0 => .null
  | level + 1 => .list [chain level]

def nested (level : Nat) : Record := ⟨[("a", chain level)]⟩

theorem depth_nested (level : Nat) : (nested level).depth = level + 1 := by
  have inner : (chain level).depth = level := by
    induction level with
    | zero => rfl
    | succ level ih => rw [chain, Value.depth, Value.depthOfItems, Value.depthOfItems, ih, Nat.max_zero]
  rw [nested, Record.depth, Record.toValue, Value.depth, Value.depthOfEntries, Value.depthOfEntries,
    inner, Nat.max_zero]

theorem wholeNumbers_nested (level : Nat) : (nested level).WholeNumbers := by
  have inner : (chain level).WholeNumbers := by
    induction level with
    | zero => trivial
    | succ level ih => exact ⟨ih, trivial⟩
  exact ⟨inner, trivial⟩

theorem ascending_nested (level : Nat) : (nested level).Ascending := by
  have inner : (chain level).Ascending := by
    induction level with
    | zero => trivial
    | succ level ih => exact ⟨ih, trivial⟩
  exact ⟨List.pairwise_singleton _ _, inner, trivial⟩

/-- Escapes, an empty mapping and both ends of the whole numbers. -/
def varied : Record :=
  ⟨[("", .mapping []), ("\x01\"é", .list [
    .number (.integer 0xFFFFFFFFFFFFFFFF), .number (.integer (-0x8000000000000000))])]⟩

theorem nested_text_reads_back :
    ∃ text deepest deeper,
      Format.json.codec.encode varied = some text ∧
      Format.json.codec.decode (utf8 ['\r', '\n', '\t', ' '] ++ text) = .ok varied ∧
      Format.json.codec.encode (nested 126) = some deepest ∧
      Format.json.codec.decode deepest = .ok (nested 126) ∧
      Format.json.codec.encode (nested 127) = some deeper ∧
      Format.json.codec.decode deeper = .error (.malformed .json) := by
  obtain ⟨text, written, read⟩ := text_reads_back_up_to_limit varied
  obtain ⟨deepest, writtenDeepest, readDeepest⟩ := text_reads_back_up_to_limit (nested 126)
  obtain ⟨deeper, writtenDeeper, readDeeper⟩ := text_reads_back_up_to_limit (nested 127)
  refine ⟨text, deepest, deeper, written, ?_, writtenDeepest, ?_, writtenDeeper, ?_⟩
  · have whole : varied.WholeNumbers := by
      simp [varied, Record.WholeNumbers, Record.toValue, Value.WholeNumbers, Value.EntriesWhole,
        Value.ItemsWhole]
    have keys : Value.KeysAscend varied.entries := by
      rw [Value.KeysAscend]
      decide
    have ascend : varied.Ascending :=
      ⟨keys, ⟨List.Pairwise.nil, trivial⟩, ⟨trivial, trivial, trivial⟩, trivial⟩
    exact (read ['\r', '\n', '\t', ' '] (by simp)).1 whole ascend (by decide)
  · exact (readDeepest [] (by simp)).1 (wholeNumbers_nested 126) (ascending_nested 126)
      (Nat.le_of_eq (depth_nested 126))
  · exact (readDeeper [] (by simp)).2 (Nat.le_of_eq (depth_nested 127).symm)

end Documents
end StartPage.Json
