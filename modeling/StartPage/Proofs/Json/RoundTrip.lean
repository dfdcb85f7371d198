import StartPage.Codec
import StartPage.Proofs.Json.Tokens
import StartPage.Proofs.Record

/-!
Reading back the JSON text of a record. Every value has a tree of its own, which its text is read
as and which has the value again. A container is a series of texts with commas between them; what
is proved of one such series serves lists and mappings alike.
-/
namespace StartPage.Json

open Text (utf8 utf8_ascii)
open Decimal (Numeral)
open Value (KeysAscend)

section Trees

def numeralOf (number : Number) : Numeral :=
  ((readNumeral (utf8 (numberText number))).map (·.1)).getD default

mutual
/-- The tree that the text of a value is read as. -/
def tree : Value → Node
  | .null => .null
  | .boolean value => .boolean value
  | .number number => .number (numeralOf number)
  | .string text => .string (literal text)
  | .list items => .list (trees items)
  | .mapping entries => .mapping (entryTrees entries)
def trees : List Value → List Node
  | [] => []
  | item :: rest => tree item :: trees rest
def entryTrees : List (String × Value) → List (Literal × Node)
  | [] => []
  | (key, item) :: rest => (literal key, tree item) :: entryTrees rest
end

theorem trees_eq_map (items : List Value) : trees items = items.map tree := by
  induction items with
  | nil => rfl
  | cons first rest ih => rw [trees, ih, List.map_cons]

theorem entryTrees_eq_map (entries : List (String × Value)) :
    entryTrees entries = entries.map fun entry => (literal entry.1, tree entry.2) := by
  induction entries with
  | nil => rfl
  | cons first rest ih => rw [entryTrees, ih, List.map_cons]

theorem numeralOf_integer (value : Int) : numeralOf (.integer value) = numeral value := by
  have read := readNumeral_integerText value ends_nil
  rw [List.append_nil] at read
  rw [numeralOf, numberText, read]
  rfl

theorem values?_trees {items : List Value}
    (each : ∀ item ∈ items, (tree item).value? = some item.tidy) :
    Node.values? (trees items) = some (Value.tidyItems items) := by
  induction items with
  | nil => rfl
  | cons first rest ih =>
    rw [trees, Node.values?, each first List.mem_cons_self,
      ih fun item member => each item (List.mem_cons_of_mem _ member)]
    rfl

theorem entries?_entryTrees {entries : List (String × Value)}
    (each : ∀ entry ∈ entries, (tree entry.2).value? = some entry.2.tidy) :
    Node.entries? (entryTrees entries) = some (Value.tidyEntries entries) := by
  induction entries with
  | nil => rfl
  | cons first rest ih =>
    obtain ⟨key, item⟩ := first
    rw [entryTrees, Node.entries?, text?_literal, each (key, item) List.mem_cons_self,
      ih fun entry member => each entry (List.mem_cons_of_mem _ member)]
    rfl

theorem value?_tidy (value : Value) (whole : value.WholeNumbers) :
    (tree value).value? = some value.tidy := by
  induction value using Value.induction with
  | null => rfl
  | boolean value => rfl
  | number number =>
    cases number with
    | double value => exact whole.elim
    | integer value =>
      rw [tree, Node.value?, numeralOf_integer, number?_numeral whole]
      rfl
  | string text =>
    rw [tree, Node.value?, text?_literal]
    rfl
  | list items ih =>
    have found := values?_trees fun item member =>
      ih item member (Value.itemsWhole_iff.mp whole item member)
    rw [tree, Node.value?, found]
    rfl
  | mapping entries ih =>
    have found := entries?_entryTrees fun entry member =>
      ih entry member (Value.entriesWhole_iff.mp whole entry member)
    rw [tree, Node.value?, found]
    rfl

theorem value?_tree (value : Value) (whole : value.WholeNumbers) (ascend : value.Ascending) :
    (tree value).value? = some value := by
  rw [value?_tidy value whole, Value.tidy_eq_self ascend]

end Trees

section Blanks

variable {blanks : List Char}

theorem skipBlank_blanks (blank : ∀ c ∈ blanks, c ∈ [' ', '\t', '\n', '\r']) (input : Bytes) :
    skipBlank (utf8 blanks ++ input) = skipBlank input := by
  induction blanks with
  | nil => rfl
  | cons c blanks ih =>
    obtain ⟨first, others⟩ := List.forall_mem_cons.mp blank
    obtain ⟨ascii, skipped⟩ : c.toNat < 128 ∧ isBlank (UInt8.ofNat c.toNat) = true := by
      simp only [List.mem_cons, List.not_mem_nil, or_false] at first
      rcases first with rfl | rfl | rfl | rfl <;> decide
    rw [utf8_ascii ascii, List.cons_append, skipBlank, List.dropWhile_cons_of_pos skipped]
    exact ih others

theorem ends_blanks (blank : ∀ c ∈ blanks, c ∈ [' ', '\t', '\n', '\r']) {close : Char}
    (bracket : close = ']' ∨ close = '}') (rest : Bytes) :
    Ends (utf8 (blanks ++ [close]) ++ rest) := by
  cases blanks with
  | nil => rcases bracket with rfl | rfl <;> exact ends_utf8 (by decide) (by decide) [] rest
  | cons c blanks =>
    have first := blank c List.mem_cons_self
    simp only [List.mem_cons, List.not_mem_nil, or_false] at first
    rcases first with rfl | rfl | rfl | rfl <;>
      exact ends_utf8 (by decide) (by decide) (blanks ++ [close]) rest

end Blanks

section Series

def joined : List (List Char) → List Char
  | [] => []
  | [text] => text
  | text :: next :: rest => text ++ ',' :: joined (next :: rest)

theorem compactItems_eq (items : List Value) : compactItems items = joined (items.map compact) := by
  induction items with
  | nil => rfl
  | cons first rest ih =>
    cases rest with
    | nil => rfl
    | cons second rest => rw [compactItems, ih]; rfl

theorem compactEntries_eq (entries : List (String × Value)) :
    compactEntries entries =
      joined (entries.map fun entry => quoted entry.1 ++ ':' :: compact entry.2) := by
  induction entries with
  | nil => rfl
  | cons first rest ih =>
    cases rest with
    | nil => rfl
    | cons second rest => rw [compactEntries, ih]; simp [joined]

variable {α : Type} {close : Char} {item : Bytes → Option (α × Bytes)}
  {parts : List (List Char × α)} {gap : List Char}

theorem readSeries_joined (bracket : close = ']' ∨ close = '}')
    (blank : ∀ c ∈ gap, c ∈ [' ', '\t', '\n', '\r'])
    (each : ∀ part ∈ parts, ∀ rest, Ends rest → item (utf8 part.1 ++ rest) = some (part.2, rest))
    (filled : parts ≠ []) {room : Nat} (fits : parts.length ≤ room) (rest : Bytes) :
    readSeries close item room (utf8 (joined (parts.map (·.1)) ++ (gap ++ [close])) ++ rest) =
      some (parts.map (·.2), rest) := by
  have ascii : close.toNat < 128 := by rcases bracket with rfl | rfl <;> decide
  have solid : close ∉ [' ', '\t', '\n', '\r'] := by rcases bracket with rfl | rfl <;> decide
  induction parts generalizing room with
  | nil => exact absurd rfl filled
  | cons first parts ih =>
    obtain ⟨room, rfl⟩ : ∃ n, room = n + 1 := Nat.exists_eq_add_one.mpr (by simp at fits; omega)
    have firstRead := each first List.mem_cons_self
    cases parts with
    | nil =>
      have read := firstRead _ (ends_blanks blank bracket rest)
      have closed : skipBlank (utf8 (gap ++ [close]) ++ rest) =
          UInt8.ofNat close.toNat :: (utf8 [] ++ rest) := by
        rw [Text.utf8_append, List.append_assoc, skipBlank_blanks blank,
          skipBlank_ascii ascii solid]
      rw [List.map_singleton, joined, Text.utf8_append, List.append_assoc, readSeries, read]
      simp [closed, char_ofNat ascii, -Text.utf8_cons, -Text.utf8_append]
    | cons second parts =>
      -- The comma ends the first item; after it a series with one part less is read.
      have read := firstRead _ (ends_utf8 (c := ',') (by decide) (by decide)
        (joined ((second :: parts).map (·.1)) ++ (gap ++ [close])) rest)
      have others := ih (fun part member => each part (List.mem_cons_of_mem _ member)) (by simp)
        (Nat.le_of_succ_le_succ fits)
      have other : ¬ ',' = close := by rcases bracket with rfl | rfl <;> decide
      rw [List.map_cons, List.map_cons, joined, List.append_assoc, Text.utf8_append,
        List.append_assoc, readSeries, List.cons_append, ← List.map_cons, read]
      simp (disch := decide) only [skipBlank_ascii, char_ofNat, if_neg other, if_pos, others]
      rfl

theorem item_of_readSeries {room : Nat} {input : Bytes} {found : List α × Bytes}
    (read : readSeries close item room input = some found) : ∃ first, item input = some first := by
  cases room with
  | zero => cases read
  | succ room =>
    rw [readSeries] at read
    cases begun : item input with
    | none => simp [begun] at read
    | some first => exact ⟨first, rfl⟩

theorem length_le_joined {text : List Char} {texts : List (List Char)} (member : text ∈ texts) :
    (utf8 text).length ≤ (utf8 (joined texts)).length := by
  induction texts with
  | nil => cases member
  | cons first texts ih =>
    cases texts with
    | nil => exact Nat.le_of_eq (by rw [List.mem_singleton.mp member, joined])
    | cons second texts =>
      rw [joined, Text.utf8_append, List.length_append, Text.utf8_cons, List.length_append]
      rcases List.mem_cons.mp member with rfl | further
      · exact Nat.le_add_right _ _
      · exact Nat.le_add_left_of_le (Nat.le_add_left_of_le (ih further))

theorem count_le_joined {texts : List (List Char)} (filled : ∀ text ∈ texts, text ≠ []) :
    texts.length ≤ (utf8 (joined texts)).length := by
  induction texts with
  | nil => exact Nat.zero_le _
  | cons first texts ih =>
    have tail := ih fun text member => filled text (List.mem_cons_of_mem _ member)
    cases texts with
    | nil =>
      obtain ⟨c, text, rfl⟩ := List.exists_cons_of_ne_nil (filled first List.mem_cons_self)
      have size := c.utf8Size_pos
      simp only [joined, Text.utf8_cons, List.length_append, String.length_utf8EncodeChar,
        List.length_singleton]
      omega
    | cons second texts =>
      have comma : (String.utf8EncodeChar ',').length = 1 := rfl
      simp only [List.length_cons] at tail ⊢
      simp only [joined, Text.utf8_append, Text.utf8_cons, List.length_append, comma]
      omega

theorem readContents_joined {room : Nat} (bracket : close = ']' ∨ close = '}')
    (blank : ∀ c ∈ gap, c ∈ [' ', '\t', '\n', '\r']) (filled : ∀ part ∈ parts, part.1 ≠ [])
    (short : (utf8 (joined (parts.map (·.1)))).length ≤ room)
    (each : ∀ part ∈ parts, (utf8 part.1).length ≤ room →
      ∀ rest, Ends rest → item (utf8 part.1 ++ rest) = some (part.2, rest))
    (opens : ∀ input found, item input = some found → after? close (skipBlank input) = none)
    (rest : Bytes) :
    readContents room close item (utf8 (joined (parts.map (·.1)) ++ (gap ++ [close])) ++ rest) =
      some (parts.map (·.2), rest) := by
  by_cases none : parts = []
  · have ascii : close.toNat < 128 := by rcases bracket with rfl | rfl <;> decide
    have solid : close ∉ [' ', '\t', '\n', '\r'] := by rcases bracket with rfl | rfl <;> decide
    subst none
    rw [readContents, List.map_nil, joined, List.nil_append, Text.utf8_append, List.append_assoc,
      skipBlank_blanks blank, skipBlank_utf8 ascii solid, after?_utf8 ascii]
    rfl
  · have count : parts.length ≤ room := by
      have texts : ∀ text ∈ parts.map (·.1), text ≠ [] := by
        intro text member
        obtain ⟨part, inside, rfl⟩ := List.mem_map.mp member
        exact filled part inside
      exact Nat.le_trans (by simpa using count_le_joined texts) short
    have within : ∀ part ∈ parts, (utf8 part.1).length ≤ room := fun part member =>
      Nat.le_trans (length_le_joined (List.mem_map_of_mem member)) short
    have read := readSeries_joined bracket blank
      (fun part member => each part member (within part member)) none count rest
    -- The first item was read, so the closing character does not stand before it.
    obtain ⟨first, begun⟩ := item_of_readSeries read
    rw [readContents, opens _ _ begun]
    exact read

end Series

section Nodes

variable {room limit : Nat}

theorem readNumeral_other {byte : UInt8} (sign : char byte ≠ '-') (digit : isDigit byte = false)
    (rest : Bytes) : readNumeral (byte :: rest) = none := by
  have unsigned : after? '-' (byte :: rest) = none := if_neg sign
  have bare : digits (byte :: rest) = ([], byte :: rest) := by simp [digits, digit]
  simp only [readNumeral, unsigned, bare]
  rfl

/-- What the reader makes of its input, without blanks and by the first character. -/
alias readNode_eq := readNode.eq_def

theorem readNode_blanks {blanks : List Char} (blank : ∀ c ∈ blanks, c ∈ [' ', '\t', '\n', '\r']) (room limit : Nat)
    (input : Bytes) : readNode room limit (utf8 blanks ++ input) = readNode room limit input := by
  rw [readNode_eq, skipBlank_blanks blank, ← readNode_eq]

theorem opens_readNode {input : Bytes} {found : Node × Bytes}
    (read : readNode room limit input = some found) : after? ']' (skipBlank input) = none := by
  rw [readNode_eq] at read
  cases skipped : skipBlank input with
  | nil => rfl
  | cons byte rest =>
    rw [skipped] at read
    by_cases closing : char byte = ']'
    · have stuck : readNumeral (byte :: rest) = none :=
        readNumeral_other (by rw [closing]; decide) (by rw [isDigit, closing]; decide) rest
      simp [closing, stuck] at read
    · rw [after?, if_neg closing]

theorem opens_readEntry {item : Bytes → Option (Node × Bytes)} {input : Bytes}
    {found : (Literal × Node) × Bytes} (read : readEntry item input = some found) :
    after? '}' (skipBlank input) = none := by
  cases skipped : skipBlank input with
  | nil => rfl
  | cons byte rest =>
    by_cases closing : char byte = '}'
    · have quote : after? '"' (byte :: rest) = none := by rw [after?, closing, if_neg (by decide)]
      rw [readEntry, skipped, quote] at read
      cases read
    · rw [after?, if_neg closing]

theorem ne_of_numeric {c other : Char} (numeric : c.isDigit = true ∨ c ∈ ['-', '.', 'e'])
    (token : other.isDigit = false ∧ other ∉ ['-', '.', 'e']) : c ≠ other := by
  rintro rfl
  rcases numeric with digit | mark
  · exact absurd digit (by simp [token.1])
  · exact token.2 mark

theorem readNode_numeral {c : Char} (numeric : c.isDigit = true ∨ c ∈ ['-', '.', 'e'])
    (text : List Char) (rest : Bytes) :
    readNode room limit (utf8 (c :: text) ++ rest) =
      (readNumeral (utf8 (c :: text) ++ rest)).map fun (numeral, rest) => (.number numeral, rest) := by
  have ascii := ascii_of_numeric numeric
  have solid : c ∉ [' ', '\t', '\n', '\r'] := by
    simp only [List.mem_cons, List.not_mem_nil, or_false, not_or]
    exact ⟨ne_of_numeric numeric (by decide), ne_of_numeric numeric (by decide),
      ne_of_numeric numeric (by decide), ne_of_numeric numeric (by decide)⟩
  rw [readNode_eq, skipBlank_utf8 ascii solid, utf8_ascii ascii, List.cons_append]
  simp only [char_ofNat ascii]
  split
  case h_7 => rfl
  all_goals exact absurd rfl (ne_of_numeric numeric (by decide))

theorem readNode_integer (value : Int) {rest : Bytes} (ends : Ends rest) :
    readNode room limit (utf8 (integerText value) ++ rest) =
      some (.number (numeral value), rest) := by
  obtain ⟨c, text, starts, begins⟩ :
      ∃ c text, (c.isDigit = true ∨ c ∈ ['-', '.', 'e']) ∧ integerText value = c :: text := by
    rw [integerText]
    split
    · exact ⟨'-', _, .inr (by decide), rfl⟩
    · obtain ⟨c, text, found⟩ := List.exists_cons_of_ne_nil
        (Nat.toDigits_ne_nil (n := value.natAbs) (b := 10))
      have digit : c.isDigit = true := isDigit_toDigits value.natAbs c (found ▸ List.mem_cons_self)
      exact ⟨c, text, .inl digit, found⟩
  have read := readNumeral_integerText value ends
  rw [begins] at read ⊢
  rw [readNode_numeral starts, read]
  rfl

theorem readEntry_compact {item : Bytes → Option (Node × Bytes)} {key : String} {text : List Char}
    {node : Node} {rest : Bytes} (read : item (utf8 text ++ rest) = some (node, rest)) :
    readEntry item (utf8 (quoted key ++ ':' :: text) ++ rest) = some ((literal key, node), rest) := by
  rw [quoted, List.cons_append, List.cons_append, readEntry,
    skipBlank_utf8 (by decide) (by decide), after?_utf8 (by decide), Text.utf8_append,
    List.append_assoc]
  simp (disch := decide) only [Option.bind_eq_bind, Option.bind_some, readLiteral_quoted,
    skipBlank_utf8, after?_utf8, read]
  rfl

attribute [local simp] compact

theorem compact_ne_nil {value : Value} (whole : value.WholeNumbers) : compact value ≠ [] := by
  cases value with
  | boolean value => cases value <;> simp
  | number number =>
    cases number with
    | double value => exact whole.elim
    | integer value =>
      rw [compact, numberText, integerText]
      split <;> simp
  | _ => simp [quoted]

theorem readNode_null (rest : Bytes) :
    readNode room limit (utf8 (compact .null) ++ rest) = some (tree .null, rest) := by
  rw [compact, readNode_eq, skipBlank_ascii (by decide) (by decide)]
  simp (disch := decide) only [char_ofNat, afterWord?_utf8]
  rfl

theorem readNode_boolean (value : Bool) (rest : Bytes) :
    readNode room limit (utf8 (compact (.boolean value)) ++ rest) =
      some (tree (.boolean value), rest) := by
  cases value with
  | true =>
    rw [compact, readNode_eq, skipBlank_ascii (by decide) (by decide)]
    simp (disch := decide) only [char_ofNat, afterWord?_utf8]
    rfl
  | false =>
    rw [compact, readNode_eq, skipBlank_ascii (by decide) (by decide)]
    simp (disch := decide) only [char_ofNat, afterWord?_utf8]
    rfl

theorem readNode_string (text : String) (rest : Bytes) :
    readNode room limit (utf8 (compact (.string text)) ++ rest) =
      some (tree (.string text), rest) := by
  rw [compact, quoted, List.cons_append, readNode_eq, skipBlank_ascii (by decide) (by decide)]
  simp (disch := decide) only [char_ofNat, readLiteral_quoted]
  rfl

theorem readNode_list {write : Value → List Char} {items : List Value} {gap : List Char}
    (blank : ∀ c ∈ gap, c ∈ [' ', '\t', '\n', '\r']) (filled : ∀ item ∈ items, write item ≠ [])
    (short : (utf8 (joined (items.map write))).length ≤ room)
    (each : ∀ item ∈ items, (utf8 (write item)).length ≤ room → ∀ rest, Ends rest →
      readNode room limit (utf8 (write item) ++ rest) = some (tree item, rest)) (rest : Bytes) :
    readNode room (limit + 1) (utf8 ('[' :: (joined (items.map write) ++ (gap ++ [']']))) ++ rest) =
      some (tree (.list items), rest) := by
  let parts := items.map fun item => (write item, tree item)
  have texts : items.map write = parts.map (·.1) := by simp [parts]
  have nodes : trees items = parts.map (·.2) := by simp [parts, trees_eq_map]
  have filledPart : ∀ part ∈ parts, part.1 ≠ [] := by
    intro part member
    obtain ⟨item, inside, rfl⟩ := List.mem_map.mp member
    exact filled item inside
  have eachPart : ∀ part ∈ parts, (utf8 part.1).length ≤ room → ∀ rest, Ends rest →
      readNode room limit (utf8 part.1 ++ rest) = some (part.2, rest) := by
    intro part member
    obtain ⟨item, inside, rfl⟩ := List.mem_map.mp member
    exact each item inside
  rw [texts] at short ⊢
  have read := readContents_joined (.inl rfl) blank filledPart short eachPart
    (fun _ _ => opens_readNode) rest
  rw [readNode_eq, skipBlank_ascii (by decide) (by decide), tree, nodes]
  simp (disch := decide) only [char_ofNat, read]
  rfl

theorem readNode_mapping {write : String × Value → List Char} {entries : List (String × Value)}
    {gap : List Char} (blank : ∀ c ∈ gap, c ∈ [' ', '\t', '\n', '\r'])
    (filled : ∀ entry ∈ entries, write entry ≠ [])
    (short : (utf8 (joined (entries.map write))).length ≤ room)
    (each : ∀ entry ∈ entries, (utf8 (write entry)).length ≤ room → ∀ rest, Ends rest →
      readEntry (readNode room limit) (utf8 (write entry) ++ rest) =
        some ((literal entry.1, tree entry.2), rest)) (rest : Bytes) :
    readNode room (limit + 1)
        (utf8 ('{' :: (joined (entries.map write) ++ (gap ++ ['}']))) ++ rest) =
      some (tree (.mapping entries), rest) := by
  let parts := entries.map fun entry => (write entry, (literal entry.1, tree entry.2))
  have texts : entries.map write = parts.map (·.1) := by simp [parts]
  have nodes : entryTrees entries = parts.map (·.2) := by simp [parts, entryTrees_eq_map]
  have filledPart : ∀ part ∈ parts, part.1 ≠ [] := by
    intro part member
    obtain ⟨entry, inside, rfl⟩ := List.mem_map.mp member
    exact filled entry inside
  have eachPart : ∀ part ∈ parts, (utf8 part.1).length ≤ room → ∀ rest, Ends rest →
      readEntry (readNode room limit) (utf8 part.1 ++ rest) = some (part.2, rest) := by
    intro part member
    obtain ⟨entry, inside, rfl⟩ := List.mem_map.mp member
    exact each entry inside
  rw [texts] at short ⊢
  have read := readContents_joined (.inr rfl) blank filledPart short eachPart
    (fun _ _ => opens_readEntry) rest
  rw [readNode_eq, skipBlank_ascii (by decide) (by decide), tree, nodes]
  simp (disch := decide) only [char_ofNat, read]
  rfl

/-- The text of a value is read as its tree, up to where the text ends. -/
theorem readNode_compact (value : Value) (whole : value.WholeNumbers)
    (short : (utf8 (compact value)).length ≤ room) (flat : value.depth ≤ limit) {rest : Bytes}
    (ends : Ends rest) :
    readNode room limit (utf8 (compact value) ++ rest) = some (tree value, rest) := by
  have bare : ∀ c ∈ ([] : List Char), c ∈ [' ', '\t', '\n', '\r'] := by simp
  -- One container less may nest inside each, while the room stays that of the whole text.
  induction value using Value.induction generalizing limit rest with
  | null => exact readNode_null rest
  | boolean value => exact readNode_boolean value rest
  | number number =>
    cases number with
    | double value => exact whole.elim
    | integer value => rw [compact, numberText, tree, numeralOf_integer, readNode_integer value ends]
  | string text => exact readNode_string text rest
  | list items ih =>
    obtain ⟨limit, rfl⟩ : ∃ n, limit = n + 1 := Nat.exists_eq_add_one.mpr (Nat.zero_lt_of_lt flat)
    have inner := Value.depthOfItems_le_iff.mp (Nat.le_of_succ_le_succ flat)
    have all := Value.itemsWhole_iff.mp whole
    rw [compact, compactItems_eq, List.cons_append] at short ⊢
    have inside : (utf8 (joined (items.map compact))).length ≤ room := by
      simp only [Text.utf8_cons, Text.utf8_append, List.length_append] at short
      omega
    have filled : ∀ item ∈ items, compact item ≠ [] := fun item member =>
      compact_ne_nil (all item member)
    apply readNode_list bare filled inside
    intro item member within rest ends
    exact ih item member (all item member) within (inner item member) ends
  | mapping entries ih =>
    obtain ⟨limit, rfl⟩ : ∃ n, limit = n + 1 := Nat.exists_eq_add_one.mpr (Nat.zero_lt_of_lt flat)
    have inner := Value.depthOfEntries_le_iff.mp (Nat.le_of_succ_le_succ flat)
    have all := Value.entriesWhole_iff.mp whole
    rw [compact, compactEntries_eq, List.cons_append] at short ⊢
    have inside : (utf8 (joined (entries.map fun entry =>
        quoted entry.1 ++ ':' :: compact entry.2))).length ≤ room := by
      simp only [Text.utf8_cons, Text.utf8_append, List.length_append] at short
      omega
    have filled : ∀ entry ∈ entries, quoted entry.1 ++ ':' :: compact entry.2 ≠ [] := by simp
    apply readNode_mapping bare filled inside
    intro entry member within rest ends
    simp only [Text.utf8_cons, Text.utf8_append, List.length_append] at within
    exact readEntry_compact (ih entry member (all entry member) (by omega) (inner entry member) ends)

theorem readValue_compact {value : Value} {limit : Nat} (whole : value.WholeNumbers)
    (ascend : value.Ascending) (flat : value.depth ≤ limit) :
    readValue limit (utf8 (compact value)) = some value := by
  have tokens := readNode_compact value whole (Nat.le_refl _) flat ends_nil
  rw [List.append_nil] at tokens
  rw [readValue, read, tokens]
  exact value?_tree value whole ascend

end Nodes

section Documents

variable {blanks : List Char} {record : Record}

theorem readValue_blanks (blank : ∀ c ∈ blanks, c ∈ [' ', '\t', '\n', '\r']) (limit : Nat)
    (input : Bytes) :
    readValue limit (utf8 blanks ++ input) =
      ((readNode (utf8 blanks ++ input).length limit input).bind fun found =>
        if skipBlank found.2 = [] then some found.1 else none).bind Node.value? := by
  rw [readValue, read, readNode_blanks blank]
  cases readNode _ limit input <;> rfl

theorem decode_nonempty (blanks : List Char) (record : Record) :
    decode (utf8 blanks ++ encode record) =
      match readValue depthLimit (utf8 blanks ++ encode record) with
      | none => .error (.malformed .json)
      | some value => Codec.record value := by
  have opens : (utf8 blanks ++ encode record).all isEmptyByte = false := by
    rw [List.all_append, encode, Record.toValue, compact, List.cons_append,
      utf8_ascii (by decide), List.all_cons]
    exact Bool.and_false _
  rw [decode, opens]
  rfl

/-- A record comes back from its JSON text, whatever blanks stand before it. -/
theorem decode_encode_blanks (blank : ∀ c ∈ blanks, c ∈ [' ', '\t', '\n', '\r'])
    (whole : record.WholeNumbers) (ascend : record.Ascending) (flat : record.depth ≤ depthLimit) :
    decode (utf8 blanks ++ encode record) = .ok record := by
  have tokens : readNode (utf8 blanks ++ encode record).length depthLimit (encode record) =
      some (tree record.toValue, []) := by
    have short : (encode record).length ≤ (utf8 blanks ++ encode record).length := by
      rw [List.length_append]
      exact Nat.le_add_left _ _
    have read := readNode_compact record.toValue whole short flat ends_nil
    rwa [List.append_nil] at read
  have value : readValue depthLimit (utf8 blanks ++ encode record) = some record.toValue := by
    rw [readValue_blanks blank, tokens]
    exact value?_tree record.toValue whole ascend
  rw [decode_nonempty, value]
  rfl

theorem decode_encode (whole : record.WholeNumbers) (ascend : record.Ascending)
    (flat : record.depth ≤ depthLimit) : decode (encode record) = .ok record := by
  have bare : ∀ c ∈ ([] : List Char), c ∈ [' ', '\t', '\n', '\r'] := by simp
  exact decode_encode_blanks bare whole ascend flat

end Documents

end StartPage.Json
