import Mathlib.Data.List.TakeWhile
import Mathlib.Tactic.SplitIfs
import StartPage.Proofs.Extension
import StartPage.Proofs.Json.Nesting

/-!
JSON text when more bytes follow. Every tree but a number has an end of its own; a number ends where
something else follows it, and inside a container a comma, a bracket or a brace always does. So a
text that is read stays read, no front of a record's text is itself a text, and behind a record's
text only blanks may stand.
-/
namespace StartPage.Json

open Text (utf8 utf8_ascii)

section Tokens

theorem char_eq_iff {byte : UInt8} {c : Char} : char byte = c ↔ byte.toNat = c.toNat := by
  rw [← Char.toNat_inj, toNat_char]

theorem isBlank_iff {byte : UInt8} : isBlank byte = true ↔ byte ∈ [0x20, 0x09, 0x0A, 0x0D] := by
  simp [isBlank, char_eq_iff, ← UInt8.toNat_inj, or_assoc]

theorem skipBlank_eq_nil_iff {tail : Bytes} :
    skipBlank tail = [] ↔ tail.all (· ∈ [0x20, 0x09, 0x0A, 0x0D]) = true := by
  rw [skipBlank, List.dropWhile_eq_nil_iff, List.all_eq_true]
  exact forall₂_congr fun byte _ => isBlank_iff.trans decide_eq_true_iff.symm

variable {input : Bytes}

theorem skipBlank_append (solid : skipBlank input ≠ []) (more : Bytes) :
    skipBlank (input ++ more) = skipBlank input ++ more := by
  simp only [skipBlank] at solid ⊢
  rw [List.dropWhile_append, if_neg (mt List.isEmpty_iff.mp solid)]

theorem after?_append (filled : input ≠ []) (c : Char) (more : Bytes) :
    after? c (input ++ more) = (after? c input).map (· ++ more) := by
  cases input with
  | nil => exact absurd rfl filled
  | cons byte input =>
    rw [List.cons_append, after?, after?]
    split <;> rfl

theorem token_append {c : Char} {rest : Bytes} (read : after? c (skipBlank input) = some rest)
    (more : Bytes) : after? c (skipBlank (input ++ more)) = some (rest ++ more) := by
  have solid : skipBlank input ≠ [] := by
    intro none
    rw [none] at read
    cases read
  rw [skipBlank_append solid, after?_append solid, read]
  rfl

theorem afterWord?_append {word : List Char} {rest : Bytes}
    (read : afterWord? word input = some rest) (more : Bytes) :
    afterWord? word (input ++ more) = some (rest ++ more) := by
  induction word generalizing input with
  | nil => rw [← Option.some.inj read]; rfl
  | cons c word ih =>
    obtain ⟨between, first, others⟩ := Option.bind_eq_some_iff.mp read
    have filled : input ≠ [] := by
      rintro rfl
      cases first
    rw [afterWord?, after?_append filled, first]
    exact ih others

theorem afterWord?_carries {α : Type} (word : List Char) (value : α) :
    Carries (fun input => (afterWord? word input).map fun rest => (value, rest))
      fun input => (afterWord? word input).map fun rest => (value, rest) := by
  intro input found rest read more
  obtain ⟨left, read, same⟩ := Option.map_eq_some_iff.mp read
  cases same
  exact Option.map_eq_some_iff.mpr ⟨_, afterWord?_append read more, rfl⟩

theorem digits_carries :
    CarriesWithin (fun input => some (digits input)) fun input => some (digits input) := by
  intro input found rest read left
  cases read
  have filled : input ≠ [] := by
    rintro rfl
    exact left rfl
  refine ⟨filled, fun more => ?_⟩
  -- The digits are not all of the input, so they end where they did.
  have partly : ¬ (input.takeWhile isDigit).length = input.length := by
    intro all
    have parts := congrArg List.length (List.takeWhile_append_dropWhile (p := isDigit) (l := input))
    rw [List.length_append] at parts
    exact left (List.eq_nil_of_length_eq_zero (by omega))
  show some (digits (input ++ more)) = _
  rw [digits, List.takeWhile_append, if_neg partly, List.dropWhile_append,
    if_neg (mt List.isEmpty_iff.mp left)]

variable {α : Type} {present absent : Bytes → Option (α × Bytes)}

theorem after?_carries (c : Char) (absent_carries : CarriesWithin absent absent)
    (present_carries : CarriesWithin present present) :
    CarriesWithin
      (fun input =>
        match after? c input with | none => absent input | some rest => present rest)
      (fun input =>
        match after? c input with | none => absent input | some rest => present rest) := by
  intro input value rest read left
  cases found : after? c input with
  | none =>
    simp only [found] at read
    obtain ⟨filled, again⟩ := absent_carries read left
    refine ⟨filled, fun more => ?_⟩
    simp only [after?_append filled, found, Option.map_none, again more]
  | some after =>
    have filled : input ≠ [] := by
      rintro rfl
      cases found
    simp only [found] at read
    obtain ⟨-, again⟩ := present_carries read left
    refine ⟨filled, fun more => ?_⟩
    simp only [after?_append filled, found, Option.map_some, again more]

theorem readFraction_carries : CarriesWithin readFraction readFraction :=
  after?_carries '.' (.pure [])
    (digits_carries.bind fun found => .guarded (.pure found) (found = []))

theorem readExponent_carries : CarriesWithin readExponent readExponent := by
  have signed := after?_carries '-' (after?_carries '+' (.pure false) (.pure false)) (.pure true)
  have power := signed.bind fun negative => digits_carries.bind fun found =>
    .guarded (.pure (some (if negative then -(ofDigits found : Int) else ofDigits found)))
      (found = [])
  apply (after?_carries 'e' (after?_carries 'E' (.pure none) power) power).of_eq
  intro input
  rw [readExponent]
  cases after? 'e' input with
  | some after =>
    dsimp only [Option.some_or]
    cases after? '-' after with
    | some _ => rfl
    | none => cases after? '+' after <;> rfl
  | none =>
    dsimp only [Option.none_or]
    cases after? 'E' input with
    | none => rfl
    | some after =>
      dsimp only
      cases after? '-' after with
      | some _ => rfl
      | none => cases after? '+' after <;> rfl

theorem readNumeral_carries : CarriesWithin readNumeral readNumeral := by
  have unsigned (negative : Bool) := digits_carries.bind fun whole =>
    .guarded
      (readFraction_carries.bind fun fraction => readExponent_carries.bind fun exponent =>
        .pure (⟨negative, whole, fraction, exponent⟩ : Decimal.Numeral))
      (whole = [] ∨ (whole.head? = some 0 ∧ whole.length ≠ 1))
  apply ((after?_carries '-' (.pure false) (.pure true)).bind unsigned).of_eq
  intro input
  rw [readNumeral]
  cases after? '-' input <;> rfl

theorem readLiteral_carries : Carries readLiteral readLiteral := by
  intro input literal rest read more
  fun_induction readLiteral input generalizing literal rest with
  | case1 | case3 | case4 | case7 | case8 => cases read
  | case2 byte input quote =>
    cases read
    rw [List.cons_append, readLiteral.eq_def]
    simp only [quote, if_pos]
  | case5 byte quote control backslash escape input value short ih =>
    obtain ⟨⟨found, left⟩, read, same⟩ := Option.map_eq_some_iff.mp read
    cases same
    rw [List.cons_append, List.cons_append, readLiteral.eq_def]
    simp only [control, backslash, if_false, if_true, short, ih read]
    rfl
  | case6 byte quote control backslash escape long mark a b c d input ih =>
    obtain ⟨unit, hex, read⟩ := Option.bind_eq_some_iff.mp read
    obtain ⟨⟨found, left⟩, read, same⟩ := Option.bind_eq_some_iff.mp read
    cases same
    simp only [List.cons_append]
    rw [readLiteral.eq_def]
    simp only [control, backslash, if_false, if_true, long, mark, hex, ih read]
    rfl
  | case9 byte input quote control backslash ih =>
    obtain ⟨⟨found, left⟩, read, same⟩ := Option.map_eq_some_iff.mp read
    cases same
    rw [List.cons_append, readLiteral.eq_def]
    simp only [quote, control, backslash, if_false, ih read]
    rfl

end Tokens

section Series

variable {α : Type} {item further : Bytes → Option (α × Bytes)}

theorem readSeries_carries (each : CarriesWithin item further) {room roomy : Nat}
    (fits : room ≤ roomy) (close : Char) :
    Carries (readSeries close item room) (readSeries close further roomy) := by
  induction room generalizing roomy with
  | zero =>
    intro input found rest read
    cases read
  | succ room ih =>
    obtain ⟨roomy, rfl⟩ : ∃ n, roomy = n + 1 := Nat.exists_eq_add_one.mpr (by omega)
    intro input found rest read more
    rw [readSeries] at read ⊢
    split at read
    case h_1 => cases read
    case h_2 first left begun =>
      split at read
      case h_1 => cases read
      case h_2 byte after next =>
        -- A byte follows the item, so the item ends where it did.
        have solid : skipBlank left ≠ [] := by
          rw [next]
          exact List.cons_ne_nil _ _
        have stopped : left ≠ [] := by
          rintro rfl
          exact solid rfl
        rw [(each begun stopped).2 more]
        simp only [skipBlank_append solid, next, List.cons_append]
        split_ifs at read ⊢ with closing comma
        · exact Carries.pure _ read more
        · exact (ih (Nat.le_of_succ_le_succ fits)).map (first :: ·) read more

theorem readContents_carries (each : CarriesWithin item further)
    (solid : ∀ input found, item input = some found → skipBlank input ≠ [])
    {room roomy : Nat} (fits : room ≤ roomy) (close : Char) :
    Carries (readContents room close item) (readContents roomy close further) := by
  intro input found rest read more
  rw [readContents] at read ⊢
  split at read
  case h_1 after closing =>
    cases read
    rw [token_append closing]
  case h_2 opens =>
    obtain ⟨first, begun⟩ := item_of_readSeries read
    have solid := solid input first begun
    rw [skipBlank_append solid, after?_append solid, opens]
    exact readSeries_carries each fits close read more

end Series

section Nodes

theorem readEntry_carries {item further : Bytes → Option (Node × Bytes)}
    (each : CarriesWithin item further) : CarriesWithin (readEntry item) (readEntry further) := by
  intro input found rest read left
  obtain ⟨after, quote, read⟩ := Option.bind_eq_some_iff.mp read
  obtain ⟨⟨key, between⟩, literal, read⟩ := Option.bind_eq_some_iff.mp read
  obtain ⟨value, colon, read⟩ := Option.bind_eq_some_iff.mp read
  obtain ⟨⟨node, behind⟩, node, same⟩ := Option.bind_eq_some_iff.mp read
  cases same
  have filled : input ≠ [] := by
    rintro rfl
    cases quote
  refine ⟨filled, fun more => ?_⟩
  rw [readEntry, token_append quote]
  simp only [Option.bind_eq_bind, Option.bind_some, readLiteral_carries literal more,
    token_append colon, (each node left).2 more]
  rfl

theorem solid_of_readEntry {item : Bytes → Option (Node × Bytes)} {input : Bytes}
    {found : (Literal × Node) × Bytes} (read : readEntry item input = some found) :
    skipBlank input ≠ [] := by
  intro none
  rw [readEntry, none] at read
  cases read

theorem solid_of_readNode {room limit : Nat} {input : Bytes} {found : Node × Bytes}
    (read : readNode room limit input = some found) : skipBlank input ≠ [] := by
  intro none
  rw [readNode_eq, none] at read
  cases read

variable {room roomy limit : Nat}

/-- A tree stays read with more bytes behind it, and so does a number that ended before they came,
if every tree with one container less around it does. -/
theorem readNode_append (fits : room ≤ roomy)
    (inner : ∀ less, limit = less + 1 → CarriesWithin (readNode room less) (readNode roomy less))
    {input : Bytes} {node : Node} {rest : Bytes}
    (read : readNode room limit input = some (node, rest))
    (stopped : rest ≠ [] ∨ ∀ numeral, node ≠ .number numeral) (more : Bytes) :
    readNode roomy limit (input ++ more) = some (node, rest ++ more) := by
  have solid := solid_of_readNode read
  rw [readNode_eq] at read ⊢
  rw [skipBlank_append solid]
  cases skipped : skipBlank input with
  | nil => exact absurd skipped solid
  | cons byte after =>
    simp only [skipped, List.cons_append] at read ⊢
    split at read
    case h_1 => exact afterWord?_carries _ Node.null read more
    case h_2 => exact afterWord?_carries _ (Node.boolean true) read more
    case h_3 => exact afterWord?_carries _ (Node.boolean false) read more
    case h_4 => exact readLiteral_carries.map Node.string read more
    case h_5 =>
      cases limit with
      | zero => cases read
      | succ limit =>
        have items := readContents_carries (inner limit rfl) (fun _ _ => solid_of_readNode) fits ']'
        exact items.map Node.list read more
    case h_6 =>
      cases limit with
      | zero => cases read
      | succ limit =>
        have entries := readContents_carries (readEntry_carries (inner limit rfl))
          (fun _ _ => solid_of_readEntry) fits '}'
        exact entries.map Node.mapping read more
    case h_7 =>
      obtain ⟨⟨numeral, left⟩, number, same⟩ := Option.map_eq_some_iff.mp read
      cases same
      have ended := stopped.resolve_right fun other => other numeral rfl
      exact congrArg (Option.map _) ((readNumeral_carries number ended).2 more)

theorem readNode_carries (fits : room ≤ roomy) (limit : Nat) :
    CarriesWithin (readNode room limit) (readNode roomy limit) := by
  induction limit using Nat.strongRecOn with
  | ind limit ih =>
    intro input node rest read left
    have filled : input ≠ [] := by
      rintro rfl
      exact solid_of_readNode read rfl
    have inner : ∀ less, limit = less + 1 →
        CarriesWithin (readNode room less) (readNode roomy less) :=
      fun less deeper => ih less (by omega)
    exact ⟨filled, readNode_append fits inner read (.inl left)⟩

end Nodes

section Documents

variable {record : Record}

theorem encode_opens (record : Record) : ∃ text, encode record = 123 :: text := by
  rw [encode, Record.toValue, compact, List.cons_append, utf8_ascii (by decide)]
  exact ⟨_, rfl⟩

theorem decode_opens (text : Bytes) :
    decode (123 :: text) =
      match readValue depthLimit (123 :: text) with
      | none => .error (.malformed .json)
      | some value => Codec.record value := rfl

theorem mapping_of_readNode {text rest : Bytes} {node : Node}
    (read : readNode room limit (123 :: text) = some (node, rest)) :
    ∃ entries, node = .mapping entries := by
  have brace : char 123 = '{' := by decide
  have skipped : skipBlank (123 :: text) = 123 :: text := rfl
  rw [readNode_eq, skipped] at read
  simp only [brace] at read
  cases limit with
  | zero => cases read
  | succ limit =>
    obtain ⟨⟨entries, left⟩, -, same⟩ := Option.map_eq_some_iff.mp read
    cases same
    exact ⟨entries, rfl⟩

theorem readNode_truncated {cut : Bytes} (front : cut <+: encode record)
    (shorter : cut ≠ encode record) (room limit : Nat) : readNode room limit cut = none := by
  obtain ⟨more, joined⟩ := front
  refine Option.eq_none_iff_forall_ne_some.mpr fun (node, rest) read => shorter ?_
  obtain ⟨text, opens⟩ := encode_opens record
  cases cut with
  | nil => exact absurd rfl (solid_of_readNode read)
  | cons byte cut =>
    obtain ⟨rfl, -⟩ := List.cons.inj (joined.trans opens)
    obtain ⟨entries, rfl⟩ := mapping_of_readNode read
    have longer := readNode_append (Nat.le_refl room)
      (fun less _ => readNode_carries (Nat.le_refl room) less) read (.inr (by simp)) more
    -- Nothing is left behind the whole text, so nothing was missing.
    rw [joined, encode, ← List.append_nil (utf8 _)] at longer
    have nothing : rest ++ more = [] := (readNode_ends record.toValue ends_nil longer).1
    rw [← joined, (List.append_eq_nil_iff.mp nothing).2, List.append_nil]

theorem decode_truncated {cut : Bytes} (front : cut <+: encode record)
    (shorter : cut ≠ encode record) :
    decode cut = .error (if cut = [] then .empty else .malformed .json) := by
  have tokens := readNode_truncated front shorter cut.length depthLimit
  obtain ⟨more, joined⟩ := front
  obtain ⟨text, opens⟩ := encode_opens record
  cases cut with
  | nil => rfl
  | cons byte cut =>
    obtain ⟨rfl, -⟩ := List.cons.inj (joined.trans opens)
    rw [decode_opens, readValue, read, tokens]
    rfl

theorem decode_padded (whole : record.WholeNumbers) (ascend : record.Ascending)
    (flat : record.depth ≤ depthLimit) (tail : Bytes) :
    decode (encode record ++ tail) =
      if tail.all (· ∈ [0x20, 0x09, 0x0A, 0x0D]) then .ok record
      else .error (.malformed .json) := by
  let room := (encode record ++ tail).length
  have short : (encode record).length ≤ room := by simp [room]
  have alone := readNode_compact record.toValue whole short flat ends_nil
  rw [List.append_nil, ← encode] at alone
  have tokens : readNode room depthLimit (encode record ++ tail) =
      some (tree record.toValue, tail) :=
    readNode_append (Nat.le_refl room) (fun less _ => readNode_carries (Nat.le_refl room) less)
      alone (.inr (by simp [Record.toValue, tree])) tail
  have value : readValue depthLimit (encode record ++ tail) =
      if skipBlank tail = [] then some record.toValue else none := by
    rw [readValue, read, tokens]
    dsimp only
    split
    · exact value?_tree record.toValue whole ascend
    · rfl
  obtain ⟨text, opens⟩ := encode_opens record
  rw [opens, List.cons_append] at value ⊢
  rw [decode_opens, value]
  by_cases blank : skipBlank tail = []
  · rw [if_pos blank, if_pos (skipBlank_eq_nil_iff.mp blank)]
    rfl
  · rw [if_neg blank, if_neg (mt skipBlank_eq_nil_iff.mpr blank)]

end Documents
end StartPage.Json
