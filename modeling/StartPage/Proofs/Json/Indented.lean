import StartPage.Proofs.Json.RoundTrip

/-!
Reading back indented text. The blanks that indent it stand between tokens only, so it is read as
the same tree as the text without them, and whoever reads a document does not see which of the two
it was written in.
-/
namespace StartPage.Json

open Text (utf8)

theorem prettyItems_eq (level : Nat) (items : List Value) :
    prettyItems level items = joined (items.map fun item => newline level ++ prettyAt level item) := by
  induction items with
  | nil => rfl
  | cons first rest ih =>
    cases rest with
    | nil => rfl
    | cons second rest =>
      rw [prettyItems, ih]
      rfl

theorem prettyEntries_eq (level : Nat) (entries : List (String × Value)) :
    prettyEntries level entries = joined (entries.map fun entry =>
      newline level ++ (quoted entry.1 ++ ':' :: ' ' :: prettyAt level entry.2)) := by
  induction entries with
  | nil => rfl
  | cons first rest ih =>
    cases rest with
    | nil => simp [prettyEntries, joined]
    | cons second rest =>
      rw [prettyEntries, ih]
      simp [joined]

theorem blank_newline (level : Nat) : ∀ c ∈ newline level, c ∈ [' ', '\t', '\n', '\r'] := by
  intro c member
  rcases List.mem_cons.mp member with rfl | space
  · decide
  · rw [List.eq_of_mem_replicate space]
    decide

theorem prettyAt_list {level : Nat} {items : List Value} (filled : items ≠ []) :
    prettyAt level (.list items) = '[' :: (joined (items.map fun item =>
      newline (level + 1) ++ prettyAt (level + 1) item) ++ (newline level ++ [']'])) := by
  cases items with
  | nil => exact absurd rfl filled
  | cons first rest => simp [prettyAt, prettyItems_eq]

theorem prettyAt_mapping {level : Nat} {entries : List (String × Value)} (filled : entries ≠ []) :
    prettyAt level (.mapping entries) = '{' :: (joined (entries.map fun entry =>
      newline (level + 1) ++ (quoted entry.1 ++ ':' :: ' ' :: prettyAt (level + 1) entry.2)) ++
        (newline level ++ ['}'])) := by
  cases entries with
  | nil => exact absurd rfl filled
  | cons first rest => simp [prettyAt, prettyEntries_eq]

theorem newline_ne_nil (level : Nat) (text : List Char) : newline level ++ text ≠ [] := by
  simp [newline]

theorem length_within {room : Nat} {first : Char} {inside tail : List Char}
    (short : (utf8 (first :: (inside ++ tail))).length ≤ room) : (utf8 inside).length ≤ room := by
  rw [Text.utf8_cons, Text.utf8_append, List.length_append, List.length_append] at short
  omega

theorem readEntry_blanks {blanks : List Char} (blank : ∀ c ∈ blanks, c ∈ [' ', '\t', '\n', '\r'])
    (item : Bytes → Option (Node × Bytes)) (input : Bytes) :
    readEntry item (utf8 blanks ++ input) = readEntry item input := by
  rw [readEntry, readEntry, skipBlank_blanks blank]

theorem readNode_pretty (value : Value) (whole : value.WholeNumbers) {room limit : Nat}
    {level : Nat} (short : (utf8 (prettyAt level value)).length ≤ room)
    (flat : value.depth ≤ limit) {rest : Bytes} (ends : Ends rest) :
    readNode room limit (utf8 (prettyAt level value) ++ rest) = some (tree value, rest) := by
  -- The level of indentation rises as the limit of nesting falls.
  induction value using Value.induction generalizing limit level rest with
  | null => exact readNode_null rest
  | boolean value => exact readNode_boolean value rest
  | number number => exact readNode_compact (.number number) whole short flat ends
  | string text => exact readNode_string text rest
  | list items ih =>
    obtain ⟨limit, rfl⟩ : ∃ n, limit = n + 1 := Nat.exists_eq_add_one.mpr (Nat.zero_lt_of_lt flat)
    have inner := Value.depthOfItems_le_iff.mp (Nat.le_of_succ_le_succ flat)
    have all := Value.itemsWhole_iff.mp whole
    by_cases none : items = []
    · subst none
      exact readNode_compact (.list []) whole short flat ends
    · rw [prettyAt_list none] at short ⊢
      refine readNode_list (blank_newline level) (fun item _ => newline_ne_nil _ _)
        (length_within short) ?_ rest
      intro item member within rest ends
      rw [Text.utf8_append, List.append_assoc, readNode_blanks (blank_newline _)]
      rw [Text.utf8_append, List.length_append] at within
      exact ih item member (all item member) (by omega) (inner item member) ends
  | mapping entries ih =>
    obtain ⟨limit, rfl⟩ : ∃ n, limit = n + 1 := Nat.exists_eq_add_one.mpr (Nat.zero_lt_of_lt flat)
    have inner := Value.depthOfEntries_le_iff.mp (Nat.le_of_succ_le_succ flat)
    have all := Value.entriesWhole_iff.mp whole
    by_cases none : entries = []
    · subst none
      exact readNode_compact (.mapping []) whole short flat ends
    · rw [prettyAt_mapping none] at short ⊢
      refine readNode_mapping (blank_newline level) (fun entry _ => newline_ne_nil _ _)
        (length_within short) ?_ rest
      intro entry member within rest ends
      rw [Text.utf8_append, List.append_assoc, readEntry_blanks (blank_newline _)]
      simp only [Text.utf8_cons, Text.utf8_append, List.length_append] at within
      have space : ∀ c ∈ [' '], c ∈ [' ', '\t', '\n', '\r'] := by simp
      have read : readNode room limit (utf8 (prettyAt (level + 1) entry.2) ++ rest) =
          some (tree entry.2, rest) :=
        ih entry member (all entry member) (by omega) (inner entry member) ends
      rw [← readNode_blanks space] at read
      exact readEntry_compact read

end StartPage.Json
