import StartPage.CommandLine.Assignment
import StartPage.Proofs.Json.RoundTrip
import StartPage.Proofs.Sequences
import StartPage.Proofs.Trimming

/-!
Assignments that carry a record. A name without an equals sign is found before the first one, and
the JSON text of a value neither begins nor ends with a blank, so each entry of a record survives
being written as an assignment, with any blanks around its two parts. The entries come together
whatever their order; of several with one name the last counts.
-/
namespace StartPage

namespace Json

theorem visible_integerText (value : Int) : ∀ c ∈ integerText value, Text.isBlank c = false := by
  have digits : ∀ c ∈ Nat.toDigits 10 value.natAbs, Text.isBlank c = false := by
    intro c member
    have digit := isDigit_toDigits value.natAbs c member
    simp only [Char.isDigit, Bool.and_eq_true, decide_eq_true_eq, UInt32.le_iff_toNat_le] at digit
    obtain ⟨low, high⟩ : 48 ≤ c.toNat ∧ c.toNat ≤ 57 := digit
    simp [Text.isBlank, Text.isWithin, Text.blankRanges]
    omega
  rw [integerText]
  split
  · exact List.forall_mem_cons.mpr ⟨by decide, digits⟩
  · exact digits

theorem trim_compact {value : Value} (whole : value.WholeNumbers) :
    Text.trim (.ofList (compact value)) = .ofList (compact value) := by
  cases value with
  | null => rw [compact]; decide
  | boolean value => cases value <;> (rw [compact]; decide)
  | number number =>
    cases number with
    | double value => exact whole.elim
    | integer value =>
      have visible := visible_integerText value
      rw [compact, numberText]
      exact Text.trim_solid (fun c first => visible c (List.mem_of_head? first))
        (fun c last => visible c (List.mem_of_getLast? last))
  | string text =>
    rw [compact, quoted]
    apply Text.trim_solid <;> simp [List.getLast?_cons] <;> decide
  | list items =>
    rw [compact]
    apply Text.trim_solid <;> simp [List.getLast?_cons] <;> decide
  | mapping entries =>
    rw [compact]
    apply Text.trim_solid <;> simp [List.getLast?_cons] <;> decide

end Json

namespace CommandLine

open Text (isBlank)

/-- What an assignment gives a field: a number stands as its text. -/
def assigned : Value → Value
  | .number number => .string (Json.text (.number number))
  | value => value

/-- An entry that an assignment can carry: a name without blanks around it, and a value that is
read back from its text. -/
structure Carriable (entry : String × Value) : Prop where
  filled : entry.1 ≠ ""
  undivided : '=' ∉ entry.1.toList
  trimmed : Text.trim entry.1 = entry.1
  whole : entry.2.WholeNumbers
  ascend : entry.2.Ascending
  flat : entry.2.depth ≤ 127

/-- An assignment of a value, with blanks around its name and around the text of the value. -/
structure Assignment where
  entry : String × Value
  beforeName : List Char := []
  afterName : List Char := []
  beforeValue : List Char := []
  afterValue : List Char := []

namespace Assignment

def text (assignment : Assignment) : String :=
  .ofList ((assignment.beforeName ++ assignment.entry.1.toList ++ assignment.afterName) ++
    '=' :: (assignment.beforeValue ++ Json.compact assignment.entry.2 ++ assignment.afterValue))

structure Padded (assignment : Assignment) : Prop where
  beforeName : ∀ c ∈ assignment.beforeName, isBlank c = true
  afterName : ∀ c ∈ assignment.afterName, isBlank c = true
  beforeValue : ∀ c ∈ assignment.beforeValue, isBlank c = true
  afterValue : ∀ c ∈ assignment.afterValue, isBlank c = true

end Assignment

variable {assignments : List Assignment}

theorem readValue_text {value : Value} (whole : value.WholeNumbers) (ascend : value.Ascending)
    (flat : value.depth ≤ 127) : readValue (Json.text value) = assigned value := by
  have read : Json.readValue Json.depthLimit (Text.bytes (Json.text value)) = some value := by
    rw [Text.bytes, Json.text, String.toList_ofList]
    exact Json.readValue_compact whole ascend flat
  rw [readValue, read]
  cases value <;> rfl

/-- The first equals sign is the one after the name. -/
theorem readAssignment_text {assignment : Assignment} (carriable : Carriable assignment.entry)
    (padded : assignment.Padded) :
    readAssignment assignment.text = .ok (assignment.entry.1, assigned assignment.entry.2) := by
  have front : ∀ c ∈ assignment.beforeName ++ assignment.entry.1.toList ++ assignment.afterName,
      (c != '=') = true := by
    have blank : ∀ c, isBlank c = true → c ≠ '=' := by
      rintro c blank rfl
      exact absurd blank (by decide)
    intro c member
    rw [bne_iff_ne]
    rcases List.mem_append.mp member with inside | after
    · rcases List.mem_append.mp inside with before | named
      · exact blank c (padded.beforeName c before)
      · exact fun equals => carriable.undivided (equals ▸ named)
    · exact blank c (padded.afterName c after)
  have name : Text.trim (.ofList
      (assignment.beforeName ++ assignment.entry.1.toList ++ assignment.afterName)) =
        assignment.entry.1 := by
    rw [Text.trim_padded padded.beforeName padded.afterName, String.ofList_toList,
      carriable.trimmed]
  have value : Text.trim (.ofList
      (assignment.beforeValue ++ Json.compact assignment.entry.2 ++ assignment.afterValue)) =
        Json.text assignment.entry.2 := by
    rw [Text.trim_padded padded.beforeValue padded.afterValue, Json.trim_compact carriable.whole,
      Json.text]
  have mark (rest : List Char) : ('=' :: rest).dropWhile (· != '=') = '=' :: rest := rfl
  have stop (rest : List Char) : ('=' :: rest).takeWhile (· != '=') = [] := rfl
  simp only [readAssignment, Assignment.text, String.toList_ofList,
    List.dropWhile_append_of_pos front, List.takeWhile_append_of_pos front, mark, stop,
    List.append_nil, name, value, if_neg carriable.filled,
    readValue_text carriable.whole carriable.ascend carriable.flat]

theorem readAssignments?_text (carriable : ∀ assignment ∈ assignments, Carriable assignment.entry)
    (padded : ∀ assignment ∈ assignments, assignment.Padded) :
    readAssignments? (assignments.map Assignment.text) =
      .ok (Record.ofList (assignments.map fun assignment =>
        (assignment.entry.1, assigned assignment.entry.2))) := by
  have read : (assignments.map Assignment.text).mapM readAssignment =
      .ok (assignments.map fun assignment =>
        (assignment.entry.1, assigned assignment.entry.2)) := by
    rw [List.mapM_map]
    exact mapM_eq_pure fun assignment member =>
      readAssignment_text (carriable assignment member) (padded assignment member)
  rw [readAssignments?, read]
  rfl

theorem readAssignments?_of_perm {record : Record} (ascend : Value.KeysAscend record.entries)
    (carriable : ∀ entry ∈ record.entries, Carriable entry)
    (perm : (assignments.map Assignment.entry).Perm record.entries)
    (padded : ∀ assignment ∈ assignments, assignment.Padded) :
    readAssignments? (assignments.map Assignment.text) =
      .ok ⟨record.entries.map fun entry => (entry.1, assigned entry.2)⟩ := by
  have carried : ∀ assignment ∈ assignments, Carriable assignment.entry := fun assignment member =>
    carriable _ (perm.mem_iff.mp (List.mem_map_of_mem member))
  have rising : Value.KeysAscend (record.entries.map fun entry => (entry.1, assigned entry.2)) := by
    rw [Value.KeysAscend, List.map_map]
    exact ascend
  have given := perm.map fun entry => (entry.1, assigned entry.2)
  rw [List.map_map] at given
  rw [readAssignments?_text carried padded, ← Record.ofList_of_perm rising given]
  rfl

theorem get?_readAssignments? {earlier later : List String} {text name : String} {value : Value}
    {result : Record} (read : readAssignments? (earlier ++ text :: later) = .ok result)
    (own : readAssignment text = .ok (name, value))
    (last : ∀ other ∈ later, ∀ value, readAssignment other ≠ .ok (name, value)) :
    result.get? name = some value := by
  rw [readAssignments?] at read
  cases run : (earlier ++ text :: later).mapM readAssignment with
  | error fault => simp [run, bind, Except.bind] at read
  | ok made =>
    obtain rfl : Record.ofList made = result := by
      simpa [run, bind, Except.bind, pure, Except.pure] using read
    have each := map_eq_of_mapM run
    rw [List.map_append, List.map_cons, own] at each
    obtain ⟨front, back, rfl, -, rear⟩ := List.map_eq_append_iff.mp each.symm
    obtain ⟨entry, after, rfl, first, follow⟩ := List.map_eq_cons_iff.mp rear
    cases first
    have none : after.reverse.lookup name = none := by
      rw [List.lookup_eq_none_iff]
      intro entry member
      rw [bne_iff_ne]
      rintro rfl
      have given : Except.ok entry ∈ later.map readAssignment :=
        follow ▸ List.mem_map_of_mem (List.mem_reverse.mp member)
      obtain ⟨other, inside, reads⟩ := List.mem_map.mp given
      exact last other inside entry.2 reads
    rw [Record.get?_ofList_last, List.reverse_append, List.reverse_cons, List.append_assoc,
      List.lookup_append, none]
    simp

theorem readAssignment_fails_iff {text : String} : (∃ fault, readAssignment text = .error fault) ↔
    '=' ∉ text.toList ∨ ∀ c ∈ text.toList.takeWhile (· != '='), isBlank c = true := by
  rw [← Text.trim_eq_empty_iff, readAssignment]
  split
  case h_1 missing =>
    have absent : '=' ∉ text.toList := fun member => by
      have different := List.dropWhile_eq_nil_iff.mp missing '=' member
      exact absurd different (by decide)
    simp [absent]
  case h_2 mark value split =>
    have present : '=' ∈ text.toList := by
      by_contra absent
      have none : text.toList.dropWhile (· != '=') = [] := by
        rw [List.dropWhile_eq_nil_iff]
        intro c member
        exact bne_iff_ne.mpr fun same => absent (same ▸ member)
      rw [none] at split
      cases split
    dsimp only
    split
    case isTrue blank => simp [blank]
    case isFalse named => simp [named, present]

theorem readAssignments?_fails_iff {texts : List String} :
    (∃ fault, readAssignments? texts = .error fault) ↔
      ∃ text ∈ texts, '=' ∉ text.toList ∨
        ∀ c ∈ text.toList.takeWhile (· != '='), isBlank c = true := by
  have ends : (∃ fault, readAssignments? texts = .error fault) ↔
      ∃ fault, texts.mapM readAssignment = .error fault := by
    rw [readAssignments?]
    cases texts.mapM readAssignment <;> simp [bind, Except.bind, pure, Except.pure]
  simp only [ends, mapM_fails_iff, readAssignment_fails_iff]

/-- The assignments of a record's entries, in any order and with any blanks, give the record, a
number as its text. Whatever the assignments are, the last of a name counts, and they fail
together exactly when one has no equals sign or only blanks before it. -/
theorem assignments_carry_records :
    (∀ (record : Record) (assignments : List Assignment), Value.KeysAscend record.entries →
      (∀ entry ∈ record.entries, Carriable entry) →
      (assignments.map Assignment.entry).Perm record.entries →
      (∀ assignment ∈ assignments, assignment.Padded) →
      readAssignments? (assignments.map Assignment.text) =
        .ok ⟨record.entries.map fun entry => (entry.1, assigned entry.2)⟩) ∧
    (∀ (earlier later : List String) (text name : String) (value : Value) (result : Record),
      readAssignments? (earlier ++ text :: later) = .ok result →
      readAssignment text = .ok (name, value) →
      (∀ other ∈ later, ∀ value, readAssignment other ≠ .ok (name, value)) →
      result.get? name = some value) ∧
    ∀ texts : List String, (∃ fault, readAssignments? texts = .error fault) ↔
      ∃ text ∈ texts, '=' ∉ text.toList ∨
        ∀ c ∈ text.toList.takeWhile (· != '='), isBlank c = true := by
  refine ⟨?_, ?_, ?_⟩
  · intro record assignments ascend carriable perm padded
    exact readAssignments?_of_perm ascend carriable perm padded
  · intro earlier later text name value result read own last
    exact get?_readAssignments? read own last
  · intro texts
    exact readAssignments?_fails_iff

def labels : Record :=
  ⟨[("label", .string " a = b "), ("limit", .number (.integer (-5))),
    ("rows", .list [.number (.integer 1), .mapping [("on", .boolean true)]])]⟩

def labelAssignments : List Assignment :=
  [{ entry := ("limit", .number (.integer (-5))), beforeName := [' '], afterValue := ['\n'] },
    { entry := ("rows", .list [.number (.integer 1), .mapping [("on", .boolean true)]]) },
    { entry := ("label", .string " a = b "), afterName := ['\u3000'], beforeValue := ['\t'] }]

theorem labels_carried :
    readAssignments? [" limit=-5\n", "rows=[1,\x7b\"on\":true\x7d]", "label\u3000=\t\" a = b \""] =
      .ok ⟨[("label", .string " a = b "), ("limit", .string "-5"),
        ("rows", .list [.number (.integer 1), .mapping [("on", .boolean true)]])]⟩ ∧
    (∀ result, readAssignments? ["a=1", "b=2", " a = plain text "] = .ok result →
      result.get? "a" = some (.string "plain text")) ∧
    ∃ fault, readAssignments? ["a=1", " \t=2"] = .error fault := by
  have texts : labelAssignments.map Assignment.text =
      [" limit=-5\n", "rows=[1,\x7b\"on\":true\x7d]", "label\u3000=\t\" a = b \""] := by
    simp [labelAssignments, Assignment.text, Json.compact]
    decide
  refine ⟨?_, ?_, ?_⟩
  · rw [← texts]
    refine assignments_carry_records.1 labels labelAssignments ?_ ?_ ?_ ?_
    · rw [Value.KeysAscend]
      decide
    · rintro entry member
      simp only [labels, List.mem_cons, List.not_mem_nil, or_false] at member
      obtain rfl | rfl | rfl := member
      · exact ⟨by decide, by decide, by decide, trivial, trivial, by decide⟩
      · exact ⟨by decide, by decide, by decide, ⟨by decide, by decide⟩, trivial, by decide⟩
      · exact ⟨by decide, by decide, by decide,
          ⟨⟨by decide, by decide⟩, ⟨trivial, trivial⟩, trivial⟩,
          ⟨trivial, ⟨List.pairwise_singleton _ _, trivial, trivial⟩, trivial⟩, by decide⟩
    · decide
    · intro assignment member
      simp only [labelAssignments, List.mem_cons, List.not_mem_nil, or_false] at member
      obtain rfl | rfl | rfl := member <;> constructor <;> simp <;> decide
  · intro result read
    exact assignments_carry_records.2.1 ["a=1", "b=2"] [] " a = plain text " "a"
      (.string "plain text") result read (by decide +kernel) (by simp)
  · have blank : (" \t=2".toList.takeWhile (· != '=')).all isBlank = true := by decide +kernel
    exact (assignments_carry_records.2.2 _).mpr ⟨" \t=2", by simp, .inr (List.all_eq_true.mp blank)⟩

end CommandLine
end StartPage
