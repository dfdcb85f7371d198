import Mathlib.Data.List.Basic
import StartPage.Proofs.Settings.Reading

/-!
Lists of cards as they are read. What is read are the known cards in the order in which they are
named first, and nothing else fits this description. Whether a name is known matters only once all
items are strings: the first that is none is reported, and so is a value that is no list.
-/
namespace StartPage

section Order

variable {α β : Type} [DecidableEq α] {name : β → α} {items : List α} {item : α}
variable {found other : List β}

/-- The things whose names are among the items, in the order in which they are met first. -/
structure MetFirst (name : β → α) (items : List α) (found : List β) : Prop where
  distinct : found.Nodup
  mem_iff : ∀ thing, thing ∈ found ↔ name thing ∈ items
  ordered : found.Pairwise fun earlier later =>
    items.idxOf (name earlier) < items.idxOf (name later)

namespace MetFirst

theorem unique (met : MetFirst name items found) (again : MetFirst name items other) :
    found = other := by
  have same : found.Perm other := by
    rw [List.perm_ext_iff_of_nodup met.distinct again.distinct]
    exact fun thing => (met.mem_iff thing).trans (again.mem_iff thing).symm
  refine same.eq_of_pairwise ?_ met.ordered again.ordered
  intro first second _ _ before behind
  exact absurd before (Nat.lt_asymm behind)

theorem ordered_append (met : MetFirst name items found) (more : List α) :
    found.Pairwise fun earlier later =>
      (items ++ more).idxOf (name earlier) < (items ++ more).idxOf (name later) := by
  apply met.ordered.imp_of_mem
  intro earlier later early late before
  rw [List.idxOf_append_of_mem ((met.mem_iff earlier).mp early),
    List.idxOf_append_of_mem ((met.mem_iff later).mp late)]
  exact before

theorem skip (met : MetFirst name items found)
    (old : ∀ thing, name thing = item → item ∈ items) : MetFirst name (items ++ [item]) found where
  distinct := met.distinct
  mem_iff thing := by
    rw [met.mem_iff, List.mem_append, List.mem_singleton]
    constructor
    · exact .inl
    · rintro (member | same)
      · exact member
      · exact same ▸ old thing same
  ordered := met.ordered_append [item]

theorem concat (met : MetFirst name items found) (injective : Function.Injective name) {thing : β}
    (fresh : name thing ∉ items) : MetFirst name (items ++ [name thing]) (found ++ [thing]) where
  distinct := by
    have apart : thing ∉ found := mt (met.mem_iff thing).mp fresh
    exact List.nodup_append.mpr ⟨met.distinct, List.nodup_singleton thing,
      fun earlier member _ last same => apart (List.mem_singleton.mp last ▸ same ▸ member)⟩
  mem_iff other := by
    rw [List.mem_append, List.mem_append, List.mem_singleton, List.mem_singleton, met.mem_iff,
      injective.eq_iff]
  ordered := by
    refine List.pairwise_append.mpr ⟨met.ordered_append _, List.pairwise_singleton _ _, ?_⟩
    intro earlier member last same
    obtain rfl := List.mem_singleton.mp same
    have before : name earlier ∈ items := (met.mem_iff earlier).mp member
    rw [List.idxOf_append_of_mem before, List.idxOf_append_of_notMem fresh]
    exact Nat.lt_add_right _ (List.idxOf_lt_length_of_mem before)

end MetFirst

variable [DecidableEq β]

theorem eraseDups_concat (things : List β) (thing : β) :
    (things ++ [thing]).eraseDups =
      if thing ∈ things then things.eraseDups else things.eraseDups ++ [thing] := by
  rw [List.eraseDups_append, List.removeAll]
  split
  case isTrue member => simp [member]
  case isFalse fresh => simp [fresh, List.eraseDups_cons]

/-- Items are taken for the things that they name, and of those that are met again the first is
kept. -/
theorem metFirst_eraseDups {thing? : α → Option β}
    (names : ∀ item thing, thing? item = some thing ↔ item = name thing) (items : List α) :
    MetFirst name items (items.filterMap thing?).eraseDups := by
  have injective : Function.Injective name := by
    intro thing other same
    have found := (names (name thing) thing).mpr rfl
    exact Option.some.inj (found.symm.trans ((names _ other).mpr same))
  -- The order of first meeting is kept item by item, so the induction is on the last one.
  induction items using List.reverseRecOn with
  | nil => exact ⟨by simp, by simp, by simp⟩
  | append_singleton items item met =>
    rw [List.filterMap_append, List.filterMap_cons, List.filterMap_nil]
    cases named : thing? item with
    | none =>
      rw [List.append_nil]
      refine met.skip fun thing same => ?_
      cases named.symm.trans ((names item thing).mpr same.symm)
    | some thing =>
      obtain rfl := (names item thing).mp named
      have seen : thing ∈ items.filterMap thing? ↔ name thing ∈ items :=
        List.mem_eraseDups.symm.trans (met.mem_iff thing)
      rw [eraseDups_concat]
      split
      case isTrue member => exact met.skip fun _ _ => seen.mp member
      case isFalse fresh => exact met.concat injective (mt seen.mpr fresh)

end Order

namespace Record

variable {record : Record} {key : String} {items : List Value} {value found : Value}

theorem present?_eq_none_iff :
    record.present? key = none ↔ record.get? key = none ∨ record.get? key = some .null := by
  rw [present?, Option.filter_eq_none_iff]
  cases record.get? key with
  | none => simp
  | some value => cases value <;> simp [Value.isNull, Value.kind]

def cardName (card : Widget) : Value := .string card.name

theorem ofName?_eq_some_iff (item : Value) (card : Widget) :
    item.text?.bind Widget.ofName? = some card ↔ item = cardName card := by
  constructor
  · intro named
    obtain ⟨text, string, known⟩ := Option.bind_eq_some_iff.mp named
    cases item with
    | string written =>
      cases string
      rw [cardName, Widget.name_of_ofName? known]
    | _ => cases string
  · rintro rfl
    exact Widget.ofName?_name card

theorem isNone_text?_iff : value.text?.isNone = true ↔ value.kind ≠ .string := by
  rw [Value.text?_isNone, Bool.not_eq_true', beq_eq_false_iff_ne]

/-- How a list of cards is read, by what stands under its key. -/
inductive Listing (record : Record) (key : String) :
    Except CorruptField (Option (List Widget)) → Prop where
  | absent (nothing : record.present? key = none) : Listing record key (.ok none)
  | unlisted {value : Value} (present : record.present? key = some value)
      (other : value.kind ≠ .list) : Listing record key (.error (widgetListFault key value))
  | mixed {front back : List Value} {found : Value}
      (present : record.present? key = some (.list (front ++ found :: back)))
      (strings : ∀ item ∈ front, item.kind = .string) (wrong : found.kind ≠ .string) :
      Listing record key (.error (widgetListFault key found))
  | strings {items : List Value} {cards : List Widget}
      (present : record.present? key = some (.list items))
      (strings : ∀ item ∈ items, item.kind = .string) (met : MetFirst cardName items cards) :
      Listing record key (.ok (some cards))

theorem find?_eq_none_of_strings (strings : ∀ item ∈ items, item.kind = .string) :
    items.find? (fun item => item.text?.isNone) = none := by
  refine List.find?_eq_none.mpr fun item member => ?_
  rw [isNone_text?_iff, not_not]
  exact strings item member

theorem metFirst_cards (items : List Value) :
    MetFirst cardName items ((items.filterMap Value.text?).filterMap Widget.ofName?).eraseDups := by
  rw [List.filterMap_filterMap]
  exact metFirst_eraseDups ofName?_eq_some_iff items

theorem listing_widgets? (record : Record) (key : String) :
    record.Listing key (record.widgets? key) := by
  rw [widgets?]
  split
  case h_1 nothing => exact .absent nothing
  case h_2 items present =>
    split
    case h_1 wrong first =>
      obtain ⟨refused, front, back, rfl, strings⟩ := List.find?_eq_some_iff_append.mp first
      refine .mixed present (fun item member => ?_) (isNone_text?_iff.mp refused)
      have read := strings item member
      rwa [Bool.not_eq_true', ← Bool.not_eq_true, isNone_text?_iff, not_not] at read
    case h_2 none =>
      refine .strings present (fun item member => ?_) (metFirst_cards items)
      exact not_not.mp (mt isNone_text?_iff.mpr (List.find?_eq_none.mp none item member))
  case h_3 value unlike present =>
    refine .unlisted present fun same => ?_
    cases value with
    | list items => exact unlike items rfl
    | _ => cases same

theorem widgets?_eq_iff {result : Except CorruptField (Option (List Widget))} :
    record.widgets? key = result ↔ record.Listing key result := by
  refine ⟨fun read => read ▸ record.listing_widgets? key, fun listing => ?_⟩
  cases listing with
  | absent nothing => rw [widgets?, nothing]
  | @unlisted value present other =>
    cases value with
    | list items => exact absurd rfl other
    | _ => simp only [widgets?, present]
  | @mixed front back found present strings wrong =>
    have first : (front ++ found :: back).find? (fun item => item.text?.isNone) = some found := by
      rw [List.find?_append, find?_eq_none_of_strings strings, Option.none_or]
      exact List.find?_cons_of_pos (isNone_text?_iff.mpr wrong)
    simp only [widgets?, present, first]
  | @strings items cards present strings met =>
    simp only [widgets?, present, find?_eq_none_of_strings strings,
      (metFirst_cards items).unique met]

end Record

/-- A list of cards is read as the known cards in the order in which they are named first. Nothing
is read where nothing stands, and refused is what is no list or holds something besides strings,
the first such thing being reported. A list that was written is read without its repeats. -/
theorem cards_read_as_first_named (record : Record) (key : String) :
    (record.widgets? key = .ok none ↔
      record.get? key = none ∨ record.get? key = some .null) ∧
    (∀ fault, record.widgets? key = .error fault ↔
      ∃ found, fault = ⟨key, "a list of widget names", found.kind⟩ ∧
        (record.present? key = some found ∧ found.kind ≠ .list ∨
          ∃ front back, record.present? key = some (.list (front ++ found :: back)) ∧
            (∀ item ∈ front, item.kind = .string) ∧ found.kind ≠ .string)) ∧
    (∀ cards, record.widgets? key = .ok (some cards) ↔
      ∃ items, record.present? key = some (.list items) ∧
        (∀ item ∈ items, item.kind = .string) ∧
        MetFirst (fun card : Widget => Value.string card.name) items cards) ∧
    ∀ listed : List Widget, ∃ kept,
      (record.insert key (widgetList listed)).widgets? key = .ok (some kept) ∧
        MetFirst id listed kept ∧ (kept = listed ↔ listed.Nodup) := by
  refine ⟨?_, fun fault => ?_, fun cards => ?_, fun listed => ?_⟩
  · rw [Record.widgets?_eq_iff, ← Record.present?_eq_none_iff]
    constructor
    · rintro ⟨nothing⟩
      exact nothing
    · exact .absent
  · rw [Record.widgets?_eq_iff]
    constructor
    · rintro (_ | ⟨present, other⟩ | ⟨present, strings, wrong⟩)
      · exact ⟨_, rfl, .inl ⟨present, other⟩⟩
      · exact ⟨_, rfl, .inr ⟨_, _, present, strings, wrong⟩⟩
    · rintro ⟨found, rfl, ⟨present, other⟩ | ⟨front, back, present, strings, wrong⟩⟩
      · exact .unlisted present other
      · exact .mixed present strings wrong
  · rw [Record.widgets?_eq_iff]
    constructor
    · rintro (_ | _ | _ | ⟨present, strings, met⟩)
      exact ⟨_, present, strings, met⟩
    · rintro ⟨items, present, strings, met⟩
      exact .strings present strings met
  · have stands : (record.insert key (widgetList listed)).present? key = some (widgetList listed) :=
      (Record.present?_insert ..).trans (if_pos rfl)
    have met : MetFirst id listed (listed.filterMap some).eraseDups :=
      metFirst_eraseDups (fun item thing => Option.some_inj) listed
    rw [List.filterMap_some] at met
    refine ⟨listed.eraseDups, Settings.widgets?_widgetList stands, met, ?_, eraseDups_of_nodup⟩
    exact fun same => same ▸ met.distinct

end StartPage
