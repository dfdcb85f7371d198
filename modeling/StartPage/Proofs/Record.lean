import Mathlib.Algebra.Group.Nat.Defs
import Mathlib.Data.List.Induction
import Mathlib.Data.String.Basic
import StartPage.Record
import StartPage.Text.Bytes

/-!
What holds of records that are built by placing entries. The keys of a placed record ascend
whatever the order of its entries was; entries whose keys ascend already are left as they are,
and of entries without a repeated key each is found again. Keys stand in the order of their bytes.
-/
namespace StartPage

namespace Text

theorem utf8EncodeChar_lt {c d : Char} (below : c < d) (front back : Bytes) :
    String.utf8EncodeChar c ++ front < String.utf8EncodeChar d ++ back := by
  have less : c.val.toNat < d.val.toNat := UInt32.lt_iff_toNat_lt.mp below
  have least : d.val.toNat < 0x110000 := by
    have valid := d.valid
    simp only [UInt32.isValidChar, Nat.isValidChar] at valid
    omega
  have digits : ∀ n : Nat, n / 4096 = n / 64 / 64 ∧ n / 262144 = n / 64 / 64 / 64 := by omega
  simp only [String.utf8EncodeChar, digits]
  -- The first byte tells how many follow, and rises with their number.
  repeat' split
  all_goals
    simp only [List.cons_append, List.nil_append, List.cons_lt_cons_iff, UInt8.lt_iff_toNat_lt,
      ← UInt8.toNat_inj, UInt8.toNat_ofNat']
    omega

theorem utf8_lt_utf8 {front back : List Char} (below : front < back) : utf8 front < utf8 back := by
  induction front generalizing back with
  | nil =>
    cases back with
    | nil => exact absurd below (List.lt_irrefl _)
    | cons c back =>
      rw [utf8_nil, utf8_cons]
      cases found : String.utf8EncodeChar c with
      | nil => exact absurd found String.utf8EncodeChar_ne_nil
      | cons byte rest => exact List.nil_lt_cons ..
  | cons c front ih =>
    cases back with
    | nil => exact absurd below (List.not_lt_nil _)
    | cons d back =>
      rw [utf8_cons, utf8_cons]
      rcases List.cons_lt_cons_iff.mp below with less | ⟨rfl, less⟩
      · exact utf8EncodeChar_lt less _ _
      · exact List.append_left_lt (ih less)

/-- The order of texts is the order of their bytes. -/
theorem bytes_lt_bytes {first second : String} (below : first < second) :
    bytes first < bytes second :=
  utf8_lt_utf8 (String.lt_iff_toList_lt.mp below)

end Text

namespace Value

@[elab_as_elim]
theorem induction {motive : Value → Prop} (null : motive .null)
    (boolean : ∀ value, motive (.boolean value)) (number : ∀ value, motive (.number value))
    (string : ∀ text, motive (.string text))
    (list : ∀ items, (∀ item ∈ items, motive item) → motive (.list items))
    (mapping : ∀ entries, (∀ entry ∈ entries, motive entry.2) → motive (.mapping entries)) :
    ∀ value, motive value
  | .null => null
  | .boolean value => boolean value
  | .number value => number value
  | .string text => string text
  | .list items => list items fun item member =>
    have : sizeOf item < sizeOf items := List.sizeOf_lt_of_mem member
    induction null boolean number string list mapping item
  | .mapping entries => mapping entries fun entry member =>
    have : sizeOf entry < sizeOf entries := List.sizeOf_lt_of_mem member
    have : sizeOf entry.2 < sizeOf entry := by
      rcases entry with ⟨key, item⟩
      simp only [Prod.mk.sizeOf_spec]
      omega
    induction null boolean number string list mapping entry.2
termination_by value => sizeOf value

/-- What is asked of a list by asking the same of its head and going on with its tail is asked of
each of its members. -/
theorem all_iff {α : Type} {All : List α → Prop} {Each : α → Prop} (nil : All [])
    (cons : ∀ first rest, All (first :: rest) ↔ Each first ∧ All rest) {items : List α} :
    All items ↔ ∀ item ∈ items, Each item := by
  induction items with
  | nil => exact iff_of_true nil nofun
  | cons first rest ih => rw [cons, ih, List.forall_mem_cons]

theorem itemsAscending_iff {items : List Value} :
    ItemsAscending items ↔ ∀ item ∈ items, item.Ascending :=
  all_iff trivial fun _ _ => Iff.rfl

theorem entriesAscending_iff {entries : List (String × Value)} :
    EntriesAscending entries ↔ ∀ entry ∈ entries, entry.2.Ascending :=
  all_iff trivial fun _ _ => Iff.rfl

theorem itemsWhole_iff {items : List Value} :
    ItemsWhole items ↔ ∀ item ∈ items, item.WholeNumbers :=
  all_iff trivial fun _ _ => Iff.rfl

theorem entriesWhole_iff {entries : List (String × Value)} :
    EntriesWhole entries ↔ ∀ entry ∈ entries, entry.2.WholeNumbers :=
  all_iff trivial fun _ _ => Iff.rfl

mutual
/-- Every string, list and mapping inside is shorter than four bytes can count. -/
def LengthsFit : Value → Prop
  | .string text => (Text.bytes text).length < 2 ^ 32
  | .list items => items.length < 2 ^ 32 ∧ ItemLengthsFit items
  | .mapping entries => entries.length < 2 ^ 32 ∧ EntryLengthsFit entries
  | _ => True
def ItemLengthsFit : List Value → Prop
  | [] => True
  | item :: rest => item.LengthsFit ∧ ItemLengthsFit rest
def EntryLengthsFit : List (String × Value) → Prop
  | [] => True
  | (key, item) :: rest =>
    ((Text.bytes key).length < 2 ^ 32 ∧ item.LengthsFit) ∧ EntryLengthsFit rest
end

theorem itemLengthsFit_iff {items : List Value} :
    ItemLengthsFit items ↔ ∀ item ∈ items, item.LengthsFit :=
  all_iff trivial fun _ _ => Iff.rfl

theorem entryLengthsFit_iff {entries : List (String × Value)} :
    EntryLengthsFit entries ↔
      ∀ entry ∈ entries, (Text.bytes entry.1).length < 2 ^ 32 ∧ entry.2.LengthsFit :=
  all_iff trivial fun _ _ => Iff.rfl

theorem depthOfItems_le_iff {items : List Value} {limit : Nat} :
    depthOfItems items ≤ limit ↔ ∀ item ∈ items, item.depth ≤ limit :=
  @all_iff _ (depthOfItems · ≤ limit) _ (Nat.zero_le limit) (fun _ _ => Nat.max_le) items

theorem depthOfEntries_le_iff {entries : List (String × Value)} {limit : Nat} :
    depthOfEntries entries ≤ limit ↔ ∀ entry ∈ entries, entry.2.depth ≤ limit :=
  @all_iff _ (depthOfEntries · ≤ limit) _ (Nat.zero_le limit) (fun _ _ => Nat.max_le) entries

end Value

namespace Record

open Value (KeysAscend)

def LengthsFit (record : Record) : Prop := record.toValue.LengthsFit

theorem present?_eq_some_iff {record : Record} {key : String} {value : Value} :
    record.present? key = some value ↔ record.get? key = some value ∧ value.isNull = false := by
  rw [present?, Option.filter_eq_some_iff, Bool.not_eq_true']

section Place

variable {key : String} {value : Value} {entries : List (String × Value)}

theorem mem_place {entry : String × Value} (member : entry ∈ place key value entries) :
    entry = (key, value) ∨ entry ∈ entries := by
  induction entries with
  | nil => exact .inl (List.mem_singleton.mp member)
  | cons first rest ih =>
    rw [place] at member
    split at member
    · rcases List.mem_cons.mp member with same | further
      · exact .inl same
      · exact .inr (List.mem_cons_of_mem _ further)
    · split at member
      · exact List.mem_cons.mp member
      · rcases List.mem_cons.mp member with rfl | further
        · exact .inr List.mem_cons_self
        · exact (ih further).imp_right (List.mem_cons_of_mem _)

theorem length_place_le : (place key value entries).length ≤ entries.length + 1 := by
  induction entries with
  | nil => simp [place]
  | cons first rest ih =>
    rw [place]
    split
    · simp
    · split
      · simp
      · simpa using ih

theorem keys_place (fresh : key ∉ entries.map (·.1)) :
    ((place key value entries).map (·.1)).Perm (key :: entries.map (·.1)) := by
  induction entries with
  | nil => exact .refl _
  | cons first rest ih =>
    rw [List.map_cons, List.mem_cons, not_or] at fresh
    rw [place, if_neg fresh.1]
    split
    · exact .refl _
    · exact ((ih fresh.2).cons first.1).trans (.swap key first.1 _)

theorem keysAscend_cons {first : String × Value} {rest : List (String × Value)} :
    KeysAscend (first :: rest) ↔ (∀ entry ∈ rest, first.1 < entry.1) ∧ KeysAscend rest := by
  simp [KeysAscend, List.pairwise_cons]

theorem keysAscend_place (ascend : KeysAscend entries) : KeysAscend (place key value entries) := by
  induction entries with
  | nil => simp [place, KeysAscend]
  | cons first rest ih =>
    obtain ⟨least, tail⟩ := keysAscend_cons.mp ascend
    rw [place]
    split
    case isTrue same => exact keysAscend_cons.mpr ⟨same ▸ least, tail⟩
    case isFalse other =>
      split
      case isTrue below =>
        refine keysAscend_cons.mpr ⟨?_, ascend⟩
        intro entry member
        rcases List.mem_cons.mp member with rfl | further
        · exact below
        · exact String.lt_trans below (least entry further)
      case isFalse notBelow =>
        refine keysAscend_cons.mpr ⟨?_, ih tail⟩
        intro entry member
        rcases mem_place member with rfl | further
        · -- The order is total, and the keys differ.
          by_cases above : first.1 < key
          · exact above
          · exact absurd (String.le_antisymm (String.not_lt.mp above) (String.not_lt.mp notBelow)) other
        · exact least entry further

theorem place_last (above : ∀ entry ∈ entries, entry.1 < key) :
    place key value entries = entries ++ [(key, value)] := by
  induction entries with
  | nil => rfl
  | cons first rest ih =>
    have below : first.1 < key := above first List.mem_cons_self
    have other : key ≠ first.1 := by
      rintro rfl
      exact String.lt_irrefl _ below
    rw [place, if_neg other, if_neg (String.lt_asymm below),
      ih fun entry member => above entry (List.mem_cons_of_mem _ member), List.cons_append]

theorem place_place : place key value (place key value entries) = place key value entries := by
  induction entries with
  | nil => simp [place]
  | cons first rest ih =>
    by_cases same : key = first.1
    · simp [place, same]
    · by_cases below : key < first.1
      · simp [place, same, below]
      · simp [place, same, below, ih]

theorem place_place_other {other : String} {written : Value} (apart : key ≠ other)
    (placed : place key value entries = entries) :
    place key value (place other written entries) = place other written entries := by
  induction entries with
  | nil => simp [place] at placed
  | cons first rest ih =>
    have whole := placed
    rw [place] at placed
    split at placed
    case isTrue same =>
      obtain rfl := (List.cons.inj placed).1
      by_cases below : other < key
      · simp [place, apart, apart.symm, below, String.lt_asymm below]
      · simp [place, apart.symm, below]
    case isFalse different =>
      split at placed
      case isTrue less => simp at placed
      case isFalse notLess =>
        have tail := (List.cons.inj placed).2
        by_cases equal : other = first.1
        · simp [place, ← equal, apart, equal ▸ notLess, tail]
        · by_cases below : other < first.1
          · have above : ¬key < other := fun less => notLess (String.lt_trans less below)
            rw [place, if_neg equal, if_pos below, place, if_neg apart, if_neg above, whole]
          · rw [place, if_neg equal, if_neg below, place, if_neg different, if_neg notLess, ih tail]

theorem mem_insert {record : Record} {entry : String × Value}
    (member : entry ∈ (record.insert key value).entries) :
    entry = (key, value) ∨ entry ∈ record.entries :=
  mem_place member

theorem keysAscend_insert {record : Record} (ascend : KeysAscend record.entries) :
    KeysAscend (record.insert key value).entries :=
  keysAscend_place ascend

theorem keys_insert {record : Record} (fresh : key ∉ record.keys) :
    (record.insert key value).keys.Perm (key :: record.keys) :=
  keys_place fresh

theorem length_insert_le {record : Record} :
    (record.insert key value).entries.length ≤ record.entries.length + 1 :=
  length_place_le

theorem insert_insert (record : Record) :
    (record.insert key value).insert key value = record.insert key value :=
  congrArg Record.mk place_place

theorem insert_insert_other {record : Record} {other : String} {written : Value}
    (apart : key ≠ other) (stored : record.insert key value = record) :
    (record.insert other written).insert key value = record.insert other written :=
  congrArg Record.mk (place_place_other apart (congrArg entries stored))

theorem erase_erase (record : Record) (key : String) :
    (record.erase key).erase key = record.erase key := by
  simp [erase, List.filter_filter]

end Place

section OfList

variable {entries : List (String × Value)}

theorem ofList_concat (older : List (String × Value)) (last : String × Value) :
    ofList (older ++ [last]) = (ofList older).insert last.1 last.2 :=
  List.foldl_append

theorem keysAscend_ofList (entries : List (String × Value)) :
    KeysAscend (ofList entries).entries := by
  induction entries using List.reverseRecOn with
  | nil => exact .nil
  | append_singleton older last ih =>
    rw [ofList_concat]
    exact keysAscend_place ih

theorem mem_ofList {entry : String × Value} (member : entry ∈ (ofList entries).entries) :
    entry ∈ entries := by
  induction entries using List.reverseRecOn with
  | nil => cases member
  | append_singleton older last ih =>
    rw [ofList_concat] at member
    rcases mem_place member with rfl | further
    · simp
    · exact List.mem_append_left _ (ih further)

theorem length_ofList_le (entries : List (String × Value)) :
    (ofList entries).entries.length ≤ entries.length := by
  induction entries using List.reverseRecOn with
  | nil => exact Nat.le_refl 0
  | append_singleton older last ih =>
    rw [ofList_concat, List.length_append, List.length_singleton]
    exact Nat.le_trans length_place_le (Nat.succ_le_succ ih)

theorem keys_ofList (distinct : (entries.map (·.1)).Nodup) :
    (ofList entries).keys.Perm (entries.map (·.1)) := by
  induction entries using List.reverseRecOn with
  | nil => exact .refl _
  | append_singleton older last ih =>
    rw [List.map_append, List.nodup_append] at distinct
    obtain ⟨front, -, apart⟩ := distinct
    have kept := ih front
    have fresh : last.1 ∉ (ofList older).keys := fun repeated =>
      apart last.1 (kept.mem_iff.mp repeated) last.1 (by simp) rfl
    rw [ofList_concat, List.map_append]
    exact (keys_insert fresh).trans ((kept.cons last.1).trans (List.perm_append_singleton _ _).symm)

theorem ofList_of_keysAscend (ascend : KeysAscend entries) : ofList entries = ⟨entries⟩ := by
  induction entries using List.reverseRecOn with
  | nil => rfl
  | append_singleton older last ih =>
    rw [KeysAscend, List.map_append, List.pairwise_append] at ascend
    obtain ⟨front, -, below⟩ := ascend
    have above : ∀ entry ∈ older, entry.1 < last.1 := fun entry member =>
      below entry.1 (List.mem_map_of_mem member) last.1 (by simp)
    rw [ofList_concat, ih front, Record.insert, place_last above]

theorem get?_ofList {key : String} {value : Value} (distinct : (entries.map (·.1)).Nodup)
    (member : (key, value) ∈ entries) : (ofList entries).get? key = some value := by
  induction entries using List.reverseRecOn with
  | nil => cases member
  | append_singleton older last ih =>
    rw [List.map_append, List.nodup_append] at distinct
    obtain ⟨front, -, apart⟩ := distinct
    rw [ofList_concat, get?_insert]
    rcases List.mem_append.mp member with early | late
    · have other : key ≠ last.1 :=
        apart key (List.mem_map_of_mem early) last.1 (by simp)
      rw [if_neg other, ih front early]
    · obtain rfl := List.mem_singleton.mp late
      rw [if_pos rfl]

end OfList

section Lookup

variable {record other : Record} {key : String} {value : Value}

theorem mem_entries_iff (ascend : KeysAscend record.entries) :
    (key, value) ∈ record.entries ↔ record.get? key = some value := by
  constructor
  · intro member
    have distinct : (record.entries.map (·.1)).Nodup :=
      List.Pairwise.imp (fun below => String.ne_of_lt below) ascend
    have found := get?_ofList distinct member
    rwa [ofList_of_keysAscend ascend] at found
  · intro found
    obtain ⟨before, after, entries, -⟩ := List.lookup_eq_some_iff.mp found
    simp [entries]

/-- Records in order that answer every key alike are the same. -/
theorem eq_of_get? (ascend : KeysAscend record.entries) (ascends : KeysAscend other.entries)
    (same : ∀ key, record.get? key = other.get? key) : record = other := by
  have rising := List.pairwise_map.mp ascend
  have rises := List.pairwise_map.mp ascends
  have distinct : record.entries.Nodup := rising.imp fun below equal =>
    String.ne_of_lt below (congrArg Prod.fst equal)
  have apart : other.entries.Nodup := rises.imp fun below equal =>
    String.ne_of_lt below (congrArg Prod.fst equal)
  have perm : record.entries.Perm other.entries := by
    apply (List.perm_ext_iff_of_nodup distinct apart).mpr
    rintro ⟨key, value⟩
    rw [mem_entries_iff ascend, mem_entries_iff ascends, same]
  have entries : record.entries = other.entries :=
    perm.eq_of_pairwise (fun _ _ _ _ below above => absurd above (String.lt_asymm below)) rising rises
  exact congrArg Record.mk entries

theorem get?_ofList_last (entries : List (String × Value)) (key : String) :
    (ofList entries).get? key = entries.reverse.lookup key := by
  induction entries using List.reverseRecOn with
  | nil => rfl
  | append_singleton older last ih =>
    rw [ofList_concat, get?_insert, ih, List.reverse_concat, List.lookup_cons]
    by_cases same : key = last.1
    · simp [same]
    · rw [if_neg same, beq_false_of_ne same]

theorem mem_ofList_iff {entries : List (String × Value)} (distinct : (entries.map (·.1)).Nodup) :
    (key, value) ∈ (ofList entries).entries ↔ (key, value) ∈ entries := by
  refine ⟨mem_ofList, fun member => ?_⟩
  exact (mem_entries_iff (keysAscend_ofList entries)).mpr (get?_ofList distinct member)

/-- Entries come into the order of their keys, whatever order they were given in. -/
theorem ofList_of_perm {entries : List (String × Value)} (ascend : KeysAscend record.entries)
    (perm : entries.Perm record.entries) : ofList entries = record := by
  have distinct : (entries.map (·.1)).Nodup := by
    rw [(perm.map (·.1)).nodup_iff]
    exact List.Pairwise.imp (fun below => String.ne_of_lt below) ascend
  apply eq_of_get? (keysAscend_ofList entries) ascend
  intro key
  apply Option.ext
  intro value
  rw [← mem_entries_iff (keysAscend_ofList entries), ← mem_entries_iff ascend,
    mem_ofList_iff distinct, perm.mem_iff]

end Lookup

section Hereditary

variable {record : Record}

theorem ascending_iff : record.Ascending ↔
    KeysAscend record.entries ∧ ∀ entry ∈ record.entries, entry.2.Ascending := by
  rw [Record.Ascending, toValue, Value.Ascending, Value.entriesAscending_iff]

theorem wholeNumbers_iff :
    record.WholeNumbers ↔ ∀ entry ∈ record.entries, entry.2.WholeNumbers := by
  rw [Record.WholeNumbers, toValue, Value.WholeNumbers, Value.entriesWhole_iff]

theorem depth_le_succ_iff {limit : Nat} :
    record.depth ≤ limit + 1 ↔ ∀ entry ∈ record.entries, entry.2.depth ≤ limit := by
  rw [Record.depth, toValue, Value.depth, Nat.add_le_add_iff_right, Value.depthOfEntries_le_iff]

theorem lengthsFit_iff : record.LengthsFit ↔ record.entries.length < 2 ^ 32 ∧
    ∀ entry ∈ record.entries, (Text.bytes entry.1).length < 2 ^ 32 ∧ entry.2.LengthsFit := by
  rw [Record.LengthsFit, toValue, Value.LengthsFit, Value.entryLengthsFit_iff]

end Hereditary

end Record

namespace Value

mutual
/-- The value with the keys of every mapping in order; of entries with one key the last counts. -/
def tidy : Value → Value
  | .null => .null
  | .boolean value => .boolean value
  | .number n => .number n
  | .string text => .string text
  | .list items => .list (tidyItems items)
  | .mapping entries => (Record.ofList (tidyEntries entries)).toValue
def tidyItems : List Value → List Value
  | [] => []
  | item :: rest => item.tidy :: tidyItems rest
def tidyEntries : List (String × Value) → List (String × Value)
  | [] => []
  | (key, item) :: rest => (key, item.tidy) :: tidyEntries rest
end

theorem tidyItems_eq_map (items : List Value) : tidyItems items = items.map tidy := by
  induction items with
  | nil => rfl
  | cons first rest ih => rw [tidyItems, ih, List.map_cons]

theorem tidyEntries_eq_map (entries : List (String × Value)) :
    tidyEntries entries = entries.map fun entry => (entry.1, entry.2.tidy) := by
  induction entries with
  | nil => rfl
  | cons first rest ih => rw [tidyEntries, ih, List.map_cons]

theorem tidy_eq_self {value : Value} (ascend : value.Ascending) : value.tidy = value := by
  induction value using Value.induction with
  | null | boolean | number | string => rw [tidy]
  | list items ih =>
    have same : items.map tidy = items.map id := List.map_congr_left fun item member =>
      ih item member (itemsAscending_iff.mp ascend item member)
    rw [tidy, tidyItems_eq_map, same, List.map_id]
  | mapping entries ih =>
    have same : entries.map (fun entry => (entry.1, entry.2.tidy)) = entries.map id :=
      List.map_congr_left fun entry member =>
        Prod.ext rfl (ih entry member (entriesAscending_iff.mp ascend.2 entry member))
    rw [tidy, tidyEntries_eq_map, same, List.map_id, Record.ofList_of_keysAscend ascend.1,
      Record.toValue]

end Value
end StartPage
