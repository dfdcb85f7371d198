import Mathlib.Data.List.Nodup
import StartPage.Proofs.Settings.Reading
import StartPage.Settings.Patch

/-!
A patch that is read from a record, beside the settings that are read from it. Both readers go
through the fields in one order and refuse a field for the same reason, and a patch that was read
does to settings what reading the record over them would do. Only a key of no field is treated
differently: the patch is refused before any field is read.
-/
namespace StartPage

open Value (KeysAscend)

namespace Record

variable {record : Record} {key : String}

def IsForeign (key : String) : Prop := ∀ field : Field, field.key ≠ key

theorem ofKey?_isNone : (Field.ofKey? key).isNone = true ↔ IsForeign key := by
  rw [Option.isNone_iff_eq_none, Field.ofKey?, List.find?_eq_none]
  simp [IsForeign]

theorem find?_least (ascend : KeysAscend record.entries) {wanted : String → Bool}
    (found : record.keys.find? wanted = some key) :
    ∀ other ∈ record.keys, wanted other = true → other = key ∨ key < other := by
  obtain ⟨-, before, after, keys, passed⟩ := List.find?_eq_some_iff_append.mp found
  have rising : record.keys.Pairwise (· < ·) := ascend
  intro other member hit
  rw [keys] at member rising
  rcases List.mem_append.mp member with early | late
  · have missed := passed other early
    rw [hit] at missed
    cases missed
  · have tail := (List.pairwise_append.mp rising).2.1
    rcases List.mem_cons.mp late with same | behind
    · exact .inl same
    · exact .inr ((List.pairwise_cons.mp tail).1 other behind)

end Record

namespace Patch

variable {record : Record} {patch after : Patch} {settings : Settings} {field : Field}

theorem readField_apply (settings : Settings) (unset : patch.value? field = none) :
    Settings.readField record (settings.apply patch) field =
      (readField record patch field).map settings.apply := by
  cases field with
  | flag flag =>
    rw [Settings.readField, readField]
    cases record.flag? flag.key with
    | error fault => rfl
    | ok found =>
      cases found with
      | none => rfl
      | some value =>
        -- Flags are a function of their names, so the two results are compared flag by flag.
        have flags : ∀ other,
            (if other = flag then value else (settings.apply patch).flag other) =
              (if other = flag then some value else patch.flag other).getD
                (settings.flag other) := by
          intro other
          split <;> rfl
        exact congrArg (fun flags : Flag → Bool =>
          (.ok { settings.apply patch with flag := flags } : Except CorruptField Settings))
          (funext flags)
  | clockFormat =>
    have none : patch.clockFormat = none := Option.map_eq_none_iff.mp unset
    rw [Settings.readField, readField, Settings.apply, none]
    cases record.clockFormat? with
    | error fault => rfl
    | ok found => cases found <;> rfl
  | stackOrder | removed =>
    have none := Option.map_eq_none_iff.mp unset
    rw [Settings.readField, readField, Settings.apply, none]
    cases record.widgets? (Field.key _) with
    | error fault => rfl
    | ok found => cases found <;> rfl

theorem readField_value? (unset : patch.value? field = none)
    (read : readField record patch field = .ok after) :
    (after.value? field).isSome = (record.present? field.key).isSome ∧
      ∀ other ≠ field, after.value? other = patch.value? other := by
  cases field with
  | flag flag =>
    obtain ⟨found, read, same⟩ := bind_ok read
    have present : record.present? flag.key = found.map .boolean := Record.present?_of_flag? read
    obtain rfl := Except.ok.inj same
    cases found with
    | none => exact ⟨by rw [Field.key, present]; exact congrArg Option.isSome unset, fun _ _ => rfl⟩
    | some shown =>
      refine ⟨by rw [Field.key, present]; simp [value?, setFlag], fun other apart => ?_⟩
      cases other with
      | flag kept =>
        have different : kept ≠ flag := fun same => apart (congrArg Field.flag same)
        simp [value?, setFlag, different]
      | _ => rfl
  | clockFormat =>
    obtain ⟨found, read, same⟩ := bind_ok read
    have present := Record.present?_of_clockFormat? read
    obtain rfl := Except.ok.inj same
    refine ⟨by rw [present]; simp [value?], fun other apart => ?_⟩
    cases other with
    | clockFormat => exact absurd rfl apart
    | _ => rfl
  | stackOrder | removed =>
    obtain ⟨found, read, same⟩ := bind_ok read
    have present := Record.isSome_of_widgets? read
    obtain rfl := Except.ok.inj same
    refine ⟨by rw [present]; simp [value?], fun other apart => ?_⟩
    cases other <;> first | rfl | exact absurd rfl apart

section Fields

variable {fields : List Field}

/-- Reading fields into a patch and then applying it is reading them over the settings. -/
theorem foldlM_apply (settings : Settings) (distinct : fields.Nodup)
    (unset : ∀ field ∈ fields, patch.value? field = none) :
    fields.foldlM (Settings.readField record) (settings.apply patch) =
      (fields.foldlM (readField record) patch).map settings.apply := by
  induction fields generalizing patch with
  | nil => rfl
  | cons field rest ih =>
    obtain ⟨fresh, distinct⟩ := List.nodup_cons.mp distinct
    have first := unset field List.mem_cons_self
    rw [List.foldlM_cons, List.foldlM_cons, readField_apply settings first]
    cases read : readField record patch field with
    | error fault => rfl
    | ok next =>
      -- No field is read twice, so those still to come are as unset as they were.
      refine ih distinct fun other member => ?_
      have apart : other ≠ field := fun same => fresh (same ▸ member)
      rw [(readField_value? first read).2 other apart]
      exact unset other (List.mem_cons_of_mem _ member)

theorem foldlM_value? (distinct : fields.Nodup)
    (unset : ∀ field ∈ fields, patch.value? field = none)
    (read : fields.foldlM (readField record) patch = .ok after) :
    (∀ field ∈ fields, (after.value? field).isSome = (record.present? field.key).isSome) ∧
      ∀ other ∉ fields, after.value? other = patch.value? other := by
  induction fields generalizing patch with
  | nil =>
    cases read
    exact ⟨nofun, fun _ _ => rfl⟩
  | cons field rest ih =>
    obtain ⟨fresh, distinct⟩ := List.nodup_cons.mp distinct
    rw [List.foldlM_cons] at read
    obtain ⟨next, first, read⟩ := bind_ok read
    obtain ⟨set, kept⟩ := readField_value? (unset field List.mem_cons_self) first
    have later : ∀ other ∈ rest, next.value? other = none := by
      intro other member
      rw [kept other fun same => fresh (same ▸ member)]
      exact unset other (List.mem_cons_of_mem _ member)
    obtain ⟨others, untouched⟩ := ih distinct later read
    constructor
    · intro other member
      rcases List.mem_cons.mp member with rfl | further
      · rw [untouched other fresh, set]
      · exact others other further
    · intro other absent
      obtain ⟨apart, absent⟩ := not_or.mp (List.mem_cons.not.mp absent)
      rw [untouched other absent, kept other apart]

end Fields

theorem nodup_fields : Field.all.Nodup := List.Nodup.of_map _ Settings.distinct_keys

theorem value?_empty (field : Field) : empty.value? field = none := by
  cases field <;> rfl

theorem readFields_apply (record : Record) (settings : Settings) :
    Field.all.foldlM (Settings.readField record) settings =
      (Field.all.foldlM (readField record) empty).map settings.apply :=
  foldlM_apply settings nodup_fields fun field _ => value?_empty field

theorem isEmpty_iff : patch.isEmpty = true ↔ ∀ field, patch.value? field = none := by
  simp only [isEmpty, Bool.and_eq_true, List.all_eq_true, Flag.mem_all, forall_const,
    Option.isNone_iff_eq_none]
  constructor
  · rintro ⟨⟨⟨flags, clock⟩, order⟩, removed⟩ field
    cases field <;> simp [value?, flags, clock, order, removed]
  · intro unset
    refine ⟨⟨⟨fun flag => ?_, ?_⟩, ?_⟩, ?_⟩
    · exact Option.map_eq_none_iff.mp (unset (.flag flag))
    · exact Option.map_eq_none_iff.mp (unset .clockFormat)
    · exact Option.map_eq_none_iff.mp (unset .stackOrder)
    · exact Option.map_eq_none_iff.mp (unset .removed)

theorem agree_of_set (settings other : Settings) (set : (patch.value? field).isSome = true) :
    Settings.Agree (settings.apply patch) (other.apply patch) field := by
  obtain ⟨value, found⟩ := Option.isSome_iff_exists.mp set
  cases field <;> obtain ⟨given, same, -⟩ := Option.map_eq_some_iff.mp found <;>
    simp [Settings.Agree, Settings.apply, same]

theorem agree_of_unset (settings : Settings) (unset : patch.value? field = none) :
    Settings.Agree settings (settings.apply patch) field := by
  cases field <;> have none := Option.map_eq_none_iff.mp unset <;>
    simp [Settings.Agree, Settings.apply, none]

theorem all_null_iff (ascend : KeysAscend record.entries)
    (known : ∀ key ∈ record.keys, ¬ Record.IsForeign key) :
    (∀ entry ∈ record.entries, entry.2 = .null) ↔
      ∀ field : Field, record.present? field.key = none := by
  constructor
  · intro nulls field
    cases found : record.get? field.key with
    | none => rw [Record.present?, found]; rfl
    | some value =>
      obtain ⟨before, after, entries, -⟩ := List.lookup_eq_some_iff.mp found
      have null : value = .null := nulls (field.key, value) (by simp [entries])
      rw [Record.present?, found, null]
      rfl
  · -- Every entry stands under the key of a field, and the field has no value.
    rintro absent ⟨key, value⟩ member
    have listed : key ∈ record.keys := List.mem_map_of_mem member
    obtain ⟨field, rfl⟩ := not_forall_not.mp (known key listed)
    have found := (Record.mem_entries_iff ascend).mp member
    have nothing := absent field
    rw [Record.present?, found] at nothing
    cases value <;> first | rfl | cases nothing

theorem value?_isSome (read : Field.all.foldlM (readField record) empty = .ok patch)
    (field : Field) : (patch.value? field).isSome = (record.present? field.key).isSome :=
  have ⟨set, _⟩ := foldlM_value? nodup_fields (fun other _ => value?_empty other) read
  set field (Field.mem_all field)

theorem ofRecord_foreign (ascend : KeysAscend record.entries) (foreign : Record.IsForeign key)
    (member : key ∈ record.keys) :
    ∃ least ∈ record.keys, Record.IsForeign least ∧
      ofRecord record = .error (.unknownField least) ∧
      ∀ other ∈ record.keys, Record.IsForeign other →
        other = least ∨ Text.bytes least < Text.bytes other := by
  -- The first foreign key is named, and keys ascend.
  have refused : (record.keys.find? fun key => (Field.ofKey? key).isNone).isSome = true :=
    List.find?_isSome.mpr ⟨key, member, Record.ofKey?_isNone.mpr foreign⟩
  obtain ⟨least, found⟩ := Option.isSome_iff_exists.mp refused
  have strange : (Field.ofKey? least).isNone = true :=
    List.find?_some (p := fun key => (Field.ofKey? key).isNone) found
  refine ⟨least, List.mem_of_find?_eq_some found, Record.ofKey?_isNone.mp strange,
    by rw [ofRecord, found], ?_⟩
  intro other present strange
  have placed := Record.find?_least ascend found other present (Record.ofKey?_isNone.mpr strange)
  exact placed.imp_right Text.bytes_lt_bytes

theorem ofRecord_known (known : ∀ key ∈ record.keys, ¬ Record.IsForeign key) :
    ofRecord record = (Field.all.foldlM (readField record) empty).mapError .corrupt := by
  have none : record.keys.find? (fun key => (Field.ofKey? key).isNone) = none := by
    rw [List.find?_eq_none]
    intro key member foreign
    exact known key member (Record.ofKey?_isNone.mp foreign)
  rw [ofRecord, none]
  cases Field.all.foldlM (readField record) empty <;> rfl

/-- Patches and settings are read alike from a record. A key of no field makes the patch fail, and
the least such key is named. Without one the two readers fail with one fault or both succeed. Then
the patch sets the fields that the record has a value for, as they are in the settings that were
read, and leaves the others of the settings that it is applied to as they were. -/
theorem reads_like_settings (ascend : KeysAscend record.entries) :
    ((∃ key ∈ record.keys, Record.IsForeign key) →
      ∃ least ∈ record.keys, Record.IsForeign least ∧
        ofRecord record = .error (.unknownField least) ∧
        ∀ other ∈ record.keys, Record.IsForeign other →
          other = least ∨ Text.bytes least < Text.bytes other) ∧
    ((∀ key ∈ record.keys, ¬ Record.IsForeign key) →
      (∃ fault, ofRecord record = .error (.corrupt fault) ∧
        Settings.ofRecord record = .error fault) ∨
      ∃ patch settings, ofRecord record = .ok patch ∧ Settings.ofRecord record = .ok settings ∧
        (∀ (start : Settings) (field : Field),
          if (record.present? field.key).isSome then
            Settings.Agree settings (start.apply patch) field
          else Settings.Agree start (start.apply patch) field) ∧
        Settings.default.apply patch = settings ∧
        (patch.isEmpty = true ↔ ∀ entry ∈ record.entries, entry.2 = .null)) := by
  refine ⟨fun ⟨key, member, foreign⟩ => ofRecord_foreign ascend foreign member, fun known => ?_⟩
  have typed := readFields_apply record Settings.default
  rw [ofRecord_known known, Settings.ofRecord, typed]
  cases read : Field.all.foldlM (readField record) empty with
  | error fault => exact .inl ⟨fault, rfl, rfl⟩
  | ok patch =>
    refine .inr ⟨patch, _, rfl, rfl, fun start field => ?_, rfl, ?_⟩
    · have set := value?_isSome read field
      split
      case isTrue present => exact agree_of_set Settings.default start (set.trans present)
      case isFalse absent =>
        exact agree_of_unset start (Option.not_isSome_iff_eq_none.mp (set ▸ absent))
    · rw [isEmpty_iff, all_null_iff ascend known]
      refine forall_congr' fun field => ?_
      rw [← Option.not_isSome_iff_eq_none, ← Option.not_isSome_iff_eq_none, value?_isSome read]

def clockRecord : Record := ⟨[("clockFormat", .string "12"), ("removedStackWidgets", .null)]⟩

/-- Of two keys of no field the lesser holds nothing. -/
def strangeRecord : Record :=
  ⟨[("accent", .null), ("clockFormat", .string "12"), ("zoom", .ofNat 2)]⟩

theorem clock_record_read_alike :
    KeysAscend clockRecord.entries ∧ (∀ key ∈ clockRecord.keys, ¬ Record.IsForeign key) ∧
    (∃ patch settings, ofRecord clockRecord = .ok patch ∧
      Settings.ofRecord clockRecord = .ok settings ∧ Settings.default.apply patch = settings ∧
      patch.isEmpty = false) ∧
    KeysAscend strangeRecord.entries ∧
    (∃ least ∈ strangeRecord.keys, ofRecord strangeRecord = .error (.unknownField least)) := by
  have ascend : KeysAscend clockRecord.entries := by unfold KeysAscend; decide +kernel
  have known : ∀ key ∈ clockRecord.keys, ¬ Record.IsForeign key := by
    intro key member foreign
    rw [clockRecord, Record.keys] at member
    simp only [List.map_cons, List.map_nil, List.mem_cons, List.not_mem_nil, or_false] at member
    rcases member with rfl | rfl
    · exact foreign .clockFormat rfl
    · exact foreign .removed rfl
  have strange : Record.IsForeign "accent" := Record.ofKey?_isNone.mp (by decide +kernel)
  have rising : KeysAscend strangeRecord.entries := by unfold KeysAscend; decide +kernel
  obtain ⟨least, member, -, named, -⟩ :=
    (reads_like_settings rising).1 ⟨"accent", by simp [strangeRecord, Record.keys], strange⟩
  refine ⟨ascend, known, ?_, rising, least, member, named⟩
  rcases (reads_like_settings ascend).2 known with ⟨fault, failed, -⟩ | alike
  · have read : (ofRecord clockRecord).isOk = true := by decide +kernel
    rw [failed] at read
    cases read
  · obtain ⟨patch, settings, read, typed, -, applied, empty⟩ := alike
    refine ⟨patch, settings, read, typed, applied, Bool.eq_false_iff.mpr fun none => ?_⟩
    cases empty.mp none ("clockFormat", .string "12") (by simp [clockRecord])

end Patch

end StartPage
