import Mathlib.Data.List.Nodup
import Mathlib.Data.List.Perm.Subperm
import StartPage.Settings
import StartPage.Proofs.Record
import StartPage.Proofs.Sequences

/-!
Settings that are read back from a record. Each field takes over one part of the settings, and
together the fields take over all of them, so a record that holds the value of every field is read
as those settings, save that its lists of cards lose their repeats. Whatever settings a record is
read as, their lists have none.
-/
namespace StartPage

section Repeats

variable {α : Type} [DecidableEq α]

theorem nodup_eraseDups (items : List α) : items.eraseDups.Nodup := by
  induction length : items.length using Nat.strongRecOn generalizing items with
  | ind size ih =>
    cases items with
    | nil => simp
    | cons first rest =>
      -- The recursion is on the rest without the first item, which is no part of it.
      have shorter := List.length_filter_le (fun other => !other == first) rest
      rw [List.length_cons] at length
      rw [List.eraseDups_cons, List.nodup_cons]
      constructor
      · simp [List.mem_eraseDups]
      · exact ih _ (by omega) _ rfl

theorem eraseDups_of_nodup {items : List α} (distinct : items.Nodup) : items.eraseDups = items := by
  induction items with
  | nil => rfl
  | cons first rest ih =>
    obtain ⟨fresh, tail⟩ := List.nodup_cons.mp distinct
    have kept : rest.filter (fun other => !other == first) = rest := by
      rw [List.filter_eq_self]
      intro other member
      have apart : other ≠ first := fun same => fresh (same ▸ member)
      simpa using apart
    rw [List.eraseDups_cons, kept, ih tail]

end Repeats

namespace Settings

/-- Only the first of several equal cards stays in each list. -/
def withoutRepeats (settings : Settings) : Settings :=
  { settings with
    stackOrder := settings.stackOrder.eraseDups
    removed := settings.removed.eraseDups }

def Distinct (settings : Settings) : Prop :=
  settings.stackOrder.Nodup ∧ settings.removed.Nodup

theorem withoutRepeats_of_distinct {settings : Settings} (distinct : settings.Distinct) :
    settings.withoutRepeats = settings := by
  rw [withoutRepeats, eraseDups_of_nodup distinct.1, eraseDups_of_nodup distinct.2]

section Adoption

variable {source target : Settings} {field other : Field}

/-- The target with one field taken from the source. -/
def adopt (source target : Settings) : Field → Settings
  | .flag flag => target.setFlag flag (source.flag flag)
  | .clockFormat => { target with clockFormat := source.clockFormat }
  | .stackOrder => { target with stackOrder := source.stackOrder }
  | .removed => { target with removed := source.removed }

def Agree (source target : Settings) : Field → Prop
  | .flag flag => target.flag flag = source.flag flag
  | .clockFormat => target.clockFormat = source.clockFormat
  | .stackOrder => target.stackOrder = source.stackOrder
  | .removed => target.removed = source.removed

theorem agree_adopt (source target : Settings) (field : Field) :
    Agree source (adopt source target field) field := by
  cases field with
  | flag flag => exact if_pos rfl
  | _ => rfl

theorem Agree.adopt (agree : Agree source target other) :
    Agree source (adopt source target field) other := by
  by_cases same : other = field
  · exact same ▸ agree_adopt source target other
  · cases field with
    | flag flag =>
      cases other with
      | flag kept =>
        have apart : kept ≠ flag := fun equal => same (congrArg Field.flag equal)
        exact (if_neg apart).trans agree
      | _ => exact agree
    | clockFormat =>
      cases other with
      | clockFormat => exact absurd rfl same
      | _ => exact agree
    | stackOrder =>
      cases other with
      | stackOrder => exact absurd rfl same
      | _ => exact agree
    | removed =>
      cases other with
      | removed => exact absurd rfl same
      | _ => exact agree

theorem eq_of_agree (agree : ∀ field, Agree source target field) : target = source := by
  obtain ⟨flag, clockFormat, stackOrder, removed⟩ := target
  have flags : flag = source.flag := funext fun each => agree (.flag each)
  have clock : clockFormat = source.clockFormat := agree .clockFormat
  have order : stackOrder = source.stackOrder := agree .stackOrder
  have gone : removed = source.removed := agree .removed
  rw [flags, clock, order, gone]

theorem Agree.foldl {fields : List Field} (agree : Agree source target other) :
    Agree source (fields.foldl (Settings.adopt source) target) other := by
  induction fields generalizing target with
  | nil => exact agree
  | cons field fields ih => exact ih agree.adopt

theorem agree_foldl {fields : List Field} (member : field ∈ fields) :
    Agree source (fields.foldl (Settings.adopt source) target) field := by
  induction fields generalizing target with
  | nil => cases member
  | cons first fields ih =>
    rcases List.mem_cons.mp member with rfl | further
    · exact (agree_adopt source target field).foldl
    · exact ih further

theorem foldl_adopt (source target : Settings) : Field.all.foldl (adopt source) target = source :=
  eq_of_agree fun field => agree_foldl (Field.mem_all field)

end Adoption

section Reading

variable {record : Record} {source target : Settings}

theorem parse?_text (format : ClockFormat) : ClockFormat.parse? format.text = some format := by
  cases format <;> decide

theorem widgets?_widgetList {key : String} {cards : List Widget}
    (found : record.present? key = some (widgetList cards)) :
    record.widgets? key = .ok (some cards.eraseDups) := by
  have strings : (cards.map fun card => Value.string card.name).find?
      (fun item => item.text?.isNone) = none := by
    simp [List.find?_eq_none, Value.text?]
  have names : ((cards.map fun card => Value.string card.name).filterMap Value.text?).filterMap
      Widget.ofName? = cards := by
    simp [List.filterMap_map, Function.comp_def, Value.text?]
  rw [widgetList] at found
  simp only [Record.widgets?, found, strings, names]

theorem readField_value {field : Field}
    (found : record.present? field.key = some (source.value field)) :
    readField record target field = .ok (adopt source.withoutRepeats target field) := by
  cases field with
  | flag flag =>
    have read : record.flag? flag.key = .ok (some (source.flag flag)) := by
      rw [Field.key, value] at found
      rw [Record.flag?, found]
    rw [readField, read]
    rfl
  | clockFormat =>
    have read : record.clockFormat? = .ok (some source.clockFormat) := by
      rw [value] at found
      simp only [Record.clockFormat?, found, Value.text?, Option.bind_some, parse?_text]
    rw [readField, read]
    rfl
  | stackOrder =>
    rw [readField, widgets?_widgetList found]
    rfl
  | removed =>
    rw [readField, widgets?_widgetList found]
    rfl

/-- A record whose fields are each read as what the source has there is read as the source. A
skipped field is one that the target has to agree about already. -/
theorem ofRecord_adopt (Skipped : Field → Prop)
    (skipped : ∀ field, Skipped field → Agree source default field)
    (read : ∀ target field, (Skipped field → Agree source target field) →
      readField record target field = .ok (adopt source target field)) :
    ofRecord record = .ok source := by
  -- The fields are read one after another, over whatever was read before.
  have fold : ∀ fields target, (∀ field, Skipped field → Agree source target field) →
      List.foldlM (readField record) target fields =
        (.ok (fields.foldl (adopt source) target) : Except CorruptField Settings) := by
    intro fields
    induction fields with
    | nil => exact fun _ _ => rfl
    | cons field fields ih =>
      intro target kept
      rw [List.foldlM_cons, read target field (kept field)]
      exact ih _ fun other absent => (kept other absent).adopt
  rw [ofRecord, fold _ _ skipped, foldl_adopt]

theorem ofRecord_values
    (found : ∀ field : Field, record.present? field.key = some (source.value field)) :
    ofRecord record = .ok source.withoutRepeats :=
  ofRecord_adopt (fun _ => False) (fun _ => False.elim)
    fun _ field _ => readField_value (found field)

end Reading

section Distinctness

variable {record : Record} {settings result : Settings}

theorem widgets?_nodup {key : String} {cards : List Widget}
    (read : record.widgets? key = .ok (some cards)) : cards.Nodup := by
  rw [Record.widgets?] at read
  split at read
  · cases read
  · split at read
    · cases read
    · obtain rfl := Option.some.inj (Except.ok.inj read)
      exact nodup_eraseDups _
  · cases read

theorem getD_widgets?_nodup {key : String} {found : Option (List Widget)} {default : List Widget}
    (read : record.widgets? key = .ok found) (distinct : default.Nodup) :
    (found.getD default).Nodup := by
  cases found with
  | none => exact distinct
  | some cards => exact widgets?_nodup read

theorem readField_distinct {field : Field} (distinct : settings.Distinct)
    (read : readField record settings field = .ok result) : result.Distinct := by
  cases field with
  | flag flag =>
    obtain ⟨found, -, read⟩ := bind_ok read
    cases found with
    | none => exact Except.ok.inj read ▸ distinct
    | some value => exact Except.ok.inj read ▸ distinct
  | clockFormat =>
    obtain ⟨format, -, read⟩ := bind_ok read
    exact Except.ok.inj read ▸ distinct
  | stackOrder =>
    obtain ⟨cards, found, read⟩ := bind_ok read
    exact Except.ok.inj read ▸ ⟨getD_widgets?_nodup found distinct.1, distinct.2⟩
  | removed =>
    obtain ⟨cards, found, read⟩ := bind_ok read
    exact Except.ok.inj read ▸ ⟨distinct.1, getD_widgets?_nodup found distinct.2⟩

theorem readFields_distinct {fields : List Field} (distinct : settings.Distinct)
    (read : fields.foldlM (readField record) settings = .ok result) : result.Distinct := by
  induction fields generalizing settings with
  | nil =>
    cases read
    exact distinct
  | cons field fields ih =>
    rw [List.foldlM_cons] at read
    obtain ⟨next, first, read⟩ := bind_ok read
    exact ih (readField_distinct distinct first) read

theorem ofRecord_distinct (read : ofRecord record = .ok settings) : settings.Distinct :=
  readFields_distinct ⟨by decide, by decide⟩ read

theorem length_le_of_nodup {cards : List Widget} (distinct : cards.Nodup) : cards.length ≤ 6 := by
  have within : cards.Subperm Widget.all :=
    distinct.subperm fun card _ => Widget.mem_all card
  exact within.length_le

end Distinctness

section Storing

variable {settings : Settings} {version : Version}

theorem key_ne_versionKey (field : Field) : field.key ≠ versionKey := by
  cases field with
  | flag flag =>
    cases flag with
    | widget card => cases card <;> decide
    | _ => decide
  | _ => decide

theorem distinct_keys : (Field.all.map Field.key).Nodup := by decide +kernel

theorem value_not_null (settings : Settings) (field : Field) :
    (settings.value field).isNull = false := by
  cases field <;> rfl

theorem present?_versionKey :
    (settings.toRecord version).present? versionKey = some (.ofNat version.toNat) := by
  rw [toRecord, Record.present?_insert, if_pos rfl]
  rfl

theorem keys_entries (settings : Settings) :
    settings.entries.map (·.1) = Field.all.map Field.key := by
  rw [entries, List.map_map]
  rfl

theorem distinct_entries (settings : Settings) : (settings.entries.map (·.1)).Nodup :=
  settings.keys_entries ▸ distinct_keys

theorem mem_entries (settings : Settings) (field : Field) :
    (field.key, settings.value field) ∈ settings.entries :=
  List.mem_map.mpr ⟨field, Field.mem_all field, rfl⟩

theorem get?_field (settings : Settings) (field : Field) :
    settings.fields.get? field.key = some (settings.value field) :=
  Record.get?_ofList settings.distinct_entries (settings.mem_entries field)

theorem present?_field (field : Field) :
    ((settings.toRecord version).erase versionKey).present? field.key =
      some (settings.value field) := by
  rw [Record.present?_erase, if_neg (key_ne_versionKey field), toRecord, Record.present?_insert,
    if_neg (key_ne_versionKey field), Record.present?, get?_field, Option.filter_some,
    value_not_null]
  rfl

theorem keys_toRecord :
    (settings.toRecord version).keys.Perm (versionKey :: Field.all.map Field.key) := by
  have fields : settings.fields.keys.Perm (Field.all.map Field.key) :=
    settings.keys_entries ▸ Record.keys_ofList settings.distinct_entries
  have fresh : versionKey ∉ settings.fields.keys := by
    intro repeated
    obtain ⟨field, -, same⟩ := List.mem_map.mp (fields.mem_iff.mp repeated)
    exact key_ne_versionKey field same
  rw [toRecord]
  exact (Record.keys_insert fresh).trans (fields.cons versionKey)

theorem ofRecord_toRecord :
    ofRecord ((settings.toRecord version).erase versionKey) = .ok settings.withoutRepeats :=
  ofRecord_values present?_field

theorem forall_mem_toRecord {motive : String × Value → Prop}
    (stamp : motive (versionKey, .ofNat version.toNat))
    (each : ∀ field : Field, motive (field.key, settings.value field)) :
    ∀ entry ∈ (settings.toRecord version).entries, motive entry := by
  intro entry member
  rw [toRecord] at member
  rcases Record.mem_insert member with rfl | kept
  · exact stamp
  · have placed : entry ∈ settings.entries := Record.mem_ofList kept
    obtain ⟨field, -, rfl⟩ := List.mem_map.mp placed
    exact each field

theorem length_toRecord_le : (settings.toRecord version).entries.length ≤ 17 := by
  have fields : settings.fields.entries.length ≤ settings.entries.length :=
    Record.length_ofList_le settings.entries
  have sixteen : settings.entries.length = 16 := by simp [entries, Field.all, Widget.all]
  rw [toRecord]
  exact Nat.le_trans Record.length_insert_le (by omega)

theorem ascending_value (field : Field) : (settings.value field).Ascending := by
  cases field with
  | flag flag => simp [value, Value.Ascending]
  | clockFormat => simp [value, Value.Ascending]
  | _ => simp [value, widgetList, Value.Ascending, Value.itemsAscending_iff]

theorem wholeNumbers_value (field : Field) : (settings.value field).WholeNumbers := by
  cases field with
  | flag flag => simp [value, Value.WholeNumbers]
  | clockFormat => simp [value, Value.WholeNumbers]
  | _ => simp [value, widgetList, Value.WholeNumbers, Value.itemsWhole_iff]

theorem depth_value_le (field : Field) : (settings.value field).depth ≤ 1 := by
  cases field with
  | flag flag => simp [value, Value.depth]
  | clockFormat => simp [value, Value.depth]
  | _ =>
    apply Nat.succ_le_succ
    apply Value.depthOfItems_le_iff.mpr
    intro item inside
    obtain ⟨card, -, rfl⟩ := List.mem_map.mp inside
    exact Nat.le_refl 0

theorem length_key_lt (field : Field) : (Text.bytes field.key).length < 2 ^ 32 := by
  cases field with
  | flag flag =>
    cases flag with
    | widget card => cases card <;> decide
    | _ => decide
  | _ => decide

theorem lengthsFit_widgetList {cards : List Widget} (few : cards.length < 2 ^ 32) :
    (widgetList cards).LengthsFit := by
  have names : ∀ card : Widget, (Text.bytes card.name).length < 2 ^ 32 := by
    intro card
    cases card <;> decide
  rw [widgetList, Value.LengthsFit, List.length_map, Value.itemLengthsFit_iff]
  constructor
  · exact few
  · intro item member
    obtain ⟨card, -, rfl⟩ := List.mem_map.mp member
    exact names card

/-- Only the lists of cards can be too long. -/
theorem lengthsFit_value (order : settings.stackOrder.length < 2 ^ 32)
    (removed : settings.removed.length < 2 ^ 32) (field : Field) :
    (settings.value field).LengthsFit := by
  cases field with
  | flag flag => simp [value, Value.LengthsFit]
  | clockFormat =>
    have short : ∀ format : ClockFormat, (Text.bytes format.text).length < 2 ^ 32 := by
      intro format
      cases format <;> decide
    exact short settings.clockFormat
  | stackOrder => exact lengthsFit_widgetList order
  | removed => exact lengthsFit_widgetList removed

-- To compute the entries of a stored record is to compare all its keys; nothing below needs that.
attribute [local irreducible] toRecord

theorem ascending_toRecord (settings : Settings) (version : Version) :
    (settings.toRecord version).Ascending := by
  apply Record.ascending_iff.mpr
  constructor
  · rw [toRecord]
    exact Record.keysAscend_insert (Record.keysAscend_ofList settings.entries)
  · apply forall_mem_toRecord
    · simp [Value.ofNat, Value.Ascending]
    · exact ascending_value

theorem wholeNumbers_toRecord (settings : Settings) (version : Version) :
    (settings.toRecord version).WholeNumbers := by
  have small : (Value.ofNat version.toNat).WholeNumbers := by
    have bound := version.toNat_lt
    rw [Value.ofNat, Value.WholeNumbers]
    omega
  apply Record.wholeNumbers_iff.mpr
  exact forall_mem_toRecord small wholeNumbers_value

theorem depth_toRecord_le (settings : Settings) (version : Version) :
    (settings.toRecord version).depth ≤ 2 := by
  apply Record.depth_le_succ_iff.mpr
  apply forall_mem_toRecord
  · simp [Value.ofNat, Value.depth]
  · exact depth_value_le

theorem lengthsFit_toRecord (version : Version) (order : settings.stackOrder.length < 2 ^ 32)
    (removed : settings.removed.length < 2 ^ 32) : (settings.toRecord version).LengthsFit := by
  apply Record.lengthsFit_iff.mpr
  constructor
  · exact Nat.lt_of_le_of_lt length_toRecord_le (by decide)
  · apply forall_mem_toRecord
    · have short : (Text.bytes versionKey).length < 2 ^ 32 := by decide
      exact ⟨short, by simp [Value.ofNat, Value.LengthsFit]⟩
    · intro field
      exact ⟨length_key_lt field, lengthsFit_value order removed field⟩

end Storing

end Settings

theorem Field.key_injective : Function.Injective Field.key := by
  intro field other same
  exact List.inj_on_of_nodup_map Settings.distinct_keys (Field.mem_all field) (Field.mem_all other)
    same

end StartPage
