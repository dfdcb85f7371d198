import StartPage.Proofs.Settings

/-!
What the fields of a record have to hold to be read. A reader refuses a value exactly when it does
not fit, and then names its key; nothing that is absent is refused. So a record is read as settings
exactly when all of its fields fit, and then each field has the value that the record gives it, or
its default where the record gives none.
-/
namespace StartPage

namespace Value

def isFlag : Value → Bool
  | .boolean _ => true
  | _ => false

def isClockFormat : Value → Bool
  | .string text => ["", "12", "24"].contains text
  | _ => false

def isNames : Value → Bool
  | .list items => items.all fun item => item.kind == .string
  | _ => false

theorem isClockFormat_eq (value : Value) :
    value.isClockFormat = (value.text?.bind ClockFormat.parse?).isSome := by
  cases value with
  | string text =>
    have parsed : (ClockFormat.all.find? fun format => format.text == text).isSome = true ↔
        ∃ format ∈ ClockFormat.all, (format.text == text) = true := List.find?_isSome
    rw [Bool.eq_iff_iff, isClockFormat, text?, Option.bind_some, ClockFormat.parse?, parsed]
    simp only [List.contains_eq_mem, List.mem_cons, List.not_mem_nil, or_false, decide_eq_true_eq,
      ClockFormat.all, exists_eq_or_imp, exists_eq_left, ClockFormat.text, beq_iff_eq]
    exact or_congr eq_comm (or_congr eq_comm eq_comm)
  | _ => rfl

theorem text?_isNone (value : Value) : value.text?.isNone = !(value.kind == .string) := by
  cases value <;> rfl

end Value

namespace Record

variable {α β : Type} {record : Record} {key : String} {fits : Value → Bool}

/-- What was read was read off a value that fits or was absent; a refusal names the key of a value
that does not fit. -/
structure Guards (record : Record) (key : String) (fits : Value → Bool)
    (result : Except CorruptField α) : Prop where
  ok : ∀ found, result = .ok found → (record.present? key).all fits = true
  error : ∀ fault, result = .error fault →
    fault.field = key ∧ (record.present? key).all fits = false

theorem Guards.ok_of_fits {result : Except CorruptField α} (guards : record.Guards key fits result)
    (sound : (record.present? key).all fits = true) : ∃ found, result = .ok found := by
  cases result with
  | ok found => exact ⟨found, rfl⟩
  | error fault => cases sound.symm.trans (guards.error fault rfl).2

theorem Guards.map {result : Except CorruptField α} (guards : record.Guards key fits result)
    (next : α → β) : record.Guards key fits (result >>= fun found => pure (next found)) := by
  cases result with
  | ok found => exact ⟨fun _ _ => guards.ok found rfl, nofun⟩
  | error fault =>
    refine ⟨nofun, ?_⟩
    rintro other ⟨⟩
    exact guards.error fault rfl

theorem guards_absent {found : α} (absent : record.present? key = none) :
    record.Guards key fits (.ok found) :=
  ⟨fun _ _ => by rw [absent]; rfl, nofun⟩

theorem guards_present {value : Value} {found : α} (present : record.present? key = some value)
    (sound : fits value = true) : record.Guards key fits (.ok found) :=
  ⟨fun _ _ => by rw [present]; exact sound, nofun⟩

theorem guards_refused {value : Value} {expected : String} {found : Kind}
    (present : record.present? key = some value) (unsound : fits value = false) :
    record.Guards key fits (.error ⟨key, expected, found⟩ : Except CorruptField α) := by
  refine ⟨nofun, ?_⟩
  rintro fault ⟨⟩
  rw [present]
  exact ⟨rfl, unsound⟩

theorem flag?_guards (record : Record) (key : String) :
    record.Guards key Value.isFlag (record.flag? key) := by
  rw [flag?]
  split
  case h_1 absent => exact guards_absent absent
  case h_2 value present => exact guards_present present rfl
  case h_3 other strange present =>
    apply guards_refused present
    cases other with
    | boolean shown => exact absurd rfl (strange shown)
    | _ => rfl

theorem present?_of_flag? {found : Option Bool} (read : record.flag? key = .ok found) :
    record.present? key = found.map .boolean := by
  rw [flag?] at read
  split at read
  case h_1 absent =>
    cases read
    exact absent
  case h_2 value present =>
    cases read
    exact present
  case h_3 => cases read

theorem clockFormat?_guards (record : Record) :
    record.Guards Field.clockFormat.key Value.isClockFormat record.clockFormat? := by
  rw [clockFormat?]
  split
  case h_1 absent => exact guards_absent absent
  case h_2 value present =>
    split
    case h_1 format parsed =>
      apply guards_present present
      rw [Value.isClockFormat_eq, parsed]
      rfl
    case h_2 unparsed =>
      apply guards_refused present
      rw [Value.isClockFormat_eq, unparsed]
      rfl

theorem present?_of_clockFormat? {found : Option ClockFormat}
    (read : record.clockFormat? = .ok found) :
    record.present? Field.clockFormat.key = found.map fun format => .string format.text := by
  rw [clockFormat?] at read
  split at read
  case h_1 absent =>
    cases read
    exact absent
  case h_2 value present =>
    split at read
    case h_1 format parsed =>
      cases read
      obtain ⟨text, string, known⟩ := Option.bind_eq_some_iff.mp parsed
      have same : format.text = text := by simpa using List.find?_some known
      cases value with
      | string written =>
        cases string
        rw [present, Option.map_some, same]
      | _ => cases string
    case h_2 => cases read

theorem widgets?_guards (record : Record) (key : String) :
    record.Guards key Value.isNames (record.widgets? key) := by
  rw [widgets?]
  split
  case h_1 absent => exact guards_absent absent
  case h_2 items present =>
    split
    case h_1 wrong found =>
      apply guards_refused present
      rw [Value.isNames, List.all_eq_false]
      refine ⟨wrong, List.mem_of_find?_eq_some found, ?_⟩
      have refused := List.find?_some found
      rw [Value.text?_isNone] at refused
      simpa using refused
    case h_2 none =>
      apply guards_present present
      rw [Value.isNames, List.all_eq_true]
      intro item member
      have read := List.find?_eq_none.mp none item member
      rw [Value.text?_isNone] at read
      simpa using read
  case h_3 other strange present =>
    apply guards_refused present
    cases other with
    | list items => exact absurd rfl (strange items)
    | _ => rfl

theorem isSome_of_widgets? {key : String} {found : Option (List Widget)}
    (read : record.widgets? key = .ok found) : (record.present? key).isSome = found.isSome := by
  rw [widgets?] at read
  split at read
  case h_1 absent =>
    rw [absent, ← Except.ok.inj read]
    rfl
  case h_2 items present =>
    split at read
    · cases read
    · rw [present, ← Except.ok.inj read]
      rfl
  case h_3 => cases read

end Record

namespace Field

def fits : Field → Value → Bool
  | .flag _ => Value.isFlag
  | .clockFormat => Value.isClockFormat
  | .stackOrder | .removed => Value.isNames

/-- The record has nothing under the key of the field, or what fits it. -/
def holds (field : Field) (record : Record) : Bool := (record.present? field.key).all field.fits

end Field

/-- The settings that a record stands for, where its fields fit. -/
def Record.typed (record : Record) : Settings where
  flag flag := (record.flag? flag.key).toOption.join.getD (Settings.default.flag flag)
  clockFormat := record.clockFormat?.toOption.join.getD Settings.default.clockFormat
  stackOrder :=
    (record.widgets? Field.stackOrder.key).toOption.join.getD Settings.default.stackOrder
  removed := (record.widgets? Field.removed.key).toOption.join.getD Settings.default.removed

namespace Record

variable {record : Record}

theorem typed_flag {flag : Flag} {found : Option Bool} (read : record.flag? flag.key = .ok found) :
    record.typed.flag flag = found.getD (Settings.default.flag flag) := by
  simp only [typed, read]
  rfl

theorem typed_clockFormat {found : Option ClockFormat} (read : record.clockFormat? = .ok found) :
    record.typed.clockFormat = found.getD Settings.default.clockFormat := by
  simp only [typed, read]
  rfl

theorem typed_stackOrder {found : Option (List Widget)}
    (read : record.widgets? Field.stackOrder.key = .ok found) :
    record.typed.stackOrder = found.getD Settings.default.stackOrder := by
  simp only [typed, read]
  rfl

theorem typed_removed {found : Option (List Widget)}
    (read : record.widgets? Field.removed.key = .ok found) :
    record.typed.removed = found.getD Settings.default.removed := by
  simp only [typed, read]
  rfl

end Record

namespace Settings

variable {record : Record} {target settings : Settings} {field : Field}

theorem readField_guards (record : Record) (target : Settings) (field : Field) :
    record.Guards field.key field.fits (readField record target field) := by
  cases field with
  | flag flag => exact (record.flag?_guards flag.key).map _
  | clockFormat => exact record.clockFormat?_guards.map _
  | stackOrder => exact (record.widgets?_guards Field.stackOrder.key).map _
  | removed => exact (record.widgets?_guards Field.removed.key).map _

theorem adopt_of_agree {source : Settings} (agree : Agree source target field) :
    adopt source target field = target := by
  cases field with
  | flag flag =>
    have same : target.flag flag = source.flag flag := agree
    rw [adopt, setFlag, ← same]
    congr
    funext other
    split
    · rename_i equal
      rw [equal]
    · rfl
  | clockFormat =>
    have same : target.clockFormat = source.clockFormat := agree
    rw [adopt, ← same]
  | stackOrder =>
    have same : target.stackOrder = source.stackOrder := agree
    rw [adopt, ← same]
  | removed =>
    have same : target.removed = source.removed := agree
    rw [adopt, ← same]

def Unread (record : Record) : Field → Prop
  | .flag flag => record.flag? flag.key = .ok none
  | .clockFormat => record.clockFormat? = .ok none
  | .stackOrder => record.widgets? Field.stackOrder.key = .ok none
  | .removed => record.widgets? Field.removed.key = .ok none

theorem agree_default (unread : Unread record field) : Agree record.typed default field := by
  cases field with
  | flag flag => exact (Record.typed_flag unread).symm
  | clockFormat => exact (Record.typed_clockFormat unread).symm
  | stackOrder => exact (Record.typed_stackOrder unread).symm
  | removed => exact (Record.typed_removed unread).symm

/-- A field that fits is taken over from what the record stands for. Where the record gives it no
value, the target has to agree already. -/
theorem readField_adopt (fits : field.holds record = true)
    (kept : Unread record field → Agree record.typed target field) :
    readField record target field = .ok (adopt record.typed target field) := by
  cases field with
  | flag flag =>
    obtain ⟨found, read⟩ := (record.flag?_guards flag.key).ok_of_fits fits
    cases found with
    | none =>
      rw [adopt_of_agree (kept read), readField, read]
      rfl
    | some value =>
      rw [readField, adopt, Record.typed_flag read, read]
      rfl
  | clockFormat =>
    obtain ⟨found, read⟩ := record.clockFormat?_guards.ok_of_fits fits
    cases found with
    | none =>
      rw [adopt_of_agree (kept read), readField, read]
      rfl
    | some value =>
      rw [readField, adopt, Record.typed_clockFormat read, read]
      rfl
  | stackOrder =>
    obtain ⟨found, read⟩ := (record.widgets?_guards Field.stackOrder.key).ok_of_fits fits
    cases found with
    | none =>
      rw [adopt_of_agree (kept read), readField, read]
      rfl
    | some value =>
      rw [readField, adopt, Record.typed_stackOrder read, read]
      rfl
  | removed =>
    obtain ⟨found, read⟩ := (record.widgets?_guards Field.removed.key).ok_of_fits fits
    cases found with
    | none =>
      rw [adopt_of_agree (kept read), readField, read]
      rfl
    | some value =>
      rw [readField, adopt, Record.typed_removed read, read]
      rfl

theorem ofRecord_typed (fits : ∀ field : Field, field.holds record = true) :
    ofRecord record = .ok record.typed :=
  ofRecord_adopt (Unread record) (fun _ => agree_default)
    fun _ field kept => readField_adopt (fits field) kept

/-- A record is read as settings exactly when its fields fit, and then as those that it stands
for. -/
theorem ofRecord_eq_ok_iff : ofRecord record = .ok settings ↔
    (∀ field : Field, field.holds record = true) ∧ settings = record.typed := by
  constructor
  · intro read
    have fits : ∀ field : Field, field.holds record = true := by
      intro field
      obtain ⟨state, next, passed⟩ := foldlM_ok read field (Field.mem_all field)
      exact (readField_guards record state field).ok next passed
    rw [ofRecord_typed fits] at read
    exact ⟨fits, (Except.ok.inj read).symm⟩
  · rintro ⟨fits, rfl⟩
    exact ofRecord_typed fits

theorem ofRecord_error {fault : CorruptField} (refused : ofRecord record = .error fault) :
    ∃ field : Field, field.key = fault.field ∧ field.holds record = false := by
  obtain ⟨field, -, state, failed⟩ := foldlM_error refused
  obtain ⟨named, unsound⟩ := (readField_guards record state field).error fault failed
  exact ⟨field, named.symm, unsound⟩

theorem value_typed (fits : field.holds record = true) (order : field ≠ .stackOrder)
    (removed : field ≠ .removed) :
    record.present? field.key = some (record.typed.value field) ∨
      record.present? field.key = none ∧ record.typed.value field = default.value field := by
  cases field with
  | flag flag =>
    obtain ⟨found, read⟩ := (record.flag?_guards flag.key).ok_of_fits fits
    have present : record.present? flag.key = found.map .boolean := Record.present?_of_flag? read
    rw [value, Record.typed_flag read]
    cases found with
    | none => exact .inr ⟨present, rfl⟩
    | some shown => exact .inl present
  | clockFormat =>
    obtain ⟨found, read⟩ := record.clockFormat?_guards.ok_of_fits fits
    have present := Record.present?_of_clockFormat? read
    rw [value, Record.typed_clockFormat read]
    cases found with
    | none => exact .inr ⟨present, rfl⟩
    | some format => exact .inl present
  | stackOrder => exact absurd rfl order
  | removed => exact absurd rfl removed

end Settings
end StartPage
