import Mathlib.Data.List.Nodup
import StartPage.Proofs.Settings.Patching

/-!
Patches over one another. Every call that sets a field of a patch stands for one entry of the wire
form, and applying patches writes the entries of all their calls there, in the order of the calls.
So the last one for a key decides; and patches merge, repeat and change places as entries that are
written do.
-/
namespace StartPage

namespace Field

@[simp] theorem ofKey?_key (field : Field) : ofKey? field.key = some field := by
  cases found : ofKey? field.key with
  | none => exact absurd rfl (List.find?_eq_none.mp found field (mem_all field) <| beq_iff_eq.mpr ·)
  | some other =>
    have same : other.key = field.key := by simpa using List.find?_some found
    rw [key_injective same]

theorem key_of_ofKey? {key : String} {field : Field} (found : ofKey? key = some field) :
    field.key = key := by
  simpa using List.find?_some found

end Field

namespace Settings

variable {settings other : Settings}

theorem agree_of_value {field : Field} (same : settings.value field = other.value field) :
    Agree other settings field := by
  have names : ∀ cards stacked : List Widget, widgetList cards = widgetList stacked →
      cards = stacked := by
    intro cards stacked equal
    have injective : Function.Injective fun card : Widget => Value.string card.name := by
      intro card stack same
      have found := congrArg Widget.ofName? (Value.string.inj same)
      rw [Widget.ofName?_name, Widget.ofName?_name] at found
      exact Option.some.inj found
    exact List.map_injective_iff.mpr injective (Value.list.inj equal)
  cases field with
  | flag flag => exact Value.boolean.inj same
  | clockFormat =>
    have text := Value.string.inj same
    have parsed := congrArg ClockFormat.parse? text
    rw [parse?_text, parse?_text] at parsed
    exact Option.some.inj parsed
  | stackOrder => exact names _ _ same
  | removed => exact names _ _ same

theorem eq_of_value (same : ∀ field, settings.value field = other.value field) :
    settings = other :=
  eq_of_agree fun field => agree_of_value (same field)

theorem get?_fields (settings : Settings) (key : String) :
    settings.fields.get? key = (Field.ofKey? key).map settings.value := by
  cases found : Field.ofKey? key with
  | some field =>
    rw [← Field.key_of_ofKey? found]
    exact settings.get?_field field
  | none =>
    rw [Option.map_none, Option.eq_none_iff_forall_ne_some]
    intro value stored
    have member := (Record.mem_entries_iff (Record.keysAscend_ofList _)).mpr stored
    obtain ⟨field, -, same⟩ := List.mem_map.mp (Record.mem_ofList member)
    have known := Field.ofKey?_key field
    rw [(Prod.mk.inj same).1, found] at known
    cases known

theorem keysAscend_fields (settings : Settings) : Value.KeysAscend settings.fields.entries :=
  Record.keysAscend_ofList settings.entries

theorem value_apply (settings : Settings) (patch : Patch) (field : Field) :
    (settings.apply patch).value field = (patch.value? field).getD (settings.value field) := by
  cases field with
  | flag flag => cases set : patch.flag flag <;> simp [value, apply, Patch.value?, set]
  | clockFormat => cases set : patch.clockFormat <;> simp [value, apply, Patch.value?, set]
  | stackOrder => cases set : patch.stackOrder <;> simp [value, apply, Patch.value?, set]
  | removed => cases set : patch.removed <;> simp [value, apply, Patch.value?, set]

/-- The last patch that sets a field decides its value. -/
theorem value_applyAll (settings : Settings) (patches : List Patch) (field : Field) :
    (settings.applyAll patches).value field =
      (patches.reverse.findSome? (·.value? field)).getD (settings.value field) := by
  induction patches using List.reverseRecOn with
  | nil => rfl
  | append_singleton older last ih =>
    rw [applyAll, List.foldl_concat, ← applyAll, value_apply, ih, List.reverse_concat,
      List.findSome?_cons]
    cases last.value? field <;> rfl

end Settings

namespace Patch

/-- A call that sets one field of a patch. -/
inductive Setter where
  | flag (flag : Flag) (value : Bool)
  | showWidget (card : Widget) (shown : Bool)
  | clockFormat (format : ClockFormat)
  | stackOrder (order : List Widget)
  | removed (cards : List Widget)

def call (patch : Patch) : Setter → Patch
  | .flag flag value => patch.setFlag flag value
  | .showWidget card shown => patch.showWidget card shown
  | .clockFormat format => patch.setClockFormat format
  | .stackOrder order => patch.setStackOrder order
  | .removed cards => patch.setRemoved cards

def built (calls : List Setter) : Patch := calls.foldl call empty

namespace Setter

def field : Setter → Field
  | .flag which _ => .flag which
  | .showWidget card _ => .flag (.widget card)
  | .clockFormat _ => .clockFormat
  | .stackOrder _ => .stackOrder
  | .removed _ => .removed

def entry : Setter → String × Value
  | .flag which value => (which.key, .boolean value)
  | .showWidget card shown => (card.showKey, .boolean shown)
  | .clockFormat format => ("clockFormat", .string format.text)
  | .stackOrder order => ("widgetStackOrder", widgetList order)
  | .removed cards => ("removedStackWidgets", widgetList cards)

def write (record : Record) (setter : Setter) : Record :=
  record.insert setter.entry.1 setter.entry.2

theorem entry_key (setter : Setter) : setter.entry.1 = setter.field.key := by
  cases setter <;> rfl

end Setter

-- To compute the wire form is to compare all its keys; nothing below needs that.
attribute [local irreducible] Settings.fields

variable {patch first last : Patch} {settings : Settings}

theorem value?_call (patch : Patch) (setter : Setter) (field : Field) :
    (patch.call setter).value? field =
      if field = setter.field then some setter.entry.2 else patch.value? field := by
  cases setter with
  | flag flag value | showWidget flag value =>
    cases field with
    | flag other =>
      simp only [call, showWidget, setFlag, value?, Setter.field, Setter.entry, Field.flag.injEq]
      split <;> rfl
    | _ => rfl
  | clockFormat format | stackOrder order | removed cards => cases field <;> rfl

theorem fields_call (settings : Settings) (patch : Patch) (setter : Setter) :
    (settings.apply (patch.call setter)).fields = setter.write (settings.apply patch).fields := by
  apply Record.eq_of_get? (Settings.keysAscend_fields _)
  · exact Record.keysAscend_insert (Settings.keysAscend_fields _)
  · intro key
    rw [Setter.write, Record.get?_insert, Setter.entry_key, Settings.get?_fields,
      Settings.get?_fields]
    by_cases written : key = setter.field.key
    · simp [written, Settings.value_apply, value?_call]
    · rw [if_neg written]
      refine Option.map_congr fun field found => ?_
      have other : field ≠ setter.field := fun same =>
        written (same ▸ (Field.key_of_ofKey? found).symm)
      rw [Settings.value_apply, Settings.value_apply, value?_call, if_neg other]

theorem fields_built (settings : Settings) (calls : List Setter) :
    (settings.apply (built calls)).fields = calls.foldl Setter.write settings.fields := by
  induction calls using List.reverseRecOn with
  | nil => rfl
  | append_singleton older last ih =>
    rw [built, List.foldl_concat, List.foldl_concat, ← built, fields_call, ih]

theorem fields_applyAll_built (settings : Settings) (calls : List (List Setter)) :
    (settings.applyAll (calls.map built)).fields =
      calls.flatten.foldl Setter.write settings.fields := by
  induction calls generalizing settings with
  | nil => rfl
  | cons first rest ih =>
    rw [List.map_cons, Settings.applyAll, List.foldl_cons, ← Settings.applyAll, ih,
      List.flatten_cons, List.foldl_append, fields_built]

/-- What the last patch sets, and besides what the first one does. -/
def merge (first last : Patch) : Patch where
  flag flag := (last.flag flag).or (first.flag flag)
  clockFormat := last.clockFormat.or first.clockFormat
  stackOrder := last.stackOrder.or first.stackOrder
  removed := last.removed.or first.removed

def mergeAll (patches : List Patch) : Patch := patches.foldl merge empty

theorem value?_merge (first last : Patch) (field : Field) :
    (merge first last).value? field = (last.value? field).or (first.value? field) := by
  cases field <;> exact Option.map_or

theorem apply_merge (settings : Settings) (first last : Patch) :
    settings.apply (merge first last) = (settings.apply first).apply last := by
  apply Settings.eq_of_value
  intro field
  rw [Settings.value_apply, Settings.value_apply, Settings.value_apply, value?_merge]
  cases last.value? field <;> rfl

theorem apply_mergeAll (settings : Settings) (patches : List Patch) :
    settings.apply (mergeAll patches) = settings.applyAll patches := by
  induction patches using List.reverseRecOn with
  | nil => rfl
  | append_singleton older last ih =>
    rw [mergeAll, List.foldl_concat, ← mergeAll, apply_merge, ih, Settings.applyAll,
      Settings.applyAll, List.foldl_concat]

theorem apply_apply_self (settings : Settings) (patch : Patch) :
    (settings.apply patch).apply patch = settings.apply patch := by
  apply Settings.eq_of_value
  intro field
  rw [Settings.value_apply, Settings.value_apply]
  cases patch.value? field <;> rfl

theorem apply_comm (disjoint : ∀ field, first.value? field = none ∨ last.value? field = none) :
    (settings.apply first).apply last = (settings.apply last).apply first := by
  apply Settings.eq_of_value
  intro field
  simp only [Settings.value_apply]
  rcases disjoint field with unset | unset
  · rw [unset, Option.getD_none, Option.getD_none]
  · rw [unset, Option.getD_none, Option.getD_none]

def contrary : Settings where
  flag flag := !Settings.default.flag flag
  clockFormat := .twelveHour
  stackOrder := []
  removed := [.rewards]

theorem contrary_value (field : Field) : contrary.value field ≠ Settings.default.value field := by
  cases field with
  | flag flag => simp [contrary, Settings.value]
  | _ => decide

theorem isEmpty_iff_apply : patch.isEmpty = true ↔ ∀ start : Settings, start.apply patch = start := by
  rw [isEmpty_iff]
  constructor
  · intro unset start
    apply Settings.eq_of_value
    intro field
    rw [Settings.value_apply, unset, Option.getD_none]
  · intro unchanged field
    by_contra set
    obtain ⟨value, set⟩ := Option.ne_none_iff_exists'.mp set
    have everywhere (start : Settings) : value = start.value field := by
      rw [← unchanged start, Settings.value_apply, set, Option.getD_some]
    exact contrary_value field ((everywhere contrary).symm.trans (everywhere Settings.default))

/-- Applying patches writes the entries of their calls into the wire form, one after another; so
each of its keys holds what the last patch that sets its field gives it, or what it held before. To
show a card or not is to write under the card's own key, and only that card's visibility follows.
All the patches are one merged patch, a patch that was applied changes nothing more, patches for
different fields may change places, and a patch that never changes anything is empty. -/
theorem patches_write_wire_form (settings : Settings) (patches : List Patch) :
    (∀ calls : List (List Setter), (settings.applyAll (calls.map built)).fields =
      calls.flatten.foldl Setter.write settings.fields) ∧
    (∀ key, (settings.applyAll patches).fields.get? key =
      (Field.ofKey? key).map fun field =>
        (patches.reverse.findSome? (·.value? field)).getD (settings.value field)) ∧
    (∀ (patch : Patch) (card : Widget) (shown : Bool),
      (settings.apply (patch.showWidget card shown)).fields =
        (settings.apply patch).fields.insert card.showKey (.boolean shown) ∧
      (settings.apply (patch.showWidget card shown)).isShown card = shown ∧
      ∀ other ≠ card, (settings.apply (patch.showWidget card shown)).isShown other =
        (settings.apply patch).isShown other) ∧
    (∃ merged : Patch, ∀ start : Settings, start.applyAll patches = start.apply merged) ∧
    (∀ patch : Patch, (settings.apply patch).apply patch = settings.apply patch) ∧
    (∀ first last : Patch, (∀ field, first.value? field = none ∨ last.value? field = none) →
      (settings.apply first).apply last = (settings.apply last).apply first) ∧
    ∀ patch : Patch, patch.isEmpty = true ↔ ∀ start : Settings, start.apply patch = start := by
  refine ⟨fields_applyAll_built settings, fun key => ?_, fun patch card shown => ?_,
    ⟨mergeAll patches, fun start => (apply_mergeAll start patches).symm⟩,
    apply_apply_self settings, fun _ _ => apply_comm, fun _ => isEmpty_iff_apply⟩
  · rw [Settings.get?_fields]
    exact congrArg (Option.map · _) (funext (Settings.value_applyAll settings patches))
  · refine ⟨fields_call settings patch (.showWidget card shown), ?_, fun other different => ?_⟩
    · simp [Settings.isShown, Settings.apply, showWidget, setFlag]
    · simp [Settings.isShown, Settings.apply, showWidget, setFlag, different]

theorem cards_shown_in_either_order :
    let gemini := built [.showWidget .gemini true]
    let rewards := built [.clockFormat .twelveHour, .showWidget .rewards true]
    let shown := (Settings.default.apply gemini).apply rewards
    (∀ field, gemini.value? field = none ∨ rewards.value? field = none) ∧
      shown = (Settings.default.apply rewards).apply gemini ∧
      shown.fields.get? "showGemini" = some (.boolean true) ∧
      Widget.all.filter shown.isShown = [.rewards, .gemini] := by
  intro gemini rewards shown
  have apart : ∀ field, gemini.value? field = none ∨ rewards.value? field = none := by
    have each : ∀ field ∈ Field.all,
        (gemini.value? field).isNone = true ∨ (rewards.value? field).isNone = true := by decide
    intro field
    simpa only [Option.isNone_iff_eq_none] using each field (Field.mem_all field)
  obtain ⟨-, stored, -, -, -, exchange, -⟩ :=
    patches_write_wire_form Settings.default [gemini, rewards]
  exact ⟨apart, exchange gemini rewards apart, (stored "showGemini").trans (by decide), by decide⟩

end Patch
end StartPage
