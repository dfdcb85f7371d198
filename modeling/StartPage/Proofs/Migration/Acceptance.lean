import Mathlib.Data.List.Nodup
import StartPage.Proofs.Migration.InPlace
import StartPage.Proofs.Migration.Stamp
import StartPage.Proofs.Settings.Reading

/-!
Which records the page's chain accepts. A step leaves every key alone but for the two lists and
the retired key; it fails only because of an entry of its record that does not fit, and when it
does not fail, the same entries fit as before. So it does not matter from which version on the
steps are run: a record is refused exactly when one of its entries does not fit, the retired key
counting before version 2 only, and what is named is the key of such an entry.
-/
namespace StartPage

namespace Migration

/-- What a record is read under: its version, the retired key, and its fields. -/
inductive Entry where
  | version
  | front
  | field (field : Field)
deriving DecidableEq

namespace Entry

def key : Entry → String
  | version => versionKey
  | front => legacyFrontKey
  | field f => f.key

def fits : Entry → Value → Bool
  | version, .number (.integer number) => 0 ≤ number && number ≤ 0xFFFFFFFF
  | version, _ => false
  | front, value => value.kind == .string
  | field f, value => f.fits value

def holds (entry : Entry) (record : Record) : Bool := (record.present? entry.key).all entry.fits

/-- The retired key counts before version 2, everything else always. -/
def Counts (record : Record) : Entry → Prop
  | front => ∃ dated, widgetStack.detect record = .ok dated ∧ dated < 2
  | _ => True

theorem front_ne_field (field : Field) : legacyFrontKey ≠ field.key := by
  cases field with
  | flag flag =>
    cases flag with
    | widget card => cases card <;> decide
    | _ => decide
  | _ => decide

theorem key_injective : Function.Injective key := by
  intro entry other same
  cases entry with
  | version =>
    cases other with
    | version => rfl
    | front => exact absurd same (by decide)
    | field f => exact absurd same.symm (Settings.key_ne_versionKey f)
  | front =>
    cases other with
    | version => exact absurd same (by decide)
    | front => rfl
    | field f => exact absurd same (front_ne_field f)
  | field f =>
    cases other with
    | version => exact absurd same (Settings.key_ne_versionKey f)
    | front => exact absurd same.symm (front_ne_field f)
    | field g => exact congrArg field (Field.key_injective same)

theorem present?_insert {entry other : Entry} (record : Record) (value : Value)
    (apart : other ≠ entry) :
    (record.insert entry.key value).present? other.key = record.present? other.key := by
  rw [Record.present?_insert, if_neg fun same => apart (key_injective same)]

theorem present?_erase {entry other : Entry} (record : Record) (apart : other ≠ entry) :
    (record.erase entry.key).present? other.key = record.present? other.key := by
  rw [Record.present?_erase, if_neg fun same => apart (key_injective same)]

theorem holds_congr {entry : Entry} {record after : Record}
    (same : after.present? entry.key = record.present? entry.key) :
    entry.holds after = entry.holds record := by
  rw [holds, same, holds]

theorem holds_absent {entry : Entry} {record : Record}
    (absent : record.present? entry.key = none) : entry.holds record = true := by
  rw [holds, absent]
  rfl

theorem present_of_holds {entry : Entry} {record : Record} (unsound : entry.holds record = false) :
    ∃ value, record.present? entry.key = some value ∧ entry.fits value = false := by
  rw [holds] at unsound
  cases present : record.present? entry.key with
  | none =>
    rw [present] at unsound
    cases unsound
  | some value =>
    rw [present] at unsound
    exact ⟨value, rfl, unsound⟩

end Entry

section Readings

theorem legacyFront_guards (record : Record) :
    record.Guards legacyFrontKey Entry.front.fits (legacyFront record) := by
  rw [legacyFront]
  split
  case h_1 absent => exact Record.guards_absent absent
  case h_2 name present => exact Record.guards_present present rfl
  case h_3 other strange present =>
    apply Record.guards_refused present
    cases other with
    | string text => exact absurd rfl (strange text)
    | _ => rfl

theorem isShown_guards (record : Record) (card : Widget) :
    record.Guards card.showKey Value.isFlag (isShown record card) :=
  (record.flag?_guards card.showKey).map _

theorem stackOrder_guards (record : Record) :
    record.Guards Field.stackOrder.key Value.isNames (stackOrder record) :=
  (record.widgets?_guards Field.stackOrder.key).map _

theorem removedCards_guards (record : Record) :
    record.Guards Field.removed.key Value.isNames (removedCards record) :=
  (record.widgets?_guards Field.removed.key).map _

theorem natural?_fits (value : Value) :
    Entry.version.fits value = value.natural?.any fun number => number < UInt32.size := by
  cases value with
  | number number =>
    cases number with
    | integer n =>
      by_cases negative : n < 0
      · simp [Entry.fits, Value.natural?, Int.not_le.mpr negative]
      · have whole : 0 ≤ n := Int.not_lt.mp negative
        have small : n ≤ 0xFFFFFFFF ↔ n.toNat < UInt32.size := by
          rw [UInt32.size]
          omega
        simp [Entry.fits, Value.natural?, whole, small]
    | double d => rfl
  | _ => rfl

theorem Chain.detect_guards (chain : Chain) (record : Record) :
    record.Guards versionKey Entry.version.fits (chain.detect record) := by
  rw [Chain.detect]
  split
  case h_1 absent => exact Record.guards_absent absent
  case h_2 stamp present =>
    have fits := natural?_fits stamp
    split
    case h_1 version natural =>
      rw [natural] at fits
      split
      case isTrue small => exact Record.guards_present present (by simpa [small] using fits)
      case isFalse large => exact Record.guards_refused present (by simpa [large] using fits)
    case h_2 strange =>
      rw [strange] at fits
      exact Record.guards_refused present fits

end Readings

def Entry.ReadFor (version : Version) : Entry → Prop
  | front => version = 2
  | _ => True

/-- The record holds what it held before, save for the lists and the retired key, and these fit
where they fitted before. -/
structure Kept (record after : Record) : Prop where
  outside : ∀ key ∉ [Field.stackOrder.key, Field.removed.key, legacyFrontKey],
    after.present? key = record.present? key
  holds : ∀ entry : Entry, entry.holds after = entry.holds record

namespace Kept

variable {first second third : Record}

theorem refl (record : Record) : Kept record record := ⟨fun _ _ => rfl, fun _ => rfl⟩

theorem trans (before : Kept first second) (after : Kept second third) : Kept first third where
  outside key other := (after.outside key other).trans (before.outside key other)
  holds entry := (after.holds entry).trans (before.holds entry)

end Kept

section Edits

variable {record : Record} {entry other : Entry} {value : Value}

theorem holds_insert (fits : entry.fits value = true) (held : entry.holds record = true) :
    other.holds (record.insert entry.key value) = other.holds record := by
  by_cases same : other = entry
  · subst same
    rw [held, Entry.holds, Record.present?_insert, if_pos rfl]
    cases value.isNull with
    | true => rfl
    | false => exact fits
  · exact Entry.holds_congr (Entry.present?_insert record value same)

theorem holds_erase (held : entry.holds record = true) :
    other.holds (record.erase entry.key) = other.holds record := by
  by_cases same : other = entry
  · subst same
    rw [held]
    apply Entry.holds_absent
    rw [Record.present?_erase, if_pos rfl]
  · exact Entry.holds_congr (Entry.present?_erase record same)

theorem kept_insert (entry : Entry)
    (among : entry.key ∈ [Field.stackOrder.key, Field.removed.key, legacyFrontKey])
    (fits : entry.fits value = true) (held : entry.holds record = true) :
    Kept record (record.insert entry.key value) where
  outside key other := by
    have apart : key ≠ entry.key := fun equal => other (equal ▸ among)
    rw [Record.present?_insert, if_neg apart]
  holds _ := holds_insert fits held

theorem kept_erase (entry : Entry)
    (among : entry.key ∈ [Field.stackOrder.key, Field.removed.key, legacyFrontKey])
    (held : entry.holds record = true) : Kept record (record.erase entry.key) where
  outside key other := by
    have apart : key ≠ entry.key := fun equal => other (equal ▸ among)
    rw [Record.present?_erase, if_neg apart]
  holds _ := holds_erase held

theorem isNames_widgetList (cards : List Widget) : (widgetList cards).isNames = true := by
  simp [widgetList, Value.isNames, Value.kind]

end Edits

/-- The fault names an entry of the record that does not fit, one of those that are looked at. -/
def Blames (looked : Entry → Prop) (record : Record) (fault : CorruptField) : Prop :=
  ∃ entry : Entry, looked entry ∧ entry.key = fault.field ∧ entry.holds record = false

theorem Kept.blames {looked : Entry → Prop} {record after : Record} {fault : CorruptField}
    (kept : Kept record after) (blamed : Blames looked after fault) :
    Blames looked record fault := by
  obtain ⟨entry, among, named, unsound⟩ := blamed
  exact ⟨entry, among, named, (kept.holds entry).symm.trans unsound⟩

/-- What a transformation owes to the others: it keeps the record but for what it may write, and it
fails only over an entry that does not fit. The retired key is looked at by one step alone, which
then fails unless it fits. -/
structure Careful (version : Version) (change : Record → Except CorruptField Record) : Prop where
  keeps : ∀ {record after}, change record = .ok after → Kept record after
  blames : ∀ {record fault}, change record = .error fault →
    Blames (Entry.ReadFor version) record fault
  demands : ∀ {record after}, change record = .ok after → version = 2 →
    Entry.front.holds record = true

section Steps

variable {record after : Record} {version : Version} {fault : CorruptField}
  {order removed : List Widget}

theorem blames_field {α : Type} (field : Field) {result : Except CorruptField α}
    (guards : record.Guards field.key field.fits result) (failed : result = .error fault) :
    Blames (Entry.ReadFor version) record fault := by
  obtain ⟨named, unsound⟩ := guards.error fault failed
  exact ⟨.field field, trivial, named.symm, unsound⟩

theorem shownAmong_blames {cards : List Widget} (failed : shownAmong record cards = .error fault) :
    Blames (Entry.ReadFor version) record fault := by
  induction cards with
  | nil => cases failed
  | cons card rest ih =>
    rw [shownAmong] at failed
    rcases bind_error failed with unread | ⟨shown, -, failed⟩
    · exact blames_field (.flag (.widget card)) (isShown_guards record card) unread
    · rcases bind_error failed with unread | ⟨others, -, failed⟩
      · exact ih unread
      · cases failed

theorem kept_withLists {first second : List Widget} (ordered : stackOrder record = .ok first)
    (gone : removedCards record = .ok second) :
    Kept record (withLists record order removed) := by
  have front := (stackOrder_guards record).ok first ordered
  have back := (removedCards_guards record).ok second gone
  have written : Kept record (record.insert Field.stackOrder.key (widgetList order)) :=
    kept_insert (.field .stackOrder) (by decide) (isNames_widgetList order) front
  have still : (Entry.field .removed).holds
      (record.insert Field.stackOrder.key (widgetList order)) = true :=
    (written.holds _).trans back
  exact written.trans
    (kept_insert (.field .removed) (by decide) (isNames_widgetList removed) still)

theorem careful_lists (next : Record → List Widget → List Widget → Except CorruptField Record)
    (later : version ≠ 2)
    (writes : ∀ {record order removed after}, next record order removed = .ok after →
      ∃ newOrder newRemoved, after = withLists record newOrder newRemoved)
    (blames : ∀ {record order removed fault}, next record order removed = .error fault →
      Blames (Entry.ReadFor version) record fault) :
    Careful version fun record => do
      let order ← stackOrder record
      let removed ← removedCards record
      next record order removed where
  keeps ran := by
    obtain ⟨order, ordered, ran⟩ := bind_ok ran
    obtain ⟨removed, gone, ran⟩ := bind_ok ran
    obtain ⟨newOrder, newRemoved, rfl⟩ := writes ran
    exact kept_withLists ordered gone
  blames {record fault} failed := by
    rcases bind_error failed with unread | ⟨order, -, failed⟩
    · exact blames_field .stackOrder (stackOrder_guards record) unread
    · rcases bind_error failed with unread | ⟨removed, -, failed⟩
      · exact blames_field .removed (removedCards_guards record) unread
      · exact blames failed
  demands _ first := absurd first later

theorem careful_introduceRemoved : Careful 3 introduceRemoved := by
  refine careful_lists (fun record order removed => pure (withLists record order removed)) ?_ ?_ ?_
  · decide
  · rintro record order removed after ⟨⟩
    exact ⟨_, _, rfl⟩
  · nofun

theorem careful_addNewCards : Careful 4 addNewCards := by
  refine careful_lists (fun record order removed =>
    let unplaced := Widget.all.filter fun card => !isPlaced order removed card
    pure (withLists record (unplaced ++ order) removed)) ?_ ?_ ?_
  · decide
  · rintro record order removed after ⟨⟩
    exact ⟨_, _, rfl⟩
  · nofun

theorem careful_replaceCards : Careful 5 replaceCards := by
  refine careful_lists (fun record order removed => do
    let shown ← shownAmong record removed
    let restored := shown.filter fun card => !order.contains card
    return withLists record (restored ++ order) (removed.filter fun card => !shown.contains card))
    ?_ ?_ ?_
  · decide
  · intro record order removed after ran
    obtain ⟨shown, -, ran⟩ := bind_ok ran
    exact ⟨_, _, (Except.ok.inj ran).symm⟩
  · intro record order removed fault failed
    rcases bind_error failed with unread | ⟨shown, -, failed⟩
    · exact shownAmong_blames unread
    · cases failed

theorem kept_arrange {front : Option Widget} (arranged : arrange record front = .ok after) :
    Kept record after := by
  rw [arrange] at arranged
  split at arranged
  case isTrue =>
    cases arranged
    exact Kept.refl record
  case isFalse unordered =>
    obtain ⟨behind, -, arranged⟩ := bind_ok arranged
    cases arranged
    have absent : record.present? Field.stackOrder.key = none := by
      simpa [hasStackOrder] using unordered
    have held : (Entry.field .stackOrder).holds record = true := Entry.holds_absent absent
    exact kept_insert (.field .stackOrder) (by decide) (isNames_widgetList _) held

theorem arrange_blames {front : Option Widget} (failed : arrange record front = .error fault) :
    Blames (Entry.ReadFor version) record fault := by
  rw [arrange] at failed
  split at failed
  case isTrue => cases failed
  case isFalse =>
    rcases bind_error failed with unread | ⟨behind, -, failed⟩
    · exact shownAmong_blames unread
    · cases failed

theorem careful_buildStackOrder : Careful 2 buildStackOrder where
  keeps {record after} ran := by
    rw [buildStackOrder] at ran
    obtain ⟨front, named, ran⟩ := bind_ok ran
    obtain ⟨ordered, arranged, ran⟩ := bind_ok ran
    cases ran
    have kept := kept_arrange arranged
    have held : Entry.front.holds ordered = true :=
      (kept.holds .front).trans ((legacyFront_guards record).ok front named)
    exact kept.trans (kept_erase .front (by decide) held)
  blames {record fault} failed := by
    rw [buildStackOrder] at failed
    rcases bind_error failed with unread | ⟨front, -, failed⟩
    · obtain ⟨named, unsound⟩ := (legacyFront_guards record).error fault unread
      exact ⟨.front, rfl, named.symm, unsound⟩
    · rcases bind_error failed with failed | ⟨ordered, -, failed⟩
      · exact arrange_blames failed
      · cases failed
  demands {record after} ran _ := by
    obtain ⟨front, named, -⟩ := bind_ok ran
    exact (legacyFront_guards record).ok front named

theorem careful_step {step : Step} (member : step ∈ widgetStackSteps) :
    Careful step.version step.apply := by
  rcases step_cases member with same | same | same | same
  · rw [same.version, same.apply]
    exact careful_buildStackOrder
  · rw [same.version, same.apply]
    exact careful_introduceRemoved
  · rw [same.version, same.apply]
    exact careful_addNewCards
  · rw [same.version, same.apply]
    exact careful_replaceCards

end Steps

section Runs

variable {steps : List Step} {record after : Record} {fault : CorruptField}

theorem steps_keep (careful : ∀ step ∈ steps, Careful step.version step.apply)
    (ran : steps.foldlM (fun record step => step.apply record) record = .ok after) :
    Kept record after ∧
      ∀ step ∈ steps, step.version = 2 → Entry.front.holds record = true := by
  induction steps generalizing record with
  | nil =>
    cases ran
    exact ⟨Kept.refl _, nofun⟩
  | cons first rest ih =>
    obtain ⟨own, others⟩ := List.forall_mem_cons.mp careful
    rw [List.foldlM_cons] at ran
    obtain ⟨next, stepped, ran⟩ := bind_ok ran
    have kept := own.keeps stepped
    obtain ⟨further, demanded⟩ := ih others ran
    refine ⟨kept.trans further, List.forall_mem_cons.mpr ⟨own.demands stepped, ?_⟩⟩
    intro step member first
    rw [← kept.holds]
    exact demanded step member first

theorem steps_blame (careful : ∀ step ∈ steps, Careful step.version step.apply)
    (failed : steps.foldlM (fun record step => step.apply record) record = .error fault) :
    ∃ step ∈ steps, Blames (Entry.ReadFor step.version) record fault := by
  induction steps generalizing record with
  | nil => cases failed
  | cons first rest ih =>
    obtain ⟨own, others⟩ := List.forall_mem_cons.mp careful
    rw [List.foldlM_cons] at failed
    rcases bind_error failed with wrong | ⟨next, stepped, failed⟩
    · exact ⟨first, List.mem_cons_self, own.blames wrong⟩
    · obtain ⟨step, member, blamed⟩ := ih others failed
      exact ⟨step, List.mem_cons_of_mem _ member, (own.keeps stepped).blames blamed⟩

end Runs

section Chain

variable {record after : Record} {dated : Version} {outcome : Outcome} {fault : CorruptField}

theorem careful_newer {step : Step} (member : step ∈ widgetStack.newer dated) :
    Careful step.version step.apply :=
  careful_step (List.mem_filter.mp member).1

theorem holds_unstamped (field : Field) :
    field.holds (record.erase versionKey) = (Entry.field field).holds record := by
  rw [Field.holds, Record.present?_erase, if_neg (Settings.key_ne_versionKey field)]
  rfl

theorem run_ok (ran : widgetStack.run record = .ok outcome) :
    (∀ entry : Entry, entry.Counts record → entry.holds record = true) ∧
      ∃ after, Kept record after ∧ outcome.settings = (after.erase versionKey).typed := by
  obtain ⟨dated, after, settings, detected, applied, read, rfl⟩ := Chain.run_eq_ok_iff.mp ran
  obtain ⟨kept, demanded⟩ := steps_keep (fun _ => careful_newer) applied
  obtain ⟨fits, typed⟩ := Settings.ofRecord_eq_ok_iff.mp read
  refine ⟨?_, after, kept, typed⟩
  intro entry counts
  cases entry with
  | version => exact (widgetStack.detect_guards record).ok dated detected
  | front =>
    obtain ⟨version, again, early⟩ := counts
    obtain rfl : version = dated := Except.ok.inj (again.symm.trans detected)
    have first : widgetStackSteps.head (by decide) ∈ widgetStack.newer version :=
      List.mem_filter.mpr ⟨List.head_mem _, decide_eq_true early⟩
    exact demanded _ first rfl
  | field f =>
    rw [← kept.holds, ← holds_unstamped]
    exact fits f

theorem run_values (ran : widgetStack.run record = .ok outcome) {field : Field}
    (order : field ≠ .stackOrder) (removed : field ≠ .removed) :
    record.present? field.key = some (outcome.settings.value field) ∨
      record.present? field.key = none ∧
        outcome.settings.value field = Settings.default.value field := by
  obtain ⟨sound, after, kept, typed⟩ := run_ok ran
  have fits : field.holds (after.erase versionKey) = true := by
    rw [holds_unstamped, kept.holds]
    exact sound (.field field) trivial
  have outside : (after.erase versionKey).present? field.key = record.present? field.key := by
    rw [Record.present?_erase, if_neg (Settings.key_ne_versionKey field)]
    apply kept.outside
    simp only [List.mem_cons, List.not_mem_nil, or_false, not_or]
    exact ⟨fun same => order (Field.key_injective same),
      fun same => removed (Field.key_injective same), (Entry.front_ne_field field).symm⟩
  rw [typed, ← outside]
  exact Settings.value_typed fits order removed

theorem run_error (refused : widgetStack.run record = .error fault) :
    Blames (Entry.Counts record) record fault := by
  rcases bind_error refused with undated | ⟨dated, detected, refused⟩
  · obtain ⟨named, unsound⟩ := (widgetStack.detect_guards record).error fault undated
    exact ⟨.version, trivial, named.symm, unsound⟩
  · rcases bind_error refused with failed | ⟨after, applied, refused⟩
    · obtain ⟨step, member, entry, read, named, unsound⟩ := steps_blame (fun _ => careful_newer) failed
      refine ⟨entry, ?_, named, unsound⟩
      cases entry with
      | front =>
        have newer : dated < step.version := by simpa using (List.mem_filter.mp member).2
        exact ⟨dated, detected, read ▸ newer⟩
      | _ => trivial
    · rcases bind_error refused with untyped | ⟨settings, -, refused⟩
      · obtain ⟨field, named, unsound⟩ := Settings.ofRecord_error untyped
        obtain ⟨kept, -⟩ := steps_keep (fun _ => careful_newer) applied
        rw [holds_unstamped] at unsound
        exact kept.blames ⟨.field field, trivial, named, unsound⟩
      · cases refused

end Chain

/-- A record is accepted exactly when every entry that counts fits or is absent. A refusal names an
entry of the record that does not fit. In what is accepted, each flag and the clock format are the
record's own, or the default where the record has none. -/
theorem accepts_fitting_records (record : Record) :
    ((∃ outcome, widgetStack.run record = .ok outcome) ↔
      ∀ entry : Entry, entry.Counts record → entry.holds record = true) ∧
    (∀ fault, widgetStack.run record = .error fault → ∃ (entry : Entry) (value : Value),
      entry.Counts record ∧ entry.key = fault.field ∧
        record.present? entry.key = some value ∧ entry.fits value = false) ∧
    ∀ outcome, widgetStack.run record = .ok outcome → ∀ field : Field,
      field ≠ .stackOrder → field ≠ .removed →
        record.present? field.key = some (outcome.settings.value field) ∨
        record.present? field.key = none ∧
          outcome.settings.value field = Settings.default.value field := by
  constructor
  · constructor
    · rintro ⟨outcome, ran⟩
      exact (run_ok ran).1
    · intro sound
      cases ran : widgetStack.run record with
      | ok outcome => exact ⟨outcome, rfl⟩
      | error fault =>
        obtain ⟨entry, counts, -, unsound⟩ := run_error ran
        cases (sound entry counts).symm.trans unsound
  · constructor
    · intro fault refused
      obtain ⟨entry, counts, named, unsound⟩ := run_error refused
      obtain ⟨value, present, strange⟩ := Entry.present_of_holds unsound
      exact ⟨entry, value, counts, named, present, strange⟩
    · intro outcome ran field order removed
      exact run_values ran order removed

def misnamed : Record :=
  .ofList [("showRewards", .boolean true), (legacyFrontKey, .boolean true)]

def misnamedLater : Record := misnamed.insert versionKey (.ofNat 2)

theorem misnamed_front_counts_early :
    widgetStack.run misnamed = .error ⟨legacyFrontKey, "a widget name", .boolean⟩ ∧
    (∃ (entry : Entry) (value : Value), entry.Counts misnamed ∧ entry.key = legacyFrontKey ∧
      misnamed.present? entry.key = some value ∧ entry.fits value = false) ∧
    widgetStack.run misnamedLater =
      .ok ⟨Settings.default.setFlag (.widget .rewards) true, 2, 5,
        ["removed-stack-widgets", "add-new-stack-widgets", "replace-stack-widgets"]⟩ ∧
    (∀ entry : Entry, entry.Counts misnamedLater → entry.holds misnamedLater = true) ∧
    misnamedLater.present? "showRewards" = some (.boolean true) := by
  have refused : widgetStack.run misnamed = .error ⟨legacyFrontKey, "a widget name", .boolean⟩ := by
    decide +kernel
  have ran : widgetStack.run misnamedLater =
      .ok ⟨Settings.default.setFlag (.widget .rewards) true, 2, 5,
        ["removed-stack-widgets", "add-new-stack-widgets", "replace-stack-widgets"]⟩ := by
    decide +kernel
  obtain ⟨-, blamed, -⟩ := accepts_fitting_records misnamed
  obtain ⟨accepted, -, kept⟩ := accepts_fitting_records misnamedLater
  have rewards := kept _ ran (.flag (.widget .rewards)) (by decide) (by decide)
  refine ⟨refused, blamed _ refused, ran, accepted.mp ⟨_, ran⟩, ?_⟩
  rcases rewards with present | ⟨-, defaulted⟩
  · exact present
  · exact absurd defaulted (by decide)
end Migration
end StartPage
