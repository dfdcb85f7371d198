import StartPage.Proofs.Migration.CurrentShape

/-!
A record that is dated too early. Its stack already has what the steps up to its date establish, so
those steps change nothing but the retired key, which no later step looks at once there is an order.
From whatever earlier version on the chain is run, the same settings come out.
-/
namespace StartPage.Migration

namespace Chain

variable {chain : Chain} {early late : Version}

theorem newer_eq_append (chain : Chain) (order : early ≤ late) :
    ∃ covered, chain.newer early = covered ++ chain.newer late ∧
      ∀ step ∈ covered, step ∈ chain.steps ∧ step.version ≤ late := by
  obtain ⟨earlier, later, cut⟩ := chain.exists_cutAt late
  refine ⟨earlier.filter fun step => early < step.version, ?_, ?_⟩
  · have left : (later.filter fun step => early < step.version) = later := by
      rw [List.filter_eq_self]
      intro step member
      exact decide_eq_true (UInt32.lt_of_le_of_lt order (cut.ahead step member))
    rw [cut.newer, newer, cut.split, List.filter_append, left]
  · intro step member
    have among := (List.mem_filter.mp member).1
    exact ⟨cut.split ▸ List.mem_append_left _ among, cut.covered step among⟩

end Chain

namespace Stack

variable {stack : Stack} {record : Record} {dated version : Version}

def settled (stack : Stack) : Stack := { stack with front := none }

/-- The stack has what the steps up to the version establish. -/
structure UpTo (stack : Stack) (version : Version) : Prop where
  ordered : 2 ≤ version → stack.order.isSome = true
  listed : 3 ≤ version → stack.removed.isSome = true
  complete : 4 ≤ version → stack.Complete
  hidden : 5 ≤ version → ∀ card ∈ stack.gone, stack.shown card = false

section Steps

theorem UpTo.congr {other : Stack} (upTo : stack.UpTo version)
    (same : other.settled = stack.settled) : other.UpTo version := by
  obtain ⟨order, removed, shown, front⟩ := stack
  obtain ⟨otherOrder, otherRemoved, otherShown, otherFront⟩ := other
  cases same
  exact ⟨upTo.ordered, upTo.listed, upTo.complete, upTo.hidden⟩

theorem some_cards (ordered : stack.order.isSome = true) : some stack.cards = stack.order := by
  obtain ⟨order, present⟩ := Option.isSome_iff_exists.mp ordered
  rw [cards_eq present, present]

theorem some_gone (listed : stack.removed.isSome = true) : some stack.gone = stack.removed := by
  obtain ⟨removed, present⟩ := Option.isSome_iff_exists.mp listed
  rw [gone_eq present, present]

theorem unplaced_of_complete (complete : stack.Complete) : stack.unplaced = [] := by
  rw [unplaced, List.filter_eq_nil_iff]
  intro card _
  rcases complete card with placed | gone
  · simp [isPlaced, placed]
  · simp [isPlaced, gone]

theorem restored_of_hidden (hidden : ∀ card ∈ stack.gone, stack.shown card = false) :
    stack.restored = [] := by
  rw [restored, List.filter_eq_nil_iff]
  intro card removed
  simp [hidden card removed]

theorem gone_of_hidden (hidden : ∀ card ∈ stack.gone, stack.shown card = false) :
    (stack.gone.filter fun card => !stack.shown card) = stack.gone := by
  rw [List.filter_eq_self]
  intro card removed
  rw [hidden card removed]
  rfl

theorem settled_built (ordered : stack.order.isSome = true) : stack.built.settled = stack.settled := by
  obtain ⟨order, present⟩ := Option.isSome_iff_exists.mp ordered
  rw [built, settled, settled, present, Option.getD_some]

theorem withLists_own (ordered : stack.order.isSome = true) (listed : stack.removed.isSome = true) :
    stack.withLists stack.cards stack.gone = stack := by
  rw [withLists, some_cards ordered, some_gone listed]

theorem filled_of_complete (complete : stack.Complete) :
    stack.filled = stack.withLists stack.cards stack.gone := by
  rw [filled, unplaced_of_complete complete, List.nil_append]

theorem replaced_of_hidden (hidden : ∀ card ∈ stack.gone, stack.shown card = false) :
    stack.replaced = stack.withLists stack.cards stack.gone := by
  rw [replaced, restored_of_hidden hidden, gone_of_hidden hidden, List.nil_append]

theorem two_le_version {step : Step} (member : step ∈ widgetStackSteps) : 2 ≤ step.version := by
  rcases step_cases member with same | same | same | same <;> rw [same.version] <;> decide

/-- A step changes nothing but the retired key where its own probe and the earlier ones find what
they look for. -/
theorem settled_advance {step : Step} (member : step ∈ widgetStackSteps) (upTo : stack.UpTo dated)
    (covered : step.version ≤ dated) : (stack.advance step.version).settled = stack.settled := by
  have ordered : 2 ≤ dated := UInt32.le_trans (two_le_version member) covered
  have own : 3 ≤ dated → stack.withLists stack.cards stack.gone = stack :=
    fun later => withLists_own (upTo.ordered ordered) (upTo.listed later)
  rcases step_cases member with same | same | same | same <;> rw [same.version] at covered ⊢
  · exact settled_built (upTo.ordered ordered)
  · exact congrArg settled (own covered)
  · calc stack.filled.settled
      _ = (stack.withLists stack.cards stack.gone).settled := by
        rw [filled_of_complete (upTo.complete covered)]
      _ = stack.settled := congrArg settled (own (UInt32.le_trans (by decide) covered))
  · calc stack.replaced.settled
      _ = (stack.withLists stack.cards stack.gone).settled := by
        rw [replaced_of_hidden (upTo.hidden covered)]
      _ = stack.settled := congrArg settled (own (UInt32.le_trans (by decide) covered))

theorem ordered_advance (stack : Stack) (version : Version) :
    (stack.advance version).order.isSome = true := by
  unfold advance
  split_ifs <;> rfl

theorem advance_congr {other : Stack} (ordered : stack.order.isSome = true)
    (same : other.settled = stack.settled) (version : Version) :
    (other.advance version).settled = (stack.advance version).settled := by
  obtain ⟨order, removed, shown, front⟩ := stack
  obtain ⟨otherOrder, otherRemoved, otherShown, otherFront⟩ := other
  cases same
  obtain ⟨order, rfl⟩ := Option.isSome_iff_exists.mp ordered
  unfold advance
  split_ifs <;> rfl

end Steps

section Runs

variable {steps : List Step}

theorem settled_foldl (known : ∀ step ∈ steps, step ∈ widgetStackSteps ∧ step.version ≤ dated)
    (upTo : stack.UpTo dated) :
    (steps.foldl (fun stack step => stack.advance step.version) stack).settled = stack.settled := by
  induction steps generalizing stack with
  | nil => rfl
  | cons first rest ih =>
    obtain ⟨⟨member, covered⟩, others⟩ := List.forall_mem_cons.mp known
    have own := settled_advance member upTo covered
    exact (ih others (upTo.congr own)).trans own

theorem foldl_congr {other : Stack} (ordered : stack.order.isSome = true)
    (same : other.settled = stack.settled) :
    (steps.foldl (fun stack step => stack.advance step.version) other).settled =
      (steps.foldl (fun stack step => stack.advance step.version) stack).settled := by
  induction steps generalizing stack other with
  | nil => exact same
  | cons first rest ih =>
    exact ih (stack.ordered_advance first.version) (advance_congr ordered same first.version)

/-- The steps that an earlier date adds change nothing that is not retired. -/
theorem settled_migrated (upTo : stack.UpTo dated) (early : version ≤ dated) :
    (stack.migrated version).settled = (stack.migrated dated).settled := by
  obtain ⟨covered, split, known⟩ := widgetStack.newer_eq_append early
  have idle := settled_foldl known upTo
  rw [migrated, migrated, split, List.foldl_append]
  by_cases none : covered = []
  · rw [none]
    rfl
  · -- A step is covered, so the date is that of the first step at least, and there is an order.
    have second : 2 ≤ dated := by
      obtain ⟨step, member⟩ := List.exists_mem_of_ne_nil covered none
      exact UInt32.le_trans (two_le_version (known step member).1) (known step member).2
    exact foldl_congr (upTo.ordered second) idle

end Runs

section Records

theorem ReadFrom.upTo (read : stack.ReadFrom record) (dated : widgetStack.date record = version) :
    stack.UpTo version := by
  have known : ∀ step ∈ widgetStackSteps, step.version ≤ version → step.knows record = true :=
    fun step member covered => Chain.knows_of_le_date member (dated ▸ covered)
  constructor
  · intro covered
    rw [← read.hasStackOrder]
    exact known widgetStackSteps[0] (List.getElem_mem _) covered
  · intro covered
    rw [← read.hasRemoved]
    exact known widgetStackSteps[1] (List.getElem_mem _) covered
  · intro covered
    exact read.listed.everyCardPlaced.mp (known widgetStackSteps[2] (List.getElem_mem _) covered)
  · intro covered card removed
    have hidden := known widgetStackSteps[3] (List.getElem_mem _) covered
    exact (read.listed.noShownCardRemoved fun card _ => read.shown card).mp hidden card removed

theorem ReadFrom.unique {other : Stack} (read : stack.ReadFrom record)
    (again : other.ReadFrom record) : other = stack := by
  obtain ⟨order, removed, shown, front⟩ := stack
  obtain ⟨otherOrder, otherRemoved, otherShown, otherFront⟩ := other
  have flags : otherShown = shown :=
    funext fun card => Except.ok.inj ((again.shown card).symm.trans (read.shown card))
  cases Except.ok.inj (again.order.symm.trans read.order)
  cases Except.ok.inj (again.removed.symm.trans read.removed)
  cases flags
  cases again.front.trans read.front.symm
  rfl

theorem ReadFrom.insert_version (read : stack.ReadFrom record) (stamp : Value) :
    stack.ReadFrom (record.insert versionKey stamp) :=
  read.congr fun _ apart => (Entry.present?_insert record stamp apart :)

end Records

end Stack

section Stamps

variable {record : Record} {stamp dated : Version} {outcome other : Outcome} {field : Field}

theorem detect_insert (chain : Chain) (record : Record) (stamp : Version) :
    chain.detect (record.insert versionKey (.ofNat stamp.toNat)) = .ok stamp := by
  have found : (record.insert versionKey (.ofNat stamp.toNat)).present? versionKey =
      some (.ofNat stamp.toNat) := by
    rw [Record.present?_insert, if_pos rfl]
    rfl
  exact (Chain.detect_of_present found).mpr rfl

theorem holds_insert_version {entry : Entry} (apart : entry ≠ .version) (stamp : Value) :
    entry.holds (record.insert versionKey stamp) = entry.holds record :=
  Entry.holds_congr (Entry.present?_insert record stamp apart :)

theorem run_of_fits (fits : ∀ entry : Entry, entry.holds record = true) :
    ∃ outcome, widgetStack.run record = .ok outcome := by
  cases ran : widgetStack.run record with
  | ok outcome => exact ⟨outcome, rfl⟩
  | error fault =>
    obtain ⟨entry, -, -, unfit⟩ := run_error ran
    cases (fits entry).symm.trans unfit

theorem run_insert_version (fits : ∀ entry : Entry, entry ≠ .version → entry.holds record = true)
    (stamp : Version) :
    ∃ outcome, widgetStack.run (record.insert versionKey (.ofNat stamp.toNat)) = .ok outcome := by
  apply run_of_fits
  intro entry
  by_cases version : entry = .version
  · rw [version]
    exact (widgetStack.detect_guards _).ok stamp (detect_insert widgetStack record stamp)
  · rw [holds_insert_version version]
    exact fits entry version

theorem value_eq_of_run (ran : widgetStack.run record = .ok outcome) (order : field ≠ .stackOrder)
    (removed : field ≠ .removed) :
    outcome.settings.value field =
      (record.present? field.key).getD (Settings.default.value field) := by
  rcases run_values ran order removed with present | ⟨absent, default⟩
  · rw [present, Option.getD_some]
  · rw [absent, default, Option.getD_none]

theorem agree_of_value {settings : Settings}
    (same : settings.value field = outcome.settings.value field) (order : field ≠ .stackOrder)
    (removed : field ≠ .removed) : Settings.Agree outcome.settings settings field := by
  cases field with
  | flag flag => exact Value.boolean.inj same
  | clockFormat =>
    have text := congrArg ClockFormat.parse? (Value.string.inj same)
    rw [Settings.parse?_text, Settings.parse?_text] at text
    exact Option.some.inj text
  | stackOrder => exact absurd rfl order
  | removed => exact absurd rfl removed

theorem settings_insert_version (unstamped : record.present? versionKey = none)
    (early : stamp ≤ widgetStack.date record) (ran : widgetStack.run record = .ok outcome)
    (again : widgetStack.run (record.insert versionKey (.ofNat stamp.toNat)) = .ok other) :
    other.settings = outcome.settings := by
  obtain ⟨stack, read, detected, order, removed, -⟩ := Stack.migrated_of_run ran
  obtain ⟨second, reread, redetected, reorder, reremoved, -⟩ := Stack.migrated_of_run again
  obtain rfl := (read.insert_version _).unique reread
  have late : widgetStack.date record = outcome.dated := by
    rw [Chain.detect, unstamped] at detected
    exact Except.ok.inj detected
  have stamped : other.dated = stamp :=
    Except.ok.inj (redetected.symm.trans (detect_insert widgetStack record stamp))
  have same := Stack.settled_migrated (read.upTo late) (late ▸ early)
  apply Settings.eq_of_agree
  intro field
  by_cases ordered : field = .stackOrder
  · subst ordered
    have lists := congrArg Stack.order same
    change other.settings.stackOrder = outcome.settings.stackOrder
    rw [reorder, order, stamped]
    exact congrArg (Option.getD · Settings.default.stackOrder) lists
  · by_cases gone : field = .removed
    · subst gone
      have lists := congrArg Stack.removed same
      change other.settings.removed = outcome.settings.removed
      rw [reremoved, removed, stamped]
      exact congrArg (Option.getD · Settings.default.removed) lists
    · apply agree_of_value _ ordered gone
      rw [value_eq_of_run ran ordered gone, value_eq_of_run again ordered gone]
      congr 1
      have apart : Entry.field field ≠ .version := by simp
      exact (Entry.present?_insert record _ apart :)

end Stamps

/-- A stamp that is not above the date of a record without one makes no difference: the record is
accepted or refused as before, and the settings are the same. -/
theorem early_stamp_changes_nothing {record : Record} {dated stamp : Version}
    (unstamped : record.present? versionKey = none)
    (detected : widgetStack.detect record = .ok dated)
    (named : Entry.front.holds record = true) (early : stamp ≤ dated) :
    ((∃ outcome, widgetStack.run (record.insert versionKey (.ofNat stamp.toNat)) = .ok outcome) ↔
      ∃ outcome, widgetStack.run record = .ok outcome) ∧
    ∀ outcome other, widgetStack.run record = .ok outcome →
      widgetStack.run (record.insert versionKey (.ofNat stamp.toNat)) = .ok other →
      other.settings = outcome.settings := by
  have date : widgetStack.date record = dated := by
    rw [Chain.detect, unstamped] at detected
    exact Except.ok.inj detected
  constructor
  · constructor
    · rintro ⟨outcome, ran⟩
      apply run_of_fits
      intro entry
      cases entry with
      | version => exact Entry.holds_absent unstamped
      | front => exact named
      | field f =>
        have apart : Entry.field f ≠ .version := by simp
        rw [← holds_insert_version apart]
        exact (run_ok ran).1 (.field f) trivial
    · rintro ⟨outcome, ran⟩
      apply run_insert_version
      intro entry apart
      cases entry with
      | version => exact absurd rfl apart
      | front => exact named
      | field f => exact (run_ok ran).1 (.field f) trivial
  · intro outcome other ran again
    exact settings_insert_version unstamped (date ▸ early) ran again

/-- A record that places every card, with a repeat, an unknown name, a card in both lists and a card
that is shown although it is removed. -/
def overlapping : Record :=
  .ofList [(versionKey, .null), ("showRewards", .boolean true), (legacyFrontKey, .string "gemini"),
    (Field.stackOrder.key, .list [.string "binance", .string "unknown", .string "binance",
      .string "together", .string "bitcoinDotCom", .string "cryptoDotCom"]),
    (Field.removed.key, .list [.string "rewards", .string "gemini", .string "binance"])]

def disentangled : Settings :=
  { Settings.default.setFlag (.widget .rewards) true with
    stackOrder := [.rewards, .binance, .together, .bitcoinDotCom, .cryptoDotCom]
    removed := [.gemini, .binance] }

theorem overlapping_redated :
    overlapping.present? versionKey = none ∧ widgetStack.detect overlapping = .ok 4 ∧
    Entry.front.holds overlapping = true ∧ (1 : Version) ≤ 4 ∧
    widgetStack.run overlapping = .ok ⟨disentangled, 4, 5, ["replace-stack-widgets"]⟩ ∧
    ∃ other, widgetStack.run (overlapping.insert versionKey (.ofNat (1 : Version).toNat)) = .ok other ∧
      other.settings = disentangled := by
  have unstamped : overlapping.present? versionKey = none := by decide +kernel
  have detected : widgetStack.detect overlapping = .ok 4 := by decide +kernel
  have named : Entry.front.holds overlapping = true := by decide +kernel
  have early : (1 : Version) ≤ 4 := by decide
  have ran : widgetStack.run overlapping =
      .ok ⟨disentangled, 4, 5, ["replace-stack-widgets"]⟩ := by decide +kernel
  obtain ⟨accepted, same⟩ := early_stamp_changes_nothing unstamped detected named early
  obtain ⟨other, again⟩ := accepted.mpr ⟨_, ran⟩
  exact ⟨unstamped, detected, named, early, ran, other, again, same _ other ran again⟩

end StartPage.Migration
