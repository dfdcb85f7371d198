import StartPage.Proofs.Migration.Acceptance

/-!
What the page's chain makes of the two lists. Of a record the steps see only its `Stack`: the
lists, which cards are shown, and the card that the retired key names. Each step does to the stack
of its record one thing, so the whole run is a composition of at most four of them, and has a
closed form: the arrangement that the record came with stays the end of the stack order, and what
the steps place goes behind it.
-/
namespace StartPage.Migration

/-- What the steps see of a record. A list is `none` where the record has none. -/
structure Stack where
  order : Option (List Widget)
  removed : Option (List Widget)
  shown : Widget → Bool
  /-- The known card that the retired key names. -/
  front : Option Widget

namespace Stack

variable {stack : Stack} {record after : Record} {dated : Version} {card : Widget}

structure ReadFrom (stack : Stack) (record : Record) : Prop where
  order : record.widgets? Field.stackOrder.key = .ok stack.order
  removed : record.widgets? Field.removed.key = .ok stack.removed
  shown : ∀ card, isShown record card = .ok (stack.shown card)
  front : stack.front =
    (record.present? legacyFrontKey).bind fun value => value.text?.bind Widget.ofName?

def cards (stack : Stack) : List Widget := stack.order.getD []

def gone (stack : Stack) : List Widget := stack.removed.getD []

theorem cards_eq {order : List Widget} (present : stack.order = some order) :
    stack.cards = order := by
  rw [cards, present, Option.getD_some]

theorem gone_eq {removed : List Widget} (present : stack.removed = some removed) :
    stack.gone = removed := by
  rw [gone, present, Option.getD_some]

def withLists (stack : Stack) (order removed : List Widget) : Stack :=
  { stack with order := some order, removed := some removed }

/-- The order of a stack from before there was one: shown cards, and the front card on top. -/
def flatOrder (stack : Stack) : List Widget :=
  (Widget.all.filter fun card => stack.shown card && some card ≠ stack.front) ++ stack.front.toList

def unplaced (stack : Stack) : List Widget :=
  Widget.all.filter fun card => !isPlaced stack.cards stack.gone card

def restored (stack : Stack) : List Widget :=
  stack.gone.filter fun card => stack.shown card && !stack.cards.contains card

def built (stack : Stack) : Stack :=
  { stack with order := some (stack.order.getD stack.flatOrder), front := none }

def introduced (stack : Stack) : Stack := stack.withLists stack.cards stack.gone

def filled (stack : Stack) : Stack := stack.withLists (stack.unplaced ++ stack.cards) stack.gone

def replaced (stack : Stack) : Stack :=
  stack.withLists (stack.restored ++ stack.cards) (stack.gone.filter fun card => !stack.shown card)

def advance (stack : Stack) (version : Version) : Stack :=
  if version = 2 then stack.built
  else if version = 3 then stack.introduced
  else if version = 4 then stack.filled
  else stack.replaced

def migrated (stack : Stack) (dated : Version) : Stack :=
  (widgetStack.newer dated).foldl (fun stack step => stack.advance step.version) stack

section Distinctness

theorem ReadFrom.nodup_cards (read : stack.ReadFrom record) : stack.cards.Nodup :=
  Settings.getD_widgets?_nodup read.order .nil

theorem ReadFrom.nodup_gone (read : stack.ReadFrom record) : stack.gone.Nodup :=
  Settings.getD_widgets?_nodup read.removed .nil

theorem nodup_all : Widget.all.Nodup := by decide

theorem nodup_flatOrder (stack : Stack) : stack.flatOrder.Nodup := by
  rw [flatOrder, List.nodup_append]
  refine ⟨nodup_all.filter _, ?_, ?_⟩
  · cases stack.front with
    | none => exact .nil
    | some front => exact List.nodup_singleton front
  · intro card behind other front
    have seen := (List.mem_filter.mp behind).2
    have apart : some card ≠ stack.front := of_decide_eq_true (Bool.and_eq_true_iff.mp seen).2
    rintro rfl
    exact apart (Option.mem_toList.mp front).symm

theorem nodup_filled (cards : stack.cards.Nodup) : (stack.unplaced ++ stack.cards).Nodup := by
  rw [List.nodup_append]
  refine ⟨nodup_all.filter _, cards, ?_⟩
  rintro card missing other placed rfl
  have absent := (List.mem_filter.mp missing).2
  simp [isPlaced, placed] at absent

theorem nodup_replaced (cards : stack.cards.Nodup) (gone : stack.gone.Nodup) :
    (stack.restored ++ stack.cards).Nodup := by
  rw [List.nodup_append]
  refine ⟨gone.filter _, cards, ?_⟩
  rintro card missing other placed rfl
  have absent := (List.mem_filter.mp missing).2
  simp [placed] at absent

end Distinctness

section Reading

theorem widgets?_congr {key : String} (same : after.present? key = record.present? key) :
    after.widgets? key = record.widgets? key := by
  rw [Record.widgets?, same, Record.widgets?]

theorem isShown_congr (same : after.present? card.showKey = record.present? card.showKey) :
    isShown after card = isShown record card := by
  rw [isShown, Record.flag?, same, isShown, Record.flag?]

theorem widgets?_distinct {key : String} {cards : List Widget} (distinct : cards.Nodup)
    (found : record.present? key = some (widgetList cards)) :
    record.widgets? key = .ok (some cards) := by
  rw [Settings.widgets?_widgetList found, eraseDups_of_nodup distinct]

theorem ReadFrom.stackOrder (read : stack.ReadFrom record) :
    stackOrder record = .ok stack.cards := by
  rw [Migration.stackOrder, read.order]
  rfl

theorem ReadFrom.removedCards (read : stack.ReadFrom record) :
    removedCards record = .ok stack.gone := by
  rw [Migration.removedCards, read.removed]
  rfl

/-- The lists that a step reads off the record are those of the stack. -/
structure ListedIn (stack : Stack) (record : Record) : Prop where
  order : Migration.stackOrder record = .ok stack.cards
  removed : Migration.removedCards record = .ok stack.gone

def storedIn (stack : Stack) (record : Record) : Record :=
  Migration.withLists record stack.cards stack.gone

theorem ReadFrom.listed (read : stack.ReadFrom record) : stack.ListedIn record :=
  ⟨read.stackOrder, read.removedCards⟩

theorem shownAmong_eq {cards : List Widget}
    (flagged : ∀ card ∈ cards, isShown record card = .ok (stack.shown card)) :
    shownAmong record cards = .ok (cards.filter stack.shown) := by
  induction cards with
  | nil => rfl
  | cons card rest ih =>
    obtain ⟨first, others⟩ := List.forall_mem_cons.mp flagged
    rw [Migration.shownAmong, first, ih others, List.filter_cons]
    rfl

theorem ReadFrom.shownAmong (read : stack.ReadFrom record) (cards : List Widget) :
    shownAmong record cards = .ok (cards.filter stack.shown) :=
  shownAmong_eq fun card _ => read.shown card

theorem ReadFrom.hasStackOrder (read : stack.ReadFrom record) :
    hasStackOrder record = stack.order.isSome :=
  Record.isSome_of_widgets? read.order

theorem ReadFrom.hasRemoved (read : stack.ReadFrom record) :
    hasRemoved record = stack.removed.isSome :=
  Record.isSome_of_widgets? read.removed

theorem ReadFrom.legacyFront {front : Option Widget} (read : stack.ReadFrom record)
    (named : legacyFront record = .ok front) : front = stack.front := by
  rw [read.front]
  rw [Migration.legacyFront] at named
  split at named
  case h_1 absent =>
    rw [absent, ← Except.ok.inj named]
    rfl
  case h_2 name present =>
    rw [present, ← Except.ok.inj named]
    rfl
  case h_3 => cases named

end Reading

section Edits

variable {order removed : List Widget}

theorem front_congr {front : Option Widget}
    (same : after.present? legacyFrontKey = record.present? legacyFrontKey)
    (named : front =
      (record.present? legacyFrontKey).bind fun value => value.text?.bind Widget.ofName?) :
    front = (after.present? legacyFrontKey).bind fun value => value.text?.bind Widget.ofName? := by
  rw [same]
  exact named

theorem ReadFrom.insert_order (read : stack.ReadFrom record) (distinct : order.Nodup) :
    ReadFrom { stack with order := some order }
      (record.insert Field.stackOrder.key (widgetList order)) :=
  have other : ∀ entry : Entry, entry ≠ .field .stackOrder →
      (record.insert Field.stackOrder.key (widgetList order)).present? entry.key =
        record.present? entry.key := fun _ apart => Entry.present?_insert record _ apart
  { order := by
      apply widgets?_distinct distinct
      rw [Record.present?_insert, if_pos rfl]
      rfl
    removed := (widgets?_congr (other (.field .removed) nofun)).trans read.removed
    shown := fun card =>
      (isShown_congr (other (.field (.flag (.widget card))) nofun)).trans (read.shown card)
    front := front_congr (other .front nofun) read.front }

theorem ReadFrom.insert_removed (read : stack.ReadFrom record) (distinct : removed.Nodup) :
    ReadFrom { stack with removed := some removed }
      (record.insert Field.removed.key (widgetList removed)) :=
  have other : ∀ entry : Entry, entry ≠ .field .removed →
      (record.insert Field.removed.key (widgetList removed)).present? entry.key =
        record.present? entry.key := fun _ apart => Entry.present?_insert record _ apart
  { order := (widgets?_congr (other (.field .stackOrder) nofun)).trans read.order
    removed := by
      apply widgets?_distinct distinct
      rw [Record.present?_insert, if_pos rfl]
      rfl
    shown := fun card =>
      (isShown_congr (other (.field (.flag (.widget card))) nofun)).trans (read.shown card)
    front := front_congr (other .front nofun) read.front }

theorem ReadFrom.withLists (read : stack.ReadFrom record) (orderly : order.Nodup)
    (removable : removed.Nodup) :
    (stack.withLists order removed).ReadFrom (Migration.withLists record order removed) :=
  (read.insert_order orderly).insert_removed removable

theorem ReadFrom.erase_front (read : stack.ReadFrom record) :
    ReadFrom { stack with front := none } (record.erase legacyFrontKey) :=
  have other : ∀ entry : Entry, entry ≠ .front →
      (record.erase legacyFrontKey).present? entry.key = record.present? entry.key :=
    fun _ apart => Entry.present?_erase record apart
  { order := (widgets?_congr (other (.field .stackOrder) nofun)).trans read.order
    removed := (widgets?_congr (other (.field .removed) nofun)).trans read.removed
    shown := fun card =>
      (isShown_congr (other (.field (.flag (.widget card))) nofun)).trans (read.shown card)
    front := by
      rw [Record.present?_erase, if_pos rfl]
      rfl }

theorem ReadFrom.congr (read : stack.ReadFrom record)
    (same : ∀ entry : Entry, entry ≠ .version →
      after.present? entry.key = record.present? entry.key) : stack.ReadFrom after where
  order := (widgets?_congr (same (.field .stackOrder) nofun)).trans read.order
  removed := (widgets?_congr (same (.field .removed) nofun)).trans read.removed
  shown card :=
    (isShown_congr (same (.field (.flag (.widget card))) nofun)).trans (read.shown card)
  front := front_congr (same .front nofun) read.front

theorem ReadFrom.erase_version (read : stack.ReadFrom record) :
    stack.ReadFrom (record.erase versionKey) :=
  read.congr fun _ apart => (Entry.present?_erase record apart :)

end Edits

section Steps

theorem ReadFrom.arrange (read : stack.ReadFrom record)
    (ran : arrange record stack.front = .ok after) :
    ReadFrom { stack with order := some (stack.order.getD stack.flatOrder) } after := by
  rw [Migration.arrange, read.hasStackOrder] at ran
  cases present : stack.order with
  | some order =>
    rw [present] at ran
    cases ran
    rw [Option.getD_some, ← present]
    exact read
  | none =>
    rw [present] at ran
    obtain ⟨behind, shown, ran⟩ := bind_ok ran
    rw [read.shownAmong, List.filter_filter] at shown
    cases shown
    cases ran
    exact read.insert_order stack.nodup_flatOrder

theorem ReadFrom.buildStackOrder (read : stack.ReadFrom record)
    (ran : buildStackOrder record = .ok after) : stack.built.ReadFrom after := by
  rw [Migration.buildStackOrder] at ran
  obtain ⟨front, named, ran⟩ := bind_ok ran
  obtain ⟨arranged, ordered, ran⟩ := bind_ok ran
  cases ran
  rw [read.legacyFront named] at ordered
  exact (read.arrange ordered).erase_front

theorem ListedIn.introduceRemoved (listed : stack.ListedIn record) :
    introduceRemoved record = .ok (stack.introduced.storedIn record) := by
  rw [Migration.introduceRemoved, listed.order, listed.removed]
  rfl

theorem ListedIn.addNewCards (listed : stack.ListedIn record) :
    addNewCards record = .ok (stack.filled.storedIn record) := by
  rw [Migration.addNewCards, listed.order, listed.removed]
  rfl

theorem contains_shown (removed : card ∈ stack.gone) :
    (stack.gone.filter stack.shown).contains card = stack.shown card := by
  rw [List.contains_eq_mem, Bool.eq_iff_iff]
  simp [List.mem_filter, removed]

theorem ListedIn.replaceCards (listed : stack.ListedIn record)
    (flagged : ∀ card ∈ stack.gone, isShown record card = .ok (stack.shown card)) :
    replaceCards record = .ok (stack.replaced.storedIn record) := by
  have restored : ((stack.gone.filter stack.shown).filter fun card => !stack.cards.contains card) =
      stack.restored := by
    rw [List.filter_filter, Stack.restored]
    exact List.filter_congr fun card _ => Bool.and_comm _ _
  have left : (stack.gone.filter fun card => !(stack.gone.filter stack.shown).contains card) =
      stack.gone.filter fun card => !stack.shown card :=
    List.filter_congr fun card removed => congrArg _ (contains_shown removed)
  have written : Migration.replaceCards record = .ok (Migration.withLists record
      (((stack.gone.filter stack.shown).filter fun card => !stack.cards.contains card) ++
        stack.cards)
      (stack.gone.filter fun card => !(stack.gone.filter stack.shown).contains card)) := by
    rw [Migration.replaceCards, listed.order, listed.removed]
    simp only [bind, Except.bind, shownAmong_eq flagged]
    rfl
  rw [written, restored, left]
  rfl

theorem ReadFrom.introduceRemoved (read : stack.ReadFrom record)
    (ran : introduceRemoved record = .ok after) : stack.introduced.ReadFrom after := by
  rw [read.listed.introduceRemoved] at ran
  cases ran
  exact read.withLists read.nodup_cards read.nodup_gone

theorem ReadFrom.addNewCards (read : stack.ReadFrom record)
    (ran : addNewCards record = .ok after) : stack.filled.ReadFrom after := by
  rw [read.listed.addNewCards] at ran
  cases ran
  exact read.withLists (nodup_filled read.nodup_cards) read.nodup_gone

theorem ReadFrom.replaceCards (read : stack.ReadFrom record)
    (ran : replaceCards record = .ok after) : stack.replaced.ReadFrom after := by
  rw [read.listed.replaceCards fun card _ => read.shown card] at ran
  cases ran
  exact read.withLists (nodup_replaced read.nodup_cards read.nodup_gone)
    (read.nodup_gone.filter _)

theorem ReadFrom.advance {step : Step} (member : step ∈ widgetStackSteps)
    (read : stack.ReadFrom record) (ran : step.apply record = .ok after) :
    (stack.advance step.version).ReadFrom after := by
  rcases step_cases member with same | same | same | same
  · rw [same.version]
    exact read.buildStackOrder (same.apply ▸ ran)
  · rw [same.version]
    exact read.introduceRemoved (same.apply ▸ ran)
  · rw [same.version]
    exact read.addNewCards (same.apply ▸ ran)
  · rw [same.version]
    exact read.replaceCards (same.apply ▸ ran)

theorem ReadFrom.foldl {steps : List Step} (known : ∀ step ∈ steps, step ∈ widgetStackSteps)
    (read : stack.ReadFrom record)
    (ran : steps.foldlM (fun record step => step.apply record) record = .ok after) :
    (steps.foldl (fun stack step => stack.advance step.version) stack).ReadFrom after := by
  induction steps generalizing stack record with
  | nil =>
    cases ran
    exact read
  | cons first rest ih =>
    obtain ⟨own, others⟩ := List.forall_mem_cons.mp known
    rw [List.foldlM_cons] at ran
    obtain ⟨next, stepped, ran⟩ := bind_ok ran
    exact ih others (read.advance own stepped) ran

end Steps

section Composition

/-- The arrangement that the record came with. -/
def arrangement (stack : Stack) (dated : Version) : List Widget :=
  stack.order.getD <|
    if dated < 2 then stack.flatOrder
    else if dated < 5 then []
    else Settings.default.stackOrder

def opened (stack : Stack) (dated : Version) : Stack :=
  let ordered := if dated < 2 then stack.built else stack
  if dated < 3 then ordered.introduced else ordered

theorem cards_opened (early : dated < 5) : (stack.opened dated).cards = stack.arrangement dated := by
  have ordered : (stack.opened dated).cards = (if dated < 2 then stack.built else stack).cards := by
    rw [opened]
    by_cases unlisted : dated < 3
    · rw [if_pos unlisted]
      rfl
    · rw [if_neg unlisted]
  rw [ordered, arrangement]
  by_cases flat : dated < 2
  · rw [if_pos flat, if_pos flat]
    rfl
  · rw [if_neg flat, if_neg flat, if_pos early]
    rfl

theorem gone_opened : (stack.opened dated).gone = stack.gone := by
  rw [opened]
  by_cases flat : dated < 2 <;> by_cases unlisted : dated < 3 <;> simp only [flat, unlisted] <;> rfl

theorem shown_opened : (stack.opened dated).shown = stack.shown := by
  rw [opened]
  by_cases flat : dated < 2 <;> by_cases unlisted : dated < 3 <;> simp only [flat, unlisted] <;> rfl

theorem migrated_eq (stack : Stack) (dated : Version) : stack.migrated dated =
    let placed := if dated < 4 then (stack.opened dated).filled else stack.opened dated
    if dated < 5 then placed.replaced else placed := by
  rw [migrated, Chain.newer, List.foldl_filter]
  simp only [decide_eq_true_eq]
  rfl

theorem restored_filled (stack : Stack) : stack.filled.restored = stack.restored := by
  apply List.filter_congr
  intro card removed
  have placed : card ∉ stack.unplaced := by
    intro missing
    have absent := (List.mem_filter.mp missing).2
    have gone : card ∈ stack.gone := removed
    simp [isPlaced, gone] at absent
  simp [filled, withLists, cards, placed]

theorem shown_migrated : (stack.migrated dated).shown = stack.shown := by
  rw [migrated_eq]
  by_cases unfilled : dated < 4 <;> by_cases early : dated < 5 <;> simp only [unfilled, early] <;>
    exact shown_opened

theorem migrated_late (late : ¬dated < 5) : stack.migrated dated = stack := by
  have filled : ¬dated < 4 := fun early => late (UInt32.lt_trans early (by decide))
  have listed : ¬dated < 3 := fun early => late (UInt32.lt_trans early (by decide))
  have ordered : ¬dated < 2 := fun early => late (UInt32.lt_trans early (by decide))
  simp only [migrated_eq, opened, if_neg late, if_neg filled, if_neg listed, if_neg ordered]

/-- The lists after all steps above a version that has some: restored cards at the back, then new
ones, then the arrangement that was there. -/
theorem migrated_early (early : dated < 5) :
    (stack.migrated dated).order = some (
        (stack.gone.filter fun card =>
          stack.shown card && !(stack.arrangement dated).contains card) ++
        (if dated < 4 then
          Widget.all.filter fun card => !isPlaced (stack.arrangement dated) stack.gone card
        else []) ++ stack.arrangement dated) ∧
      (stack.migrated dated).removed = some (stack.gone.filter fun card => !stack.shown card) := by
  have restored : (stack.opened dated).restored = stack.gone.filter fun card =>
      stack.shown card && !(stack.arrangement dated).contains card := by
    rw [Stack.restored, cards_opened early, gone_opened, shown_opened]
  have unplaced : (stack.opened dated).unplaced =
      Widget.all.filter fun card => !isPlaced (stack.arrangement dated) stack.gone card := by
    rw [Stack.unplaced, cards_opened early, gone_opened]
  have left : ((stack.opened dated).gone.filter fun card => !(stack.opened dated).shown card) =
      stack.gone.filter fun card => !stack.shown card := by
    rw [gone_opened, shown_opened]
  rw [migrated_eq]
  by_cases unfilled : dated < 4
  · simp only [if_pos early, if_pos unfilled]
    constructor
    · calc (stack.opened dated).filled.replaced.order
        _ = some ((stack.opened dated).filled.restored ++
            ((stack.opened dated).unplaced ++ (stack.opened dated).cards)) := rfl
        _ = _ := by
          rw [restored_filled, restored, unplaced, cards_opened early, List.append_assoc]
    · exact congrArg some left
  · simp only [if_pos early, if_neg unfilled]
    constructor
    · calc (stack.opened dated).replaced.order
        _ = some ((stack.opened dated).restored ++ (stack.opened dated).cards) := rfl
        _ = _ := by rw [restored, cards_opened early, List.append_nil]
    · exact congrArg some left

end Composition

section Runs

variable {outcome : Outcome}

theorem exists_readFrom (order : (Field.stackOrder).holds record = true)
    (removed : (Field.removed).holds record = true)
    (flags : ∀ card, (Field.flag (.widget card)).holds record = true) :
    ∃ stack : Stack, stack.ReadFrom record := by
  obtain ⟨ordered, first⟩ := (record.widgets?_guards Field.stackOrder.key).ok_of_fits order
  obtain ⟨gone, second⟩ := (record.widgets?_guards Field.removed.key).ok_of_fits removed
  have shown : ∀ card, ∃ shown, isShown record card = .ok shown :=
    fun card => (isShown_guards record card).ok_of_fits (flags card)
  choose shown flagged using shown
  exact ⟨⟨ordered, gone, shown, _⟩, first, second, flagged, rfl⟩

theorem ReadFrom.typed (read : stack.ReadFrom record) :
    record.typed.stackOrder = stack.order.getD Settings.default.stackOrder ∧
      record.typed.removed = stack.removed.getD Settings.default.removed ∧
      ∀ card, record.typed.isShown card = stack.shown card := by
  refine ⟨Record.typed_stackOrder read.order, Record.typed_removed read.removed, ?_⟩
  intro card
  have flagged := read.shown card
  rw [Migration.isShown] at flagged
  obtain ⟨found, flag, shown⟩ := bind_ok flagged
  have typed : record.typed.flag (.widget card) = found.getD false := Record.typed_flag flag
  exact typed.trans (Except.ok.inj shown)

theorem migrated_of_run (ran : widgetStack.run record = .ok outcome) :
    ∃ stack : Stack, stack.ReadFrom record ∧
      widgetStack.detect record = .ok outcome.dated ∧
      outcome.settings.stackOrder =
        (stack.migrated outcome.dated).order.getD Settings.default.stackOrder ∧
      outcome.settings.removed =
        (stack.migrated outcome.dated).removed.getD Settings.default.removed ∧
      ∀ card, outcome.settings.isShown card = (stack.migrated outcome.dated).shown card := by
  have sound : ∀ field : Field, field.holds record = true :=
    fun field => (run_ok ran).1 (.field field) trivial
  obtain ⟨stack, read⟩ := exists_readFrom (sound _) (sound _) fun card => sound _
  obtain ⟨dated, after, settings, detected, applied, typed, rfl⟩ := Chain.run_eq_ok_iff.mp ran
  obtain ⟨-, rfl⟩ := Settings.ofRecord_eq_ok_iff.mp typed
  have known : ∀ step ∈ widgetStack.newer dated, step ∈ widgetStackSteps :=
    fun step member => (List.mem_filter.mp member).1
  have migrated : (stack.migrated dated).ReadFrom after := read.foldl known applied
  exact ⟨stack, read, detected, migrated.erase_version.typed⟩

end Runs

end Stack

/-- What a run makes of the two lists, in terms of what it reads off the record. -/
theorem arrangement_ends_stack_order {record : Record} {outcome : Outcome}
    (ran : widgetStack.run record = .ok outcome) :
    widgetStack.detect record = .ok outcome.dated ∧
    ∃ stack : Stack, stack.ReadFrom record ∧
      (outcome.dated < 5 →
        outcome.settings.removed = (stack.gone.filter fun card => !stack.shown card) ∧
        outcome.settings.stackOrder =
          (stack.gone.filter fun card =>
            stack.shown card && !(stack.arrangement outcome.dated).contains card) ++
          (if outcome.dated < 4 then
            Widget.all.filter fun card =>
              !isPlaced (stack.arrangement outcome.dated) stack.gone card
          else []) ++ stack.arrangement outcome.dated) ∧
      (5 ≤ outcome.dated →
        outcome.settings.stackOrder = stack.order.getD Settings.default.stackOrder ∧
        outcome.settings.removed = stack.removed.getD Settings.default.removed) ∧
      stack.arrangement outcome.dated <:+ outcome.settings.stackOrder := by
  obtain ⟨stack, read, detected, order, removed, -⟩ := Stack.migrated_of_run ran
  refine ⟨detected, stack, read, ?_⟩
  by_cases early : outcome.dated < 5
  · obtain ⟨ordered, left⟩ := Stack.migrated_early early
    rw [ordered, Option.getD_some] at order
    rw [left, Option.getD_some] at removed
    refine ⟨fun _ => ⟨removed, order⟩, fun late => absurd early (UInt32.not_lt.mpr late), ?_⟩
    rw [order]
    exact List.suffix_append _ _
  · rw [Stack.migrated_late early] at order removed
    refine ⟨fun again => absurd again early, fun _ => ⟨order, removed⟩, ?_⟩
    have flat : ¬outcome.dated < 2 := fun flat => early (UInt32.lt_trans flat (by decide))
    have same : stack.arrangement outcome.dated = outcome.settings.stackOrder := by
      rw [order, Stack.arrangement, if_neg flat, if_neg early]
    exact same ▸ List.suffix_rfl

/-- A record of version 3 with an unknown name, a repeat, and cards in both lists. -/
def crowded : Record :=
  .ofList [(versionKey, .ofNat 3), ("showRewards", .boolean true), ("showGemini", .boolean true),
    (Field.stackOrder.key, .list [.string "gemini", .string "unknown", .string "gemini"]),
    (Field.removed.key, .list [.string "binance", .string "rewards", .string "gemini"])]

def uncrowded : Settings :=
  { (Settings.default.setFlag (.widget .rewards) true).setFlag (.widget .gemini) true with
    stackOrder := [.rewards, .together, .bitcoinDotCom, .cryptoDotCom, .gemini]
    removed := [.binance] }

def bare : Record := .ofList [(versionKey, .ofNat 5)]

theorem crowded_lists_migrated :
    widgetStack.run crowded =
      .ok ⟨uncrowded, 3, 5, ["add-new-stack-widgets", "replace-stack-widgets"]⟩ ∧
    (∃ stack : Stack, stack.ReadFrom crowded ∧
      [.binance] = (stack.gone.filter fun card => !stack.shown card) ∧
      stack.arrangement 3 <:+ [.rewards, .together, .bitcoinDotCom, .cryptoDotCom, .gemini]) ∧
    widgetStack.run bare = .ok ⟨Settings.default, 5, 5, []⟩ ∧
    ∃ stack : Stack, stack.ReadFrom bare ∧
      Widget.all = stack.order.getD Settings.default.stackOrder := by
  have migrated : widgetStack.run crowded =
      .ok ⟨uncrowded, 3, 5, ["add-new-stack-widgets", "replace-stack-widgets"]⟩ := by
    decide +kernel
  have settled : widgetStack.run bare = .ok ⟨Settings.default, 5, 5, []⟩ := by decide +kernel
  obtain ⟨-, stack, read, early, -, last⟩ := arrangement_ends_stack_order migrated
  obtain ⟨-, untouched, again, -, late, -⟩ := arrangement_ends_stack_order settled
  exact ⟨migrated, ⟨stack, read, (early (by decide)).1, last⟩, settled, untouched, again,
    (late (by decide)).1⟩

end StartPage.Migration
