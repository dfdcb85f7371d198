import StartPage.Proofs.Migration.Arrangement

/-!
What a load does not see. The probes and the steps of the page's chain, and the reader of settings,
look at a record through `Record.present?`, and under the keys of `Entry` only. Two records that
hold the same there, a null counting as nothing, are dated alike; every step leaves them alike, or
fails on both with one fault; so a run gives the same for both. Step for step, this compares two
runs.
-/
namespace StartPage.Migration

/-- The records hold the same under every key that is read, a null counting as nothing. -/
def Alike (first second : Record) : Prop :=
  ∀ entry : Entry, first.present? entry.key = second.present? entry.key

/-- Two changes ended alike: in records that are alike, or in one fault. -/
inductive Matching : Except CorruptField Record → Except CorruptField Record → Prop where
  | worked {first second : Record} (alike : Alike first second) : Matching (.ok first) (.ok second)
  | failed (fault : CorruptField) : Matching (.error fault) (.error fault)

namespace Matching

variable {ran other : Except CorruptField Record}

theorem look {α : Type} {found seen : Except CorruptField α}
    {next further : α → Except CorruptField Record} (same : found = seen)
    (goesOn : ∀ value, Matching (next value) (further value)) :
    Matching (found >>= next) (seen >>= further) := by
  subst same
  cases found with
  | error fault => exact .failed fault
  | ok value => exact goesOn value

theorem andThen {next further : Record → Except CorruptField Record} (matching : Matching ran other)
    (goesOn : ∀ {first second}, Alike first second → Matching (next first) (further second)) :
    Matching (ran >>= next) (other >>= further) := by
  cases matching with
  | worked alike => exact goesOn alike
  | failed fault => exact .failed fault

theorem bind_eq {α : Type} {next : Record → Except CorruptField α} (matching : Matching ran other)
    (same : ∀ {first second}, Alike first second → next first = next second) :
    ran >>= next = other >>= next := by
  cases matching with
  | worked alike => exact same alike
  | failed => rfl

end Matching

namespace Alike

variable {first second : Record}

section Edits

theorem insert (alike : Alike first second) (key : String) (value : Value) :
    Alike (first.insert key value) (second.insert key value) := by
  intro entry
  rw [Record.present?_insert, Record.present?_insert, alike entry]

theorem erase (alike : Alike first second) (key : String) :
    Alike (first.erase key) (second.erase key) := by
  intro entry
  rw [Record.present?_erase, Record.present?_erase, alike entry]

theorem withLists (alike : Alike first second) (order removed : List Widget) :
    Alike (withLists first order removed) (withLists second order removed) :=
  (alike.insert _ _).insert _ _

end Edits

section Readers

theorem isShown (alike : Alike first second) (card : Widget) :
    isShown first card = isShown second card :=
  Stack.isShown_congr (alike (.field (.flag (.widget card))))

theorem shownAmong (alike : Alike first second) (cards : List Widget) :
    shownAmong first cards = shownAmong second cards := by
  induction cards with
  | nil => rfl
  | cons card rest ih => rw [Migration.shownAmong, Migration.shownAmong, alike.isShown, ih]

theorem widgets? (alike : Alike first second) (field : Field) :
    first.widgets? field.key = second.widgets? field.key :=
  Stack.widgets?_congr (alike (.field field))

theorem stackOrder (alike : Alike first second) : stackOrder first = stackOrder second := by
  rw [Migration.stackOrder, alike.widgets?, Migration.stackOrder]

theorem removedCards (alike : Alike first second) : removedCards first = removedCards second := by
  rw [Migration.removedCards, alike.widgets?, Migration.removedCards]

theorem legacyFront (alike : Alike first second) : legacyFront first = legacyFront second := by
  have same : first.present? legacyFrontKey = second.present? legacyFrontKey := alike .front
  rw [Migration.legacyFront, same, Migration.legacyFront]

theorem hasStackOrder (alike : Alike first second) :
    hasStackOrder first = hasStackOrder second :=
  congrArg Option.isSome (alike (.field .stackOrder))

theorem hasRemoved (alike : Alike first second) : hasRemoved first = hasRemoved second :=
  congrArg Option.isSome (alike (.field .removed))

theorem everyCardPlaced (alike : Alike first second) :
    everyCardPlaced first = everyCardPlaced second := by
  rw [Migration.everyCardPlaced, alike.stackOrder, alike.removedCards, Migration.everyCardPlaced]

theorem noShownCardRemoved (alike : Alike first second) :
    noShownCardRemoved first = noShownCardRemoved second := by
  simp only [Migration.noShownCardRemoved, alike.stackOrder, alike.removedCards, alike.isShown]

theorem readField (alike : Alike first second) (settings : Settings) (field : Field) :
    Settings.readField first settings field = Settings.readField second settings field := by
  have same : first.present? field.key = second.present? field.key := alike (.field field)
  cases field with
  | flag flag =>
    have same : first.present? flag.key = second.present? flag.key := same
    rw [Settings.readField, Record.flag?, same, Settings.readField, Record.flag?]
  | clockFormat =>
    rw [Settings.readField, Record.clockFormat?, same, Settings.readField, Record.clockFormat?]
  | stackOrder | removed => rw [Settings.readField, alike.widgets?, Settings.readField]

theorem ofRecord (alike : Alike first second) :
    Settings.ofRecord first = Settings.ofRecord second := by
  have same : Settings.readField first = Settings.readField second := by
    funext settings field
    exact alike.readField settings field
  rw [Settings.ofRecord, same, Settings.ofRecord]

end Readers

section Changes

theorem arrange (alike : Alike first second) (front : Option Widget) :
    Matching (arrange first front) (arrange second front) := by
  rw [Migration.arrange, Migration.arrange, alike.hasStackOrder]
  split
  · exact .worked alike
  · exact .look (alike.shownAmong _) fun behind => .worked (alike.insert _ _)

theorem buildStackOrder (alike : Alike first second) :
    Matching (buildStackOrder first) (buildStackOrder second) :=
  .look alike.legacyFront fun front =>
    (alike.arrange front).andThen fun arranged => .worked (arranged.erase _)

theorem introduceRemoved (alike : Alike first second) :
    Matching (introduceRemoved first) (introduceRemoved second) :=
  .look alike.stackOrder fun order => .look alike.removedCards fun removed =>
    .worked (alike.withLists order removed)

theorem addNewCards (alike : Alike first second) :
    Matching (addNewCards first) (addNewCards second) :=
  .look alike.stackOrder fun _ => .look alike.removedCards fun removed =>
    .worked (alike.withLists _ removed)

theorem replaceCards (alike : Alike first second) :
    Matching (replaceCards first) (replaceCards second) :=
  .look alike.stackOrder fun _ => .look alike.removedCards fun removed =>
    .look (alike.shownAmong removed) fun _ => .worked (alike.withLists _ _)

end Changes

end Alike

structure Step.Attentive (step : Step) : Prop where
  knows : ∀ {first second}, Alike first second → step.knows first = step.knows second
  apply : ∀ {first second}, Alike first second → Matching (step.apply first) (step.apply second)

theorem attentive_step {step : Step} (member : step ∈ widgetStackSteps) : step.Attentive := by
  rcases step_cases member with same | same | same | same
  · exact ⟨same.knows ▸ Alike.hasStackOrder, same.apply ▸ Alike.buildStackOrder⟩
  · exact ⟨same.knows ▸ Alike.hasRemoved, same.apply ▸ Alike.introduceRemoved⟩
  · exact ⟨same.knows ▸ Alike.everyCardPlaced, same.apply ▸ Alike.addNewCards⟩
  · exact ⟨same.knows ▸ Alike.noShownCardRemoved, same.apply ▸ Alike.replaceCards⟩

section Runs

variable {steps : List Step} {chain : Chain} {first second : Record}

theorem takeWhile_knows (attentive : ∀ step ∈ steps, step.Attentive) (alike : Alike first second) :
    (steps.takeWhile fun step => step.knows first) =
      steps.takeWhile fun step => step.knows second := by
  induction steps with
  | nil => rfl
  | cons step rest ih =>
    obtain ⟨own, others⟩ := List.forall_mem_cons.mp attentive
    rw [List.takeWhile_cons, List.takeWhile_cons, own.knows alike, ih others]

theorem steps_match (attentive : ∀ step ∈ steps, step.Attentive) (alike : Alike first second) :
    Matching (steps.foldlM (fun record step => step.apply record) first)
      (steps.foldlM (fun record step => step.apply record) second) := by
  induction steps generalizing first second with
  | nil => exact .worked alike
  | cons step rest ih =>
    obtain ⟨own, others⟩ := List.forall_mem_cons.mp attentive
    rw [List.foldlM_cons, List.foldlM_cons]
    exact (own.apply alike).andThen fun stepped => ih others stepped

theorem Alike.detect (alike : Alike first second)
    (attentive : ∀ step ∈ chain.steps, step.Attentive) :
    chain.detect first = chain.detect second := by
  have stamp : first.present? versionKey = second.present? versionKey := alike .version
  have dated : chain.date first = chain.date second := by
    rw [Chain.date, takeWhile_knows attentive alike, Chain.date]
  rw [Chain.detect, stamp, dated, Chain.detect]

theorem Alike.run (alike : Alike first second)
    (attentive : ∀ step ∈ chain.steps, step.Attentive) : chain.run first = chain.run second := by
  rw [Chain.run, Chain.run, alike.detect attentive]
  refine bind_congr fun dated => ?_
  have newer : ∀ step ∈ chain.newer dated, step.Attentive :=
    fun step member => attentive step (List.mem_filter.mp member).1
  exact (steps_match newer alike).bind_eq fun ended => by rw [(ended.erase versionKey).ofRecord]

end Runs

/-- What a record holds besides the stamp, the retired key and the fields, and which of these are
null instead of absent, makes no difference to its date and to what a run gives or fails with; and
a stored record holds the stamp and the fields alone. -/
theorem unknown_keys_and_nulls_are_inert {first second : Record}
    (same : ∀ key ∈ versionKey :: legacyFrontKey :: Field.all.map Field.key, ∀ value : Value,
      value.isNull = false → (first.get? key = some value ↔ second.get? key = some value)) :
    widgetStack.detect first = widgetStack.detect second ∧
    widgetStack.run first = widgetStack.run second ∧
    ∀ outcome, widgetStack.run first = .ok outcome →
      ∀ key ∈ (widgetStack.stamp outcome.settings).keys,
        key ∈ versionKey :: Field.all.map Field.key := by
  have alike : Alike first second := by
    intro entry
    have among : entry.key ∈ versionKey :: legacyFrontKey :: Field.all.map Field.key := by
      cases entry with
      | version => exact List.mem_cons_self
      | front => exact List.mem_cons_of_mem _ List.mem_cons_self
      | field field =>
        exact List.mem_cons_of_mem _ (List.mem_cons_of_mem _
          (List.mem_map_of_mem (Field.mem_all field)))
    ext value
    rw [Record.present?_eq_some_iff, Record.present?_eq_some_iff]
    exact and_congr_left (same entry.key among value)
  have attentive : ∀ step ∈ widgetStack.steps, step.Attentive := fun _ => attentive_step
  refine ⟨alike.detect attentive, alike.run attentive, ?_⟩
  intro outcome _ key member
  exact Settings.keys_toRecord.mem_iff.mp member

def swept : Record :=
  .ofList [("showRewards", .boolean true), ("showGemini", .boolean true),
    (legacyFrontKey, .string "rewards")]

def littered : Record :=
  .ofList [(versionKey, .null), ("showRewards", .boolean true), ("showGemini", .boolean true),
    (legacyFrontKey, .string "rewards"), (Field.stackOrder.key, .null),
    (Field.removed.key, .null), ("showBinance", .null), ("future", .list [.null])]

theorem litter_is_inert :
    littered.get? Field.stackOrder.key ≠ swept.get? Field.stackOrder.key ∧
    ∃ outcome, widgetStack.run swept = .ok outcome ∧ widgetStack.run littered = .ok outcome ∧
      (widgetStack.detect littered = .ok 1 ∧ outcome.settings.foreground = some .rewards) ∧
      "future" ∉ (widgetStack.stamp outcome.settings).keys := by
  have seen : ∀ key ∈ versionKey :: legacyFrontKey :: Field.all.map Field.key,
      swept.present? key = littered.present? key := by decide +kernel
  obtain ⟨dated, same, sealed⟩ := unknown_keys_and_nulls_are_inert fun key among value solid => by
    have found := congrArg (· = some value) (seen key among)
    simpa only [Record.present?_eq_some_iff, solid, and_true, eq_iff_iff] using found
  have front : (widgetStack.run swept).map (·.settings.foreground) = .ok (some .rewards) := by
    decide +kernel
  have first : widgetStack.detect swept = .ok 1 := by decide +kernel
  cases ran : widgetStack.run swept with
  | error fault =>
    rw [ran] at front
    cases front
  | ok outcome =>
    rw [ran] at front
    refine ⟨by decide +kernel, outcome, rfl, same.symm.trans ran,
      ⟨dated.symm.trans first, Except.ok.inj front⟩, fun stored => ?_⟩
    exact absurd (sealed outcome ran _ stored) (by decide +kernel)

end StartPage.Migration
