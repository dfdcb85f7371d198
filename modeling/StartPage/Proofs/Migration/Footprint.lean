import StartPage.Proofs.Migration.Chains
import StartPage.Proofs.Migration.InPlace
import StartPage.Proofs.Settings

/-!
What a step of the page's chain leaves alone. A step that fails leaves the whole record as it was; one
that succeeds writes under two keys at most, and every other key keeps its value, be it a null, the
stamp, or something that this page knows nothing of.
-/
namespace StartPage.Migration

variable {record after : Record}

section Results

/-! What each step gives, in terms of what it read. -/

variable {front : Option Widget}

theorem arrange_ok (ran : arrange record front = .ok after) :
    hasStackOrder record = true ∧ after = record ∨ hasStackOrder record = false ∧
      ∃ cards, after = record.insert Field.stackOrder.key (widgetList cards) := by
  rw [arrange] at ran
  cases ordered : hasStackOrder record with
  | true =>
    rw [ordered] at ran
    exact .inl ⟨rfl, (Except.ok.inj ran).symm⟩
  | false =>
    rw [ordered] at ran
    obtain ⟨behind, -, ran⟩ := bind_ok ran
    exact .inr ⟨rfl, behind ++ front.toList, (Except.ok.inj ran).symm⟩

theorem buildStackOrder_ok (ran : buildStackOrder record = .ok after) :
    ∃ front arranged, legacyFront record = .ok front ∧ arrange record front = .ok arranged ∧
      after = arranged.erase legacyFrontKey := by
  obtain ⟨front, named, ran⟩ := bind_ok ran
  obtain ⟨arranged, ordered, ran⟩ := bind_ok ran
  exact ⟨front, arranged, named, ordered, (Except.ok.inj ran).symm⟩

theorem introduceRemoved_ok (ran : introduceRemoved record = .ok after) :
    ∃ order removed, stackOrder record = .ok order ∧ removedCards record = .ok removed ∧
      after = withLists record order removed := by
  obtain ⟨order, ordered, ran⟩ := bind_ok ran
  obtain ⟨removed, gone, ran⟩ := bind_ok ran
  exact ⟨order, removed, ordered, gone, (Except.ok.inj ran).symm⟩

theorem addNewCards_ok (ran : addNewCards record = .ok after) :
    ∃ order removed, stackOrder record = .ok order ∧ removedCards record = .ok removed ∧
      after = withLists record
        ((Widget.all.filter fun card => !isPlaced order removed card) ++ order) removed := by
  obtain ⟨order, ordered, ran⟩ := bind_ok ran
  obtain ⟨removed, gone, ran⟩ := bind_ok ran
  exact ⟨order, removed, ordered, gone, (Except.ok.inj ran).symm⟩

theorem replaceCards_ok (ran : replaceCards record = .ok after) :
    ∃ order removed shown, stackOrder record = .ok order ∧ removedCards record = .ok removed ∧
      shownAmong record removed = .ok shown ∧
      after = withLists record ((shown.filter fun card => !order.contains card) ++ order)
        (removed.filter fun card => !shown.contains card) := by
  obtain ⟨order, ordered, ran⟩ := bind_ok ran
  obtain ⟨removed, gone, ran⟩ := bind_ok ran
  obtain ⟨shown, flagged, ran⟩ := bind_ok ran
  exact ⟨order, removed, shown, ordered, gone, flagged, (Except.ok.inj ran).symm⟩

end Results

def ownKeys (version : Version) : List String :=
  if version = 2 then [Field.stackOrder.key, legacyFrontKey]
  else [Field.stackOrder.key, Field.removed.key]

def Confined (keys : List String) (change : Record → Except CorruptField Record) : Prop :=
  ∀ {record after}, change record = .ok after → ∀ key ∉ keys, after.get? key = record.get? key

theorem get?_withLists {key : String} {order removed : List Widget}
    (other : key ∉ [Field.stackOrder.key, Field.removed.key]) :
    (withLists record order removed).get? key = record.get? key := by
  obtain ⟨notOrder, notRemoved⟩ : key ≠ Field.stackOrder.key ∧ key ≠ Field.removed.key := by
    simpa using other
  rw [withLists, Record.get?_insert, if_neg notRemoved, Record.get?_insert, if_neg notOrder]

theorem confined_buildStackOrder :
    Confined [Field.stackOrder.key, legacyFrontKey] buildStackOrder := by
  intro record after ran key other
  obtain ⟨notOrder, notFront⟩ : key ≠ Field.stackOrder.key ∧ key ≠ legacyFrontKey := by
    simpa using other
  obtain ⟨front, arranged, -, ordered, rfl⟩ := buildStackOrder_ok ran
  rw [Record.get?_erase, if_neg notFront]
  rcases arrange_ok ordered with ⟨-, rfl⟩ | ⟨-, cards, rfl⟩
  · rfl
  · rw [Record.get?_insert, if_neg notOrder]

theorem confined_introduceRemoved :
    Confined [Field.stackOrder.key, Field.removed.key] introduceRemoved := by
  intro record after ran key other
  obtain ⟨order, removed, -, -, rfl⟩ := introduceRemoved_ok ran
  exact get?_withLists other

theorem confined_addNewCards :
    Confined [Field.stackOrder.key, Field.removed.key] addNewCards := by
  intro record after ran key other
  obtain ⟨order, removed, -, -, rfl⟩ := addNewCards_ok ran
  exact get?_withLists other

theorem confined_replaceCards :
    Confined [Field.stackOrder.key, Field.removed.key] replaceCards := by
  intro record after ran key other
  obtain ⟨order, removed, shown, -, -, -, rfl⟩ := replaceCards_ok ran
  exact get?_withLists other

theorem get?_stackOrder_of_buildStackOrder (ran : buildStackOrder record = .ok after)
    (ordered : hasStackOrder record = true) :
    after.get? Field.stackOrder.key = record.get? Field.stackOrder.key := by
  obtain ⟨front, arranged, -, placed, rfl⟩ := buildStackOrder_ok ran
  rw [Record.get?_erase, if_neg (by decide)]
  rcases arrange_ok placed with ⟨-, rfl⟩ | ⟨unordered, -⟩
  · rfl
  · cases ordered.symm.trans unordered

theorem transform_atomic {step : Step} (member : step ∈ widgetStackSteps) :
    step.transform = atomic step.apply := by
  rcases step_cases member with same | same | same | same <;> rw [same.apply, same.transform]

theorem confined_step {step : Step} (member : step ∈ widgetStackSteps) :
    Confined (ownKeys step.version) step.apply := by
  rcases step_cases member with same | same | same | same
  · rw [same.version, same.apply]
    exact confined_buildStackOrder
  · rw [same.version, same.apply]
    exact confined_introduceRemoved
  · rw [same.version, same.apply]
    exact confined_addNewCards
  · rw [same.version, same.apply]
    exact confined_replaceCards

theorem get?_of_applies {steps : List Step} {key : String}
    (own : ∀ step ∈ steps, step ∈ widgetStackSteps ∧ key ∉ ownKeys step.version)
    (applied : Applies steps record (.ok after)) : after.get? key = record.get? key := by
  induction steps generalizing record with
  | nil =>
    cases applied
    rfl
  | cons first rest ih =>
    obtain ⟨⟨member, other⟩, others⟩ := List.forall_mem_cons.mp own
    cases applied with
    | passed worked further =>
      have kept := confined_step member (Step.apply_eq_ok_iff.mpr worked) key other
      exact (ih others further).trans kept

theorem versionKey_notMem_ownKeys (version : Version) : versionKey ∉ ownKeys version := by
  rw [ownKeys]
  split <;> decide

/-- Every step leaves a record on which it fails as it was. Where it succeeds, it changes nothing
under keys that are not its own, and the first step does not change an order that is there. -/
theorem steps_write_own_keys_or_nothing {step : Step} (member : step ∈ widgetStack.steps)
    (record after : Record) :
    (∀ fault, step.transform record = (after, some fault) → after = record) ∧
    (step.transform record = (after, none) →
      (∀ key ∉ ownKeys step.version, after.get? key = record.get? key) ∧
      (step.version = 2 → (record.present? Field.stackOrder.key).isSome = true →
        after.get? Field.stackOrder.key = record.get? Field.stackOrder.key)) := by
  have whole := congrFun (transform_atomic member) record
  rw [whole, atomic]
  cases ran : step.apply record with
  | error fault =>
    constructor
    · rintro other ⟨⟩
      rfl
    · rintro ⟨⟩
  | ok written =>
    constructor
    · rintro fault ⟨⟩
    · rintro ⟨⟩
      refine ⟨confined_step member ran, ?_⟩
      intro first ordered
      rcases step_cases member with same | same | same | same
      · exact get?_stackOrder_of_buildStackOrder (same.apply ▸ ran) ordered
      all_goals cases same.version.symm.trans first

/-- A record with an order of unknown cards, two removed cards, a flag that is none, a null and a key
of no field. -/
def unruly : Record :=
  .ofList [(versionKey, .ofNat 9), ("clockFormat", .null), ("future", .list [.null]),
    (legacyFrontKey, .string "gemini"), ("showBinance", .ofNat 3),
    (Field.stackOrder.key, .list [.string "unknown", .string "unknown"]),
    (Field.removed.key, widgetList [.rewards, .binance])]

/-- The last step breaks off at the flag of the second removed card. -/
theorem unruly_record_is_left :
    (widgetStackSteps[3] ∈ widgetStack.steps ∧ ∃ after,
      widgetStackSteps[3].transform unruly = (after, some ⟨"showBinance", "a boolean", .number⟩) ∧
      after = unruly) ∧
    widgetStackSteps[0] ∈ widgetStack.steps ∧ ∃ after,
      widgetStackSteps[0].transform unruly = (after, none) ∧
      (after.get? "clockFormat" = some .null ∧ after.get? versionKey = some (.ofNat 9)) ∧
      after.get? Field.stackOrder.key = some (.list [.string "unknown", .string "unknown"]) := by
  have first : widgetStackSteps[0] ∈ widgetStack.steps := List.getElem_mem _
  have last : widgetStackSteps[3] ∈ widgetStack.steps := List.getElem_mem _
  have broke : widgetStackSteps[3].transform unruly =
      (unruly, some ⟨"showBinance", "a boolean", .number⟩) := by decide +kernel
  have built : widgetStackSteps[0].transform unruly = (unruly.erase legacyFrontKey, none) := by
    decide +kernel
  obtain ⟨left, -⟩ := steps_write_own_keys_or_nothing last unruly unruly
  obtain ⟨-, written⟩ :=
    steps_write_own_keys_or_nothing first unruly (unruly.erase legacyFrontKey)
  obtain ⟨spared, kept⟩ := written built
  refine ⟨⟨last, unruly, broke, left _ broke⟩, first, _, built, ⟨?_, ?_⟩, ?_⟩
  · rw [spared "clockFormat" (by decide)]
    decide +kernel
  · rw [spared versionKey (by decide)]
    decide +kernel
  · rw [kept rfl (by decide +kernel)]
    decide +kernel

end StartPage.Migration
