import StartPage.Proofs.Migration.Footprint
import StartPage.Proofs.Migration.Redating

/-!
What a step of the page's chain achieves lasts. Afterwards the probe of the step knows the record,
those of the steps before it know it if they did so already, and the step itself finds nothing more
to do. The steps of a run therefore extend the run of probes that know the record one by one, so the
record that they leave looks current without a stamp.
-/
namespace StartPage.Migration

namespace Chain

variable {chain : Chain} {record after : Record}

/-- Every step leaves a record that it knows, and that those of the steps before it know which knew
it already. -/
def Cumulative (chain : Chain) : Prop :=
  ∀ step ∈ chain.steps, ∀ {record after}, step.apply record = .ok after →
    step.knows after = true ∧ ∀ other ∈ chain.steps, other.version < step.version →
      other.knows record = true → other.knows after = true

theorem date_of_knows (known : ∀ step ∈ chain.steps, step.knows record = true) :
    chain.date record = chain.current := by
  obtain ⟨first, rest, upTo, dated⟩ := chain.exists_knownUpTo record
  cases rest with
  | nil =>
    have whole : chain.steps = first := upTo.split.trans (List.append_nil _)
    rw [dated, ← whole, reached, current]
  | cons next rest =>
    have member : next ∈ chain.steps := by simp [upTo.split]
    cases (known next member).symm.trans (upTo.stops next rfl)

theorem Cumulative.knows (cumulative : chain.Cumulative) {known rest : List Step}
    (split : chain.steps = known ++ rest) (knows : ∀ step ∈ known, step.knows record = true)
    (applied : Applies rest record (.ok after)) : ∀ step ∈ chain.steps, step.knows after = true := by
  induction rest generalizing known record with
  | nil =>
    cases applied
    rwa [split, List.append_nil]
  | cons first rest ih =>
    cases applied with
    | passed worked further =>
      have member : ∀ step ∈ known ++ first :: rest, step ∈ chain.steps := fun _ => split ▸ id
      have rising := (List.pairwise_cons.mp chain.ascending).2
      rw [split, List.map_append, List.map_cons, List.pairwise_append] at rising
      obtain ⟨own, others⟩ :=
        cumulative first (member first (by simp)) (Step.apply_eq_ok_iff.mpr worked)
      have longer : chain.steps = (known ++ [first]) ++ rest := by
        rw [split, List.append_assoc, List.singleton_append]
      refine ih longer ?_ further
      intro step among
      rcases List.mem_append.mp among with early | last
      · have below : step.version < first.version :=
          rising.2.2 _ (List.mem_map_of_mem early) _ List.mem_cons_self
        exact others step (member step (List.mem_append_left _ early)) below (knows step early)
      · obtain rfl := List.mem_singleton.mp last
        exact own

theorem Cumulative.date (cumulative : chain.Cumulative)
    (applied : Applies (chain.newer (chain.date record)) record (.ok after)) :
    chain.date after = chain.current := by
  obtain ⟨known, rest, upTo, dated⟩ := chain.exists_knownUpTo record
  rw [dated, (cutAt_reached upTo.split).newer] at applied
  exact date_of_knows (cumulative.knows upTo.split upTo.knows applied)

end Chain

namespace Stack

variable {stack : Stack} {record after : Record} {card : Widget}

section Records

theorem ListedIn.nodup (listed : stack.ListedIn record) : stack.cards.Nodup ∧ stack.gone.Nodup := by
  obtain ⟨order, ordered, cards⟩ := bind_ok listed.order
  obtain ⟨removed, left, gone⟩ := bind_ok listed.removed
  rw [← Except.ok.inj cards, ← Except.ok.inj gone]
  exact ⟨Settings.getD_widgets?_nodup ordered .nil, Settings.getD_widgets?_nodup left .nil⟩

theorem present?_storedIn (stack : Stack) (record : Record) (key : String) :
    (stack.storedIn record).present? key =
      if key = Field.removed.key then some (widgetList stack.gone)
      else if key = Field.stackOrder.key then some (widgetList stack.cards)
      else record.present? key := by
  rw [storedIn, Migration.withLists, Record.present?_insert, Record.present?_insert]
  rfl

theorem hasStackOrder_storedIn (stack : Stack) (record : Record) :
    hasStackOrder (stack.storedIn record) = true := by
  rw [hasStackOrder, present?_storedIn, if_neg (by decide), if_pos rfl]
  rfl

theorem hasRemoved_storedIn (stack : Stack) (record : Record) :
    hasRemoved (stack.storedIn record) = true := by
  rw [hasRemoved, present?_storedIn, if_pos rfl]
  rfl

theorem isShown_storedIn (stack : Stack) (record : Record) (card : Widget) :
    isShown (stack.storedIn record) card = isShown record card := by
  apply isShown_congr
  have listless : card.showKey ≠ Field.removed.key ∧ card.showKey ≠ Field.stackOrder.key := by
    cases card <;> decide
  rw [present?_storedIn, if_neg listless.1, if_neg listless.2]

theorem listedIn_storedIn (cards : stack.cards.Nodup) (gone : stack.gone.Nodup) (record : Record) :
    stack.ListedIn (stack.storedIn record) where
  order := by
    rw [stackOrder, widgets?_distinct cards]
    · rfl
    · rw [present?_storedIn, if_neg (by decide), if_pos rfl]
  removed := by
    rw [removedCards, widgets?_distinct gone]
    · rfl
    · rw [present?_storedIn, if_pos rfl]

theorem ListedIn.introduced (listed : stack.ListedIn record) :
    stack.introduced.ListedIn (stack.introduced.storedIn record) :=
  have kept : stack.introduced.cards.Nodup ∧ stack.introduced.gone.Nodup := listed.nodup
  listedIn_storedIn kept.1 kept.2 record

theorem ListedIn.filled (listed : stack.ListedIn record) :
    stack.filled.ListedIn (stack.filled.storedIn record) :=
  have cards : stack.filled.cards.Nodup := nodup_filled listed.nodup.1
  listedIn_storedIn cards listed.nodup.2 record

theorem ListedIn.replaced (listed : stack.ListedIn record) :
    stack.replaced.ListedIn (stack.replaced.storedIn record) :=
  have cards : stack.replaced.cards.Nodup := nodup_replaced listed.nodup.1 listed.nodup.2
  listedIn_storedIn cards (listed.nodup.2.filter _) record

theorem storedIn_storedIn (stack : Stack) (record : Record) :
    stack.storedIn (stack.storedIn record) = stack.storedIn record := by
  -- The list that is written first stays where it is when the other one is written.
  have apart : Field.stackOrder.key ≠ Field.removed.key := by decide
  have ordered : (stack.storedIn record).insert Field.stackOrder.key (widgetList stack.cards) =
      stack.storedIn record :=
    Record.insert_insert_other apart (Record.insert_insert _)
  rw [storedIn, Migration.withLists, ordered]
  exact Record.insert_insert _

def ofLists (record : Record) (order removed : List Widget) : Stack where
  order := some order
  removed := some removed
  shown card := decide (isShown record card = .ok true)
  front := none

theorem isShown_of_shownAmong {cards found : List Widget}
    (ran : shownAmong record cards = .ok found) (order removed : List Widget) :
    ∀ card ∈ cards, isShown record card = .ok ((ofLists record order removed).shown card) := by
  induction cards generalizing found with
  | nil => exact List.forall_mem_nil _
  | cons first rest ih =>
    obtain ⟨shown, flagged, ran⟩ := bind_ok ran
    obtain ⟨others, further, -⟩ := bind_ok ran
    refine List.forall_mem_cons.mpr ⟨?_, ih further⟩
    rw [flagged]
    cases shown <;> simp [ofLists, flagged]

end Records

end Stack

section Steps

/-- What the change leaves is known to its probe, and to those of the earlier probes that knew the
record before; made again, the change does nothing more. -/
def Lasts (probe : Record → Bool) (earlier : List (Record → Bool))
    (change : Record → Except CorruptField Record) : Prop :=
  ∀ {record after}, change record = .ok after →
    probe after = true ∧ (∀ before ∈ earlier, before record = true → before after = true) ∧
    change after = .ok after

theorem lasts_buildStackOrder : Lasts hasStackOrder [] buildStackOrder := by
  intro record after ran
  obtain ⟨front, arranged, -, placed, rfl⟩ := buildStackOrder_ok ran
  have ordered : hasStackOrder arranged = true := by
    rcases arrange_ok placed with ⟨ordered, rfl⟩ | ⟨-, cards, rfl⟩
    · exact ordered
    · rw [hasStackOrder, Record.present?_insert, if_pos rfl]
      rfl
  have still : hasStackOrder (arranged.erase legacyFrontKey) = true := by
    rwa [hasStackOrder, Record.present?_erase, if_neg (by decide)]
  have retired : legacyFront (arranged.erase legacyFrontKey) = .ok none := by
    rw [legacyFront, Record.present?_erase, if_pos rfl]
  refine ⟨still, List.forall_mem_nil _, ?_⟩
  rw [buildStackOrder, retired]
  simp only [bind, Except.bind, arrange, still, if_true]
  rw [Record.erase_erase]
  rfl

theorem lasts_introduceRemoved : Lasts hasRemoved [hasStackOrder] introduceRemoved := by
  intro record after ran
  obtain ⟨order, removed, ordered, gone, -⟩ := introduceRemoved_ok ran
  let stack := Stack.ofLists record order removed
  have listed : stack.ListedIn record := ⟨ordered, gone⟩
  obtain rfl := Except.ok.inj (listed.introduceRemoved.symm.trans ran)
  have again := listed.introduced
  refine ⟨Stack.hasRemoved_storedIn _ _, ?_, ?_⟩
  · simp [Stack.hasStackOrder_storedIn]
  · rw [again.introduceRemoved]
    exact congrArg _ (Stack.storedIn_storedIn stack.introduced record)

theorem lasts_addNewCards : Lasts everyCardPlaced [hasStackOrder, hasRemoved] addNewCards := by
  intro record after ran
  obtain ⟨order, removed, ordered, gone, -⟩ := addNewCards_ok ran
  let stack := Stack.ofLists record order removed
  have listed : stack.ListedIn record := ⟨ordered, gone⟩
  obtain rfl := Except.ok.inj (listed.addNewCards.symm.trans ran)
  have again := listed.filled
  refine ⟨again.everyCardPlaced.mpr stack.complete_filled, ?_, ?_⟩
  · simp [Stack.hasStackOrder_storedIn, Stack.hasRemoved_storedIn]
  · rw [again.addNewCards, Stack.filled_of_complete stack.complete_filled]
    exact congrArg _ (Stack.storedIn_storedIn stack.filled record)

theorem lasts_replaceCards :
    Lasts noShownCardRemoved [hasStackOrder, hasRemoved, everyCardPlaced] replaceCards := by
  intro record after ran
  obtain ⟨order, removed, shown, ordered, gone, flagged, -⟩ := replaceCards_ok ran
  let stack := Stack.ofLists record order removed
  have listed : stack.ListedIn record := ⟨ordered, gone⟩
  have flags : ∀ card ∈ stack.gone, isShown record card = .ok (stack.shown card) :=
    Stack.isShown_of_shownAmong flagged order removed
  obtain rfl := Except.ok.inj ((listed.replaceCards flags).symm.trans ran)
  have again := listed.replaced
  have hidden : ∀ card ∈ stack.replaced.gone, stack.replaced.shown card = false :=
    stack.hidden_replaced
  -- The step reads the flags of removed cards only, and no card is removed that was not.
  have reflagged : ∀ card ∈ stack.replaced.gone,
      isShown (stack.replaced.storedIn record) card = .ok (stack.replaced.shown card) := by
    intro card left
    rw [Stack.isShown_storedIn]
    exact flags card (List.mem_filter.mp left).1
  refine ⟨?_, ?_, ?_⟩
  · exact (again.noShownCardRemoved reflagged).mpr hidden
  · simp only [List.forall_mem_cons, Stack.hasStackOrder_storedIn, Stack.hasRemoved_storedIn,
      again.everyCardPlaced, listed.everyCardPlaced]
    exact ⟨fun _ => trivial, fun _ => trivial, Stack.complete_replaced, List.forall_mem_nil _⟩
  · rw [again.replaceCards reflagged, Stack.replaced_of_hidden hidden]
    exact congrArg _ (Stack.storedIn_storedIn stack.replaced record)

theorem step_lasts {step : Step} {record after : Record} (member : step ∈ widgetStackSteps)
    (ran : step.apply record = .ok after) :
    step.knows after = true ∧
    (∀ other ∈ widgetStackSteps, other.version < step.version →
      other.knows record = true → other.knows after = true) ∧
    step.apply after = .ok after := by
  have cases := step_cases member
  simp only [widgetStackSteps, List.forall_mem_cons]
  rcases cases with same | same | same | same <;> rw [same.apply] at ran <;>
    rw [same.knows, same.version, same.apply]
  · obtain ⟨own, -, again⟩ := lasts_buildStackOrder ran
    refine ⟨own, ⟨?_, ?_, ?_, ?_, List.forall_mem_nil _⟩, again⟩
    all_goals exact fun below => absurd below (by decide)
  · obtain ⟨own, earlier, again⟩ := lasts_introduceRemoved ran
    refine ⟨own, ⟨fun _ => earlier hasStackOrder (by simp), ?_, ?_, ?_, List.forall_mem_nil _⟩, again⟩
    all_goals exact fun below => absurd below (by decide)
  · obtain ⟨own, earlier, again⟩ := lasts_addNewCards ran
    refine ⟨own, ⟨fun _ => earlier hasStackOrder (by simp),
      fun _ => earlier hasRemoved (by simp), ?_, ?_, List.forall_mem_nil _⟩, again⟩
    all_goals exact fun below => absurd below (by decide)
  · obtain ⟨own, earlier, again⟩ := lasts_replaceCards ran
    exact ⟨own, ⟨fun _ => earlier hasStackOrder (by simp),
      fun _ => earlier hasRemoved (by simp), fun _ => earlier everyCardPlaced (by simp),
      fun below => absurd below (by decide), List.forall_mem_nil _⟩, again⟩

theorem cumulative_widgetStack : widgetStack.Cumulative := by
  intro step member record after ran
  obtain ⟨own, earlier, -⟩ := step_lasts member ran
  exact ⟨own, earlier⟩

end Steps

/-- A step leaves a record that its probe knows, and that the probes of the steps before it know if
they did so already; on that record it changes nothing. So what the steps of a run leave of a record
without a stamp has none either, and is of the current version. -/
theorem steps_last_and_leave_current_records :
    (∀ step ∈ widgetStack.steps, ∀ record after, step.transform record = (after, none) →
      step.knows after = true ∧
      (∀ other ∈ widgetStack.steps, other.version < step.version →
        other.knows record = true → other.knows after = true) ∧
      step.transform after = (after, none)) ∧
    ∀ record, record.present? versionKey = none →
      ∃ dated, widgetStack.detect record = .ok dated ∧
        ∀ after, Applies (widgetStack.newer dated) record (.ok after) →
          after.present? versionKey = none ∧ widgetStack.detect after = .ok 5 := by
  constructor
  · intro step member record after ran
    obtain ⟨own, earlier, again⟩ := step_lasts member (Step.apply_eq_ok_iff.mpr ran)
    exact ⟨own, earlier, Step.apply_eq_ok_iff.mp again⟩
  · intro record unstamped
    have dated : widgetStack.detect record = .ok (widgetStack.date record) := by
      rw [Chain.detect, unstamped]
    refine ⟨_, dated, ?_⟩
    intro after applied
    have still : after.present? versionKey = none := by
      have kept : after.get? versionKey = record.get? versionKey := by
        apply get?_of_applies _ applied
        intro step member
        exact ⟨(List.mem_filter.mp member).1, versionKey_notMem_ownKeys step.version⟩
      rw [Record.present?, kept]
      exact unstamped
    refine ⟨still, ?_⟩
    rw [Chain.detect, still]
    exact congrArg _ (cumulative_widgetStack.date applied)

/-- The one step that `reshown` needs is not needed again. -/
theorem reshown_record_settles :
    (widgetStackSteps[3] ∈ widgetStack.steps ∧ reshown.present? versionKey = none) ∧
    noShownCardRemoved reshown = false ∧ everyCardPlaced reshown = true ∧
    ∃ after, widgetStackSteps[3].transform reshown = (after, none) ∧
      noShownCardRemoved after = true ∧ everyCardPlaced after = true ∧
      widgetStackSteps[3].transform after = (after, none) ∧
      Applies (widgetStack.newer 4) reshown (.ok after) ∧ widgetStack.detect after = .ok 5 := by
  have last : widgetStackSteps[3] ∈ widgetStack.steps := List.getElem_mem _
  have filling : widgetStackSteps[2] ∈ widgetStack.steps := List.getElem_mem _
  have unstamped : reshown.present? versionKey = none := by decide +kernel
  have placed : everyCardPlaced reshown = true := by decide +kernel
  have fourth : widgetStack.detect reshown = .ok 4 := by decide +kernel
  have worked : (widgetStackSteps[3].transform reshown).2 = none := by decide +kernel
  have ran : widgetStackSteps[3].transform reshown =
      ((widgetStackSteps[3].transform reshown).1, none) := Prod.ext rfl worked
  have applied : Applies (widgetStack.newer 4) reshown
      (.ok (widgetStackSteps[3].transform reshown).1) := .passed ran (.done _)
  obtain ⟨steps, runs⟩ := steps_last_and_leave_current_records
  obtain ⟨own, earlier, again⟩ := steps _ last _ _ ran
  obtain ⟨dated, detected, current⟩ := runs reshown unstamped
  obtain rfl := Except.ok.inj (fourth.symm.trans detected)
  exact ⟨⟨last, unstamped⟩, by decide +kernel, placed, _, ran, own,
    earlier _ filling (by decide) placed, again, applied, (current _ applied).2⟩

end StartPage.Migration
