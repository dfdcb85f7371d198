import StartPage.Proofs.Migration.CurrentShape

/-!
Records without a stack order. From the oldest shape on the order is built from what the cards
show, later it is filled up with every card that has no place, and where no step runs at all the
order is the default one. Between the last two lies version 4: only the last step runs, which takes
the order that is not there for an empty one and stores what it makes of that.
-/
namespace StartPage.Migration

variable {record : Record} {outcome : Outcome} {version : Version}

/-- No probe after the first one counts for a record without an order. -/
theorem date_of_missing_order (missing : record.present? Field.stackOrder.key = none) :
    widgetStack.date record < 2 := by
  by_contra late
  have first : widgetStackSteps[0] ∈ widgetStack.steps := List.getElem_mem _
  have known : hasStackOrder record = true :=
    Chain.knows_of_le_date first (UInt32.not_lt.mp late)
  rw [hasStackOrder, missing] at known
  cases known

theorem detect_of_missing_order (missing : record.present? Field.stackOrder.key = none)
    (late : 2 ≤ version) : widgetStack.detect record = .ok version ↔
      record.present? versionKey = some (.ofNat version.toNat) := by
  cases present : record.present? versionKey with
  | none =>
    rw [Chain.detect, present]
    constructor
    · intro detected
      have flat := date_of_missing_order missing
      rw [Except.ok.inj detected] at flat
      exact absurd flat (UInt32.not_lt.mpr late)
    · intro stamped
      cases stamped
  | some stamp =>
    rw [Chain.detect_of_present present, Option.some.injEq]

namespace Stack

variable {stack : Stack}

theorem ReadFrom.order_of_missing (read : stack.ReadFrom record)
    (missing : record.present? Field.stackOrder.key = none) : stack.order = none := by
  have present := Record.isSome_of_widgets? read.order
  rw [missing] at present
  exact Option.isNone_iff_eq_none.mp (by simpa using present.symm)

theorem migrated_last (missing : stack.order = none) (filled : ¬version < 4) (early : version < 5) :
    (stack.migrated version).order = some (stack.gone.filter stack.shown) ∧
      (stack.migrated version).removed = some (stack.gone.filter fun card => !stack.shown card) := by
  obtain ⟨order, removed⟩ := migrated_early early
  refine ⟨?_, removed⟩
  have flat : ¬version < 2 := fun flat => filled (UInt32.lt_trans flat (by decide))
  have empty : stack.arrangement version = [] := by
    rw [arrangement, missing, Option.getD_none, if_neg flat, if_pos early]
  rw [order, empty, if_neg filled, List.append_nil, List.append_nil]
  simp

theorem placed_of_missing (missing : stack.order = none) (other : version ≠ 4) (card : Widget) :
    card ∈ (stack.migrated version).order.getD Settings.default.stackOrder ∨
      card ∈ (stack.migrated version).removed.getD Settings.default.removed := by
  by_cases early : version < 4
  · exact (complete_early (UInt32.lt_trans early (by decide)) (.inl early)).settled card
  · have late : ¬version < 5 := by
      intro below
      apply other
      rw [← UInt32.toNat_inj]
      have least := UInt32.le_iff_toNat_le.mp (UInt32.not_lt.mp early)
      have most := UInt32.lt_iff_toNat_lt.mp below
      exact Nat.le_antisymm (Nat.le_of_lt_succ most) least
    rw [migrated_late late, missing]
    exact .inl (Widget.mem_all card)

theorem split_complete_iff {gone : List Widget} {shown : Widget → Bool} :
    (∀ card, card ∉ (gone.filter fun card => !shown card) → card ∈ gone.filter shown) ↔
      ∀ card, card ∈ gone := by
  constructor
  · intro complete card
    by_contra unlisted
    have placed := complete card fun kept => unlisted (List.mem_filter.mp kept).1
    exact unlisted (List.mem_filter.mp placed).1
  · intro listed card kept
    refine List.mem_filter.mpr ⟨listed card, ?_⟩
    by_contra hidden
    exact kept (List.mem_filter.mpr ⟨listed card, by simpa using hidden⟩)

end Stack

/-- A stack order that is missing leaves no card out of both lists, unless the record is stamped
with version 4: the order is then what is shown of the removed cards, and nothing else. -/
theorem missing_order_filled_unless_last_step_alone (ran : widgetStack.run record = .ok outcome)
    (missing : record.present? Field.stackOrder.key = none) :
    (record.present? versionKey ≠ some (.ofNat 4) →
      ∀ card, card ∉ outcome.settings.removed → card ∈ outcome.settings.stackOrder) ∧
    (record.present? versionKey = some (.ofNat 4) → ∃ gone, removedCards record = .ok gone ∧
      outcome.settings.stackOrder = gone.filter outcome.settings.isShown ∧
      outcome.settings.removed = (gone.filter fun card => !outcome.settings.isShown card) ∧
      ((∀ card, card ∉ outcome.settings.removed → card ∈ outcome.settings.stackOrder) ↔
        ∀ card, card ∈ gone)) := by
  obtain ⟨stack, read, detected, order, removed, shown⟩ := Stack.migrated_of_run ran
  have absent := read.order_of_missing missing
  have stamped : outcome.dated = 4 ↔ record.present? versionKey = some (.ofNat 4) := by
    have fourth : (2 : Version) ≤ 4 := by decide
    rw [← Except.ok.injEq, ← detected]
    exact detect_of_missing_order missing fourth
  constructor
  · intro other card kept
    have placed := Stack.placed_of_missing absent (fun alone => other (stamped.mp alone)) card
    rw [← order, ← removed] at placed
    exact placed.resolve_right kept
  · intro fourth
    have alone := stamped.mpr fourth
    have filled : ¬outcome.dated < 4 := by
      rw [alone]
      decide
    have unsettled : outcome.dated < 5 := by
      rw [alone]
      decide
    obtain ⟨ordered, left⟩ := Stack.migrated_last absent filled unsettled
    have flags : outcome.settings.isShown = stack.shown := by
      funext card
      rw [shown, Stack.shown_migrated]
    rw [ordered, Option.getD_some] at order
    rw [left, Option.getD_some] at removed
    refine ⟨stack.gone, read.removedCards, flags ▸ order, flags ▸ removed, ?_⟩
    rw [order, removed]
    exact Stack.split_complete_iff

def orderless (stamp : Nat) : Record :=
  .ofList [(versionKey, .ofNat stamp), ("showGemini", .boolean true),
    (Field.removed.key, widgetList [.rewards, .gemini])]

def orderlessSettings (order : List Widget) : Settings :=
  { Settings.default.setFlag (.widget .gemini) true with
    stackOrder := order
    removed := [.rewards] }

theorem orderless_records_filled_or_shortened :
    (widgetStack.run (orderless 3) = .ok
        ⟨orderlessSettings [.gemini, .binance, .together, .bitcoinDotCom, .cryptoDotCom], 3, 5,
          ["add-new-stack-widgets", "replace-stack-widgets"]⟩ ∧
      (orderless 3).present? Field.stackOrder.key = none ∧
      (orderless 3).present? versionKey ≠ some (.ofNat 4) ∧
      ∀ card, card ∉ [Widget.rewards] →
        card ∈ [Widget.gemini, .binance, .together, .bitcoinDotCom, .cryptoDotCom]) ∧
    widgetStack.run (orderless 4) =
      .ok ⟨orderlessSettings [.gemini], 4, 5, ["replace-stack-widgets"]⟩ ∧
    (orderless 4).present? Field.stackOrder.key = none ∧
    (orderless 4).present? versionKey = some (.ofNat 4) ∧
    ∃ gone, removedCards (orderless 4) = .ok gone ∧
      [.gemini] = gone.filter (orderlessSettings [.gemini]).isShown := by
  have early : widgetStack.run (orderless 3) = .ok
      ⟨orderlessSettings [.gemini, .binance, .together, .bitcoinDotCom, .cryptoDotCom], 3, 5,
        ["add-new-stack-widgets", "replace-stack-widgets"]⟩ := by decide +kernel
  have late : widgetStack.run (orderless 4) =
      .ok ⟨orderlessSettings [.gemini], 4, 5, ["replace-stack-widgets"]⟩ := by decide +kernel
  have absent : (orderless 3).present? Field.stackOrder.key = none := by decide +kernel
  have missing : (orderless 4).present? Field.stackOrder.key = none := by decide +kernel
  have third : (orderless 3).present? versionKey ≠ some (.ofNat 4) := by decide +kernel
  have fourth : (orderless 4).present? versionKey = some (.ofNat 4) := by decide +kernel
  obtain ⟨filled, -⟩ := missing_order_filled_unless_last_step_alone early absent
  obtain ⟨-, shortened⟩ := missing_order_filled_unless_last_step_alone late missing
  obtain ⟨gone, listed, order, -⟩ := shortened fourth
  exact ⟨⟨early, absent, third, filled third⟩, late, missing, fourth, gone, listed, order⟩

/-- With nothing but its stamp a record of version 4 loses every card. -/
theorem missing_order_left_empty :
    ∃ outcome, widgetStack.run (.ofList [(versionKey, .ofNat 4)]) = .ok outcome ∧
      (Record.ofList [(versionKey, .ofNat 4)]).present? Field.stackOrder.key = none ∧
      ¬∀ card, card ∉ outcome.settings.removed → card ∈ outcome.settings.stackOrder := by
  have ran : widgetStack.run (.ofList [(versionKey, .ofNat 4)]) =
      .ok ⟨{ Settings.default with stackOrder := [] }, 4, 5, ["replace-stack-widgets"]⟩ := by
    decide +kernel
  refine ⟨_, ran, by decide +kernel, fun filled => ?_⟩
  cases filled .rewards (by decide)

end StartPage.Migration
