import StartPage.Proofs.Migration.Arrangement

/-!
The card in front. Before the steps it is the last card of the order that is shown and was not
removed. After them no shown card is removed any more, so every shown card of the order counts. What
the steps place goes behind the order that the record came with and never takes the front; a shown
card that stood in both lists keeps its place in the order, and takes the front when it stood ahead
of the card that had it.
-/
namespace StartPage

namespace Settings

variable {settings : Settings} {card : Widget} {behind ahead : List Widget}

theorem foreground_split (front : settings.foreground = some card) :
    settings.isShown card = true ∧ ∃ behind ahead, settings.stackOrder = behind ++ card :: ahead ∧
      ∀ other ∈ ahead, settings.isShown other = true → other ∈ settings.removed := by
  rw [foreground, List.find?_eq_some_iff_append] at front
  obtain ⟨visible, passed, left, split, hidden⟩ := front
  refine ⟨(Bool.and_eq_true_iff.mp visible).1, left.reverse, passed.reverse, ?_, ?_⟩
  · rw [← List.reverse_reverse settings.stackOrder, split]
    simp
  · intro other member shown
    have invisible := hidden other (List.mem_reverse.mp member)
    simpa [shown] using invisible

theorem foreground_of_split (kept : ∀ other, settings.isShown other = true → other ∉ settings.removed)
    (split : settings.stackOrder = behind ++ card :: ahead) (shown : settings.isShown card = true) :
    settings.foreground = some ((ahead.reverse.find? settings.isShown).getD card) := by
  have visible : (fun other => settings.isShown other && !settings.removed.contains other) =
      settings.isShown := by
    funext other
    cases seen : settings.isShown other with
    | false => rfl
    | true => simpa using kept other seen
  have order : settings.stackOrder.reverse = ahead.reverse ++ card :: behind.reverse := by
    rw [split]
    simp
  rw [foreground, visible, order, List.find?_append, List.find?_cons_of_pos shown]
  cases ahead.reverse.find? settings.isShown <;> rfl

end Settings

namespace Migration

variable {record : Record} {outcome : Outcome}

theorem ofRecord_of_run (ran : widgetStack.run record = .ok outcome) :
    Settings.ofRecord record = .ok record.typed :=
  Settings.ofRecord_typed fun field => (run_ok ran).1 (.field field) trivial

theorem isShown_of_run (ran : widgetStack.run record = .ok outcome) (card : Widget) :
    outcome.settings.isShown card = record.typed.isShown card := by
  obtain ⟨stack, read, -, -, -, shown⟩ := Stack.migrated_of_run ran
  rw [shown, Stack.shown_migrated, read.typed.2.2]

theorem suffix_of_run (ran : widgetStack.run record = .ok outcome)
    (ordered : hasStackOrder record = true) :
    record.typed.stackOrder <:+ outcome.settings.stackOrder := by
  obtain ⟨stack, read, -, order, -⟩ := Stack.migrated_of_run ran
  rw [read.hasStackOrder] at ordered
  obtain ⟨cards, listed⟩ := Option.isSome_iff_exists.mp ordered
  have typed : record.typed.stackOrder = cards := by rw [read.typed.1, listed, Option.getD_some]
  by_cases early : outcome.dated < 5
  · have arranged : stack.arrangement outcome.dated = cards := by
      rw [Stack.arrangement, listed, Option.getD_some]
    rw [(Stack.migrated_early early).1, Option.getD_some, arranged] at order
    rw [order, typed]
    exact List.suffix_append _ _
  · rw [Stack.migrated_late early, listed, Option.getD_some] at order
    exact order.trans typed.symm ▸ List.suffix_rfl

theorem not_removed_of_run (ran : widgetStack.run record = .ok outcome) (early : outcome.dated < 5)
    {card : Widget} (shown : outcome.settings.isShown card = true) :
    card ∉ outcome.settings.removed := by
  obtain ⟨stack, -, -, -, removed, flags⟩ := Stack.migrated_of_run ran
  rw [(Stack.migrated_early early).2, Option.getD_some] at removed
  rw [flags, Stack.shown_migrated] at shown
  simp [removed, shown]

theorem lists_of_late_run (ran : widgetStack.run record = .ok outcome)
    (late : ¬outcome.dated < 5) :
    outcome.settings.stackOrder = record.typed.stackOrder ∧
      outcome.settings.removed = record.typed.removed := by
  obtain ⟨stack, read, -, order, removed, -⟩ := Stack.migrated_of_run ran
  rw [Stack.migrated_late late] at order removed
  exact ⟨order.trans read.typed.1.symm, removed.trans read.typed.2.1.symm⟩

theorem foreground_of_late_run (ran : widgetStack.run record = .ok outcome)
    (late : ¬outcome.dated < 5) :
    outcome.settings.foreground = record.typed.foreground := by
  obtain ⟨order, removed⟩ := lists_of_late_run ran late
  simp only [Settings.foreground, order, removed, isShown_of_run ran]

/-- A run that has steps gives the front to the last shown card of the order that the record came
with, removed or not. -/
theorem foreground_of_early_run (ran : widgetStack.run record = .ok outcome)
    (early : outcome.dated < 5) (ordered : hasStackOrder record = true) {card : Widget}
    {behind ahead : List Widget} (split : record.typed.stackOrder = behind ++ card :: ahead)
    (shown : record.typed.isShown card = true) :
    outcome.settings.foreground = some ((ahead.reverse.find? record.typed.isShown).getD card) := by
  obtain ⟨placed, order⟩ := suffix_of_run ran ordered
  have flags : outcome.settings.isShown = record.typed.isShown := funext (isShown_of_run ran)
  have arranged : outcome.settings.stackOrder = (placed ++ behind) ++ card :: ahead := by
    rw [← order, split, List.append_assoc]
  rw [← flags] at shown ⊢
  exact Settings.foreground_of_split (fun other => not_removed_of_run ran early) arranged shown

/-- When a record with an order is migrated, a card that has the front keeps it unless a shown card
stands ahead of it; such a card was removed, and the one furthest ahead then has the front. -/
theorem front_kept_unless_removed_card_ahead (ran : widgetStack.run record = .ok outcome)
    (ordered : (record.present? Field.stackOrder.key).isSome = true) :
    ∃ before, Settings.ofRecord record = .ok before ∧
      ∀ card, before.foreground = some card →
        ∃ behind ahead, before.stackOrder = behind ++ card :: ahead ∧
          (∀ other ∈ ahead, before.isShown other = true → other ∈ before.removed) ∧
          (5 ≤ outcome.dated → outcome.settings.foreground = some card) ∧
          (outcome.dated < 5 → outcome.settings.foreground =
            some ((ahead.reverse.find? before.isShown).getD card)) ∧
          (outcome.settings.foreground = some card ↔
            5 ≤ outcome.dated ∨ ∀ other ∈ ahead, before.isShown other = false) := by
  have typed := ofRecord_of_run ran
  refine ⟨record.typed, typed, fun card front => ?_⟩
  obtain ⟨shown, behind, ahead, split, gone⟩ := Settings.foreground_split front
  have late (current : 5 ≤ outcome.dated) : outcome.settings.foreground = some card := by
    rw [foreground_of_late_run ran (UInt32.not_lt.mpr current), front]
  have early (older : outcome.dated < 5) := foreground_of_early_run ran older ordered split shown
  refine ⟨behind, ahead, split, gone, late, early, ?_⟩
  constructor
  · intro kept
    by_cases older : outcome.dated < 5
    · refine .inr fun other member => ?_
      rw [early older] at kept
      cases found : ahead.reverse.find? record.typed.isShown with
      | none => simpa using List.find?_eq_none.mp found other (List.mem_reverse.mpr member)
      | some first =>
        -- No card stands twice in a list that was read, so the card is not ahead of itself.
        rw [found, Option.getD_some, Option.some.injEq] at kept
        have twice : card ∈ ahead := by
          rw [← kept]
          exact List.mem_reverse.mp (List.mem_of_find?_eq_some found)
        have distinct := (Settings.ofRecord_distinct typed).1
        rw [split, List.nodup_append] at distinct
        exact absurd twice (List.nodup_cons.mp distinct.2.1).1
    · exact .inl (UInt32.not_lt.mp older)
  · rintro (current | hidden)
    · exact late current
    · by_cases older : outcome.dated < 5
      · have none : ahead.reverse.find? record.typed.isShown = none := by
          rw [List.find?_eq_none]
          intro other member
          simp [hidden other (List.mem_reverse.mp member)]
        rw [early older, none, Option.getD_none]
      · exact late (UInt32.not_lt.mp older)

def halfRemoved (order : List Widget) : Record :=
  .ofList [(versionKey, .ofNat 4), ("showRewards", .boolean true), ("showBinance", .boolean true),
    (Field.stackOrder.key, widgetList order), (Field.removed.key, widgetList [.binance])]

def readmitted (order : List Widget) : Settings :=
  { (Settings.default.setFlag (.widget .rewards) true).setFlag (.widget .binance) true with
    stackOrder := order }

theorem removed_card_behind_leaves_front :
    widgetStack.run (halfRemoved [.binance, .rewards]) =
      .ok ⟨readmitted [.binance, .rewards], 4, 5, ["replace-stack-widgets"]⟩ ∧
    ((halfRemoved [.binance, .rewards]).present? Field.stackOrder.key).isSome = true ∧
    ∃ before, Settings.ofRecord (halfRemoved [.binance, .rewards]) = .ok before ∧
      before.foreground = some .rewards ∧
      (readmitted [.binance, .rewards]).foreground = some .rewards := by
  have ran : widgetStack.run (halfRemoved [.binance, .rewards]) =
      .ok ⟨readmitted [.binance, .rewards], 4, 5, ["replace-stack-widgets"]⟩ := by decide +kernel
  have ordered : ((halfRemoved [.binance, .rewards]).present? Field.stackOrder.key).isSome = true := by
    decide +kernel
  have read : Settings.ofRecord (halfRemoved [.binance, .rewards]) =
      .ok { readmitted [.binance, .rewards] with removed := [.binance] } := by decide +kernel
  obtain ⟨before, typed, fronts⟩ := front_kept_unless_removed_card_ahead ran ordered
  obtain rfl := Except.ok.inj (read.symm.trans typed)
  obtain ⟨behind, ahead, split, -, -, -, kept⟩ := fronts .rewards (by decide)
  -- The card in front is the last of the order, so none is ahead of it.
  have last : ahead = [] := by
    have order : [Widget.binance, .rewards] = behind ++ .rewards :: ahead := split
    rcases behind with _ | ⟨first, _ | ⟨second, rest⟩⟩
    · cases (List.cons.inj order).1
    · exact (List.cons.inj (List.cons.inj order).2).2.symm
    · simp at order
  subst last
  exact ⟨ran, ordered, _, read, by decide, kept.mpr (.inr nofun)⟩

/-- A removed card that stands ahead takes the front as soon as it is back. -/
theorem removed_card_ahead_takes_front :
    ∃ before outcome, (halfRemoved [.rewards, .binance]).present? Field.stackOrder.key =
        some (widgetList [.rewards, .binance]) ∧
      Settings.ofRecord (halfRemoved [.rewards, .binance]) = .ok before ∧
      before.foreground = some .rewards ∧
      widgetStack.run (halfRemoved [.rewards, .binance]) = .ok outcome ∧
      outcome.settings.foreground = some .binance := by
  refine ⟨{ readmitted [.rewards, .binance] with removed := [.binance] },
    ⟨readmitted [.rewards, .binance], 4, 5, ["replace-stack-widgets"]⟩, ?_⟩
  decide +kernel

end Migration
end StartPage
