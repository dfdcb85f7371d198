import StartPage.Proofs.Migration.Arrangement
import StartPage.Proofs.Migration.Chains

/-!
The current shape is reached. A probe of the page's chain knows only records that already have
what its step would establish, so a record without a stamp is dated by no version whose promise it
does not keep; the steps above that version establish the rest, and the last step keeps every card
that the one before it placed.
-/
namespace StartPage.Migration

def StampUpTo (limit : Nat) (record : Record) : Prop :=
  ∀ stamp, record.present? versionKey = some stamp → ∃ number ≤ limit, stamp = .ofNat number

theorem Chain.dated_of_stampUpTo {chain : Chain} {record : Record} {limit : Nat} {dated : Version}
    (low : StampUpTo limit record) (detected : chain.detect record = .ok dated) :
    dated = chain.date record ∨ dated.toNat ≤ limit := by
  cases present : record.present? versionKey with
  | none =>
    rw [Chain.detect, present] at detected
    exact .inl (Except.ok.inj detected).symm
  | some stamp =>
    obtain ⟨number, within, rfl⟩ := low stamp present
    have same := (Chain.detect_of_present present).mp detected
    have natural := Value.natural?_eq_some_iff.mpr same
    rw [Value.natural?_eq_some_iff.mpr rfl] at natural
    exact .inr (Option.some.inj natural ▸ within)

theorem Chain.knows_of_detect {chain : Chain} {record : Record} {limit : Nat} {dated : Version}
    (low : StampUpTo limit record) (detected : chain.detect record = .ok dated) {step : Step}
    (member : step ∈ chain.steps) (beyond : limit < step.version.toNat)
    (covered : step.version ≤ dated) : step.knows record = true := by
  rcases Chain.dated_of_stampUpTo low detected with rfl | within
  · exact Chain.knows_of_le_date member covered
  · have order : step.version.toNat ≤ dated.toNat := UInt32.le_iff_toNat_le.mp covered
    omega

theorem everyCardPlaced_of_detect {record : Record} {dated : Version} (low : StampUpTo 3 record)
    (detected : widgetStack.detect record = .ok dated) (filled : ¬dated < 4) :
    everyCardPlaced record = true := by
  have third : widgetStackSteps[2] ∈ widgetStack.steps := List.getElem_mem _
  exact Chain.knows_of_detect low detected third (by decide) (UInt32.not_lt.mp filled)

theorem noShownCardRemoved_of_detect {record : Record} {dated : Version} (low : StampUpTo 4 record)
    (detected : widgetStack.detect record = .ok dated) (settled : ¬dated < 5) :
    noShownCardRemoved record = true := by
  have last : widgetStackSteps[3] ∈ widgetStack.steps := List.getElem_mem _
  exact Chain.knows_of_detect low detected last (by decide) (UInt32.not_lt.mp settled)

namespace Stack

variable {stack : Stack} {record : Record} {dated : Version} {card : Widget}

def Complete (stack : Stack) : Prop := ∀ card, card ∈ stack.cards ∨ card ∈ stack.gone

theorem ListedIn.everyCardPlaced (listed : stack.ListedIn record) :
    everyCardPlaced record = true ↔ stack.Complete := by
  rw [Migration.everyCardPlaced, listed.order, listed.removed]
  simp [Complete, isPlaced, Widget.mem_all]

theorem ListedIn.noShownCardRemoved (listed : stack.ListedIn record)
    (flagged : ∀ card ∈ stack.gone, isShown record card = .ok (stack.shown card)) :
    noShownCardRemoved record = true ↔ ∀ card ∈ stack.gone, stack.shown card = false := by
  rw [Migration.noShownCardRemoved, listed.order, listed.removed]
  refine List.all_eq_true.trans (forall₂_congr fun card removed => ?_)
  rw [flagged card removed]
  simp

section Lists

theorem complete_filled (stack : Stack) : stack.filled.Complete := by
  intro card
  by_cases placed : isPlaced stack.cards stack.gone card = true
  · rw [isPlaced, Bool.or_eq_true, List.contains_iff_mem, List.contains_iff_mem] at placed
    exact placed.imp_left (List.mem_append_right _)
  · have missing : card ∈ stack.unplaced :=
      List.mem_filter.mpr ⟨Widget.mem_all card, by simpa using placed⟩
    exact .inl (List.mem_append_left _ missing)

theorem complete_replaced (complete : stack.Complete) : stack.replaced.Complete := by
  intro card
  rcases complete card with placed | removed
  · exact .inl (List.mem_append_right _ placed)
  · by_cases shown : stack.shown card = true
    · by_cases placed : card ∈ stack.cards
      · exact .inl (List.mem_append_right _ placed)
      · have restored : card ∈ stack.restored :=
          List.mem_filter.mpr ⟨removed, by simp [shown, placed]⟩
        exact .inl (List.mem_append_left _ restored)
    · exact .inr (List.mem_filter.mpr ⟨removed, by simpa using shown⟩)

theorem hidden_replaced (stack : Stack) :
    ∀ card ∈ stack.replaced.gone, stack.replaced.shown card = false := by
  intro card removed
  have hidden : stack.shown card = false := by simpa using (List.mem_filter.mp removed).2
  exact hidden

/-- The steps put every card into one of the lists if the last but one is among them, or if every
card is in one of the lists already. -/
theorem complete_early (early : dated < 5) (placed : dated < 4 ∨ stack.Complete) :
    (stack.migrated dated).Complete := by
  rw [migrated_eq]
  simp only [if_pos early]
  apply complete_replaced
  by_cases unfilled : dated < 4
  · rw [if_pos unfilled]
    exact complete_filled _
  · -- From version 2 on the arrangement is the order.
    have flat : ¬dated < 2 := fun flat => unfilled (UInt32.lt_trans flat (by decide))
    have same : stack.arrangement dated = stack.cards := by
      rw [arrangement, if_neg flat, if_pos early, cards]
    intro card
    rw [if_neg unfilled, cards_opened early, gone_opened, same]
    exact placed.resolve_left unfilled card

theorem hidden_early (early : dated < 5) (removed : card ∈ (stack.migrated dated).gone) :
    stack.shown card = false := by
  have kept : (stack.migrated dated).shown card = stack.shown card := congrFun shown_migrated card
  rw [← kept]
  rw [migrated_eq] at removed ⊢
  simp only [if_pos early] at removed ⊢
  exact hidden_replaced _ card removed

theorem Complete.settled (complete : stack.Complete) (card : Widget) :
    card ∈ stack.order.getD Settings.default.stackOrder ∨
      card ∈ stack.removed.getD Settings.default.removed := by
  cases present : stack.order with
  | none => exact .inl (Widget.mem_all card)
  | some order =>
    have placed := complete card
    rw [cards, present] at placed
    exact placed

end Lists

end Stack

/-- A record without a stamp, or with an early one, has every card in one of the lists once it is
migrated, and no removed card is shown. No list has a repeat. -/
theorem current_shape_reached {record : Record} {outcome : Outcome}
    (ran : widgetStack.run record = .ok outcome) :
    (StampUpTo 3 record → ∀ card,
      card ∈ outcome.settings.stackOrder ∨ card ∈ outcome.settings.removed) ∧
    (StampUpTo 4 record → ∀ card ∈ outcome.settings.removed,
      outcome.settings.isShown card = false) ∧
    outcome.settings.Distinct := by
  obtain ⟨stack, read, detected, order, removed, shown⟩ := Stack.migrated_of_run ran
  refine ⟨?_, ?_, Chain.distinct_of_run ran⟩
  · intro low card
    rw [order, removed]
    apply Stack.Complete.settled
    have placed : outcome.dated < 4 ∨ stack.Complete := by
      by_cases early : outcome.dated < 4
      · exact .inl early
      · exact .inr (read.listed.everyCardPlaced.mp (everyCardPlaced_of_detect low detected early))
    by_cases unsettled : outcome.dated < 5
    · exact Stack.complete_early unsettled placed
    · rw [Stack.migrated_late unsettled]
      have filled : ¬outcome.dated < 4 := fun early => unsettled (UInt32.lt_trans early (by decide))
      exact placed.resolve_left filled
  · intro low card gone
    rw [removed] at gone
    rw [shown, Stack.shown_migrated]
    by_cases unsettled : outcome.dated < 5
    · exact Stack.hidden_early unsettled gone
    · rw [Stack.migrated_late unsettled] at gone
      have known := noShownCardRemoved_of_detect low detected unsettled
      exact (read.listed.noShownCardRemoved fun card _ => read.shown card).mp known card gone

/-- A record without a stamp that places every card, one of them shown although removed. -/
def reshown : Record :=
  .ofList [("showRewards", .boolean true),
    (Field.stackOrder.key, widgetList [.binance, .together, .bitcoinDotCom, .cryptoDotCom]),
    (Field.removed.key, widgetList [.rewards, .gemini])]

def reshownPlaced : Settings :=
  { Settings.default.setFlag (.widget .rewards) true with
    stackOrder := [.rewards, .binance, .together, .bitcoinDotCom, .cryptoDotCom]
    removed := [.gemini] }

theorem reshown_card_placed :
    widgetStack.run reshown = .ok ⟨reshownPlaced, 4, 5, ["replace-stack-widgets"]⟩ ∧
    StampUpTo 3 reshown ∧ StampUpTo 4 reshown ∧
    (∀ card, card ∈ reshownPlaced.stackOrder ∨ card ∈ reshownPlaced.removed) ∧
    (∀ card ∈ reshownPlaced.removed, reshownPlaced.isShown card = false) ∧
    reshownPlaced.Distinct := by
  have ran : widgetStack.run reshown =
      .ok ⟨reshownPlaced, 4, 5, ["replace-stack-widgets"]⟩ := by decide +kernel
  have unstamped : reshown.present? versionKey = none := by decide +kernel
  have low : ∀ limit, StampUpTo limit reshown := by
    intro limit stamp present
    cases unstamped.symm.trans present
  obtain ⟨complete, hidden, distinct⟩ := current_shape_reached ran
  exact ⟨ran, low 3, low 4, complete (low 3), hidden (low 4), distinct⟩

end StartPage.Migration
