import StartPage.Migration.WidgetStack
import StartPage.Proofs.Json.RoundTrip
import StartPage.Proofs.MessagePack.RoundTrip
import StartPage.Proofs.Settings

/-!
What a chain has stored it does not change again. No step has a version above the stamp, so a
stamped record is dated by its stamp and no step applies to it, whatever the steps would do; and
the record comes back from its bytes in either form. The settings that a chain gives hold no card
twice, so storing and reading them again gives the same settings.
-/
namespace StartPage

theorem Value.natural?_eq_some_iff {value : Value} {n : Nat} :
    value.natural? = some n ↔ value = .ofNat n := by
  constructor
  · intro whole
    rw [natural?.eq_def] at whole
    split at whole
    case h_1 number =>
      split at whole
      case isTrue positive =>
        obtain rfl := Option.some.inj whole
        rw [ofNat, Int.toNat_of_nonneg positive]
      case isFalse => cases whole
    case h_2 => cases whole
  · rintro rfl
    simp [ofNat, natural?]

namespace Migration

namespace Chain

variable {chain : Chain} {settings : Settings}

attribute [local irreducible] Settings.toRecord

/-- The chain reads the record as the settings, and no step applies to it. -/
def Settles (chain : Chain) (record : Record) (settings : Settings) : Prop :=
  chain.run record = .ok ⟨settings, chain.current, chain.current, []⟩

theorem newer_current (chain : Chain) : chain.newer chain.current = [] := by
  rw [newer, List.filter_eq_nil_iff]
  intro step member
  have known : step.version ∈ chain.base :: chain.steps.map Step.version :=
    List.mem_cons_of_mem _ (List.mem_map_of_mem member)
  have below : step.version ≤ chain.current := le_getLast chain.ascending step.version known
  simpa using below

theorem detect_of_present {record : Record} {stamp : Value} {version : Version}
    (present : record.present? versionKey = some stamp) :
    chain.detect record = .ok version ↔ stamp = .ofNat version.toNat := by
  rw [detect, present]
  constructor
  · intro detected
    cases natural : stamp.natural? with
    | none =>
      simp only [natural] at detected
      cases detected
    | some number =>
      simp only [natural] at detected
      split at detected
      case isTrue small =>
        obtain rfl := Except.ok.inj detected
        rw [UInt32.toNat_ofNat_of_lt' small]
        exact Value.natural?_eq_some_iff.mp natural
      case isFalse => cases detected
  · intro same
    simp only [Value.natural?_eq_some_iff.mpr same, if_pos version.toNat_lt, UInt32.ofNat_toNat]

theorem detect_stamp (chain : Chain) (settings : Settings) :
    chain.detect (chain.stamp settings) = .ok chain.current :=
  (detect_of_present Settings.present?_versionKey).mpr rfl

theorem run_eq_ok_iff {record : Record} {outcome : Outcome} :
    chain.run record = .ok outcome ↔ ∃ dated after settings,
      chain.detect record = .ok dated ∧
      (chain.newer dated).foldlM (fun record step => step.apply record) record = .ok after ∧
      Settings.ofRecord (after.erase versionKey) = .ok settings ∧
      outcome = ⟨settings, dated, chain.current, (chain.newer dated).map Step.name⟩ := by
  rw [run]
  constructor
  · intro ran
    obtain ⟨dated, detected, ran⟩ := bind_ok ran
    obtain ⟨after, applied, ran⟩ := bind_ok ran
    obtain ⟨settings, read, ran⟩ := bind_ok ran
    exact ⟨dated, after, settings, detected, applied, read, (Except.ok.inj ran).symm⟩
  · rintro ⟨dated, after, settings, detected, applied, read, rfl⟩
    simp only [detected, bind, Except.bind, applied, read]
    rfl

theorem settles_stamp (chain : Chain) (settings : Settings) :
    chain.Settles (chain.stamp settings) settings.withoutRepeats := by
  -- No step is newer than the stamp, so the steps leave the record alone.
  have idle : (chain.newer chain.current).foldlM (fun record step => step.apply record)
      (chain.stamp settings) = .ok (chain.stamp settings) := by
    rw [newer_current]
    rfl
  apply run_eq_ok_iff.mpr
  refine ⟨chain.current, chain.stamp settings, settings.withoutRepeats,
    detect_stamp chain settings, idle, Settings.ofRecord_toRecord, ?_⟩
  rw [newer_current, List.map_nil]

theorem decode_encode_stamp (chain : Chain) {format : Format}
    (short : format = .messagePack →
      settings.stackOrder.length < 2 ^ 32 ∧ settings.removed.length < 2 ^ 32) :
    ∃ bytes, format.codec.encode (chain.stamp settings) = some bytes ∧
      format.codec.decode bytes = .ok (chain.stamp settings) := by
  rw [stamp]
  have whole := Settings.wholeNumbers_toRecord settings chain.current
  have ascend := Settings.ascending_toRecord settings chain.current
  have flat := Settings.depth_toRecord_le settings chain.current
  cases format with
  | json =>
    exact ⟨_, rfl, Json.decode_encode whole ascend (Nat.le_trans flat (by decide))⟩
  | messagePack =>
    obtain ⟨order, removed⟩ := short rfl
    have fit := Settings.lengthsFit_toRecord chain.current order removed
    have read := MessagePack.decode_encode whole ascend fit (Nat.le_trans flat (by decide)) []
    rw [List.append_nil] at read
    exact ⟨_, rfl, read⟩

theorem distinct_of_run {record : Record} {outcome : Outcome}
    (ran : chain.run record = .ok outcome) : outcome.settings.Distinct := by
  obtain ⟨dated, after, settings, -, -, read, rfl⟩ := run_eq_ok_iff.mp ran
  exact Settings.ofRecord_distinct read

/-- The chain settles on the settings when it reads the record for `stored` from its bytes. -/
def SettlesFrom (chain : Chain) (format : Format) (stored settings : Settings) : Prop :=
  ∃ bytes record, format.codec.encode (chain.stamp stored) = some bytes ∧
    format.codec.decode bytes = .ok record ∧ chain.Settles record settings

theorem settlesFrom_stamp (chain : Chain) {format : Format}
    (short : format = .messagePack →
      settings.stackOrder.length < 2 ^ 32 ∧ settings.removed.length < 2 ^ 32) :
    chain.SettlesFrom format settings settings.withoutRepeats := by
  obtain ⟨bytes, encoded, decoded⟩ := decode_encode_stamp chain short
  exact ⟨bytes, _, encoded, decoded, settles_stamp chain settings⟩

end Chain

/-- A stamped record is a fixed point of its chain: no step applies to it and its settings come
back, each list of cards without its repeats, also by way of either format; MessagePack counts
what a list holds in four bytes. What a chain gives comes back exactly. -/
theorem stamped_records_settle (chain : Chain) (settings : Settings) :
    chain.Settles (chain.stamp settings) settings.withoutRepeats ∧
    (∀ format : Format,
      (format = .messagePack →
        settings.stackOrder.length < 2 ^ 32 ∧ settings.removed.length < 2 ^ 32) →
      chain.SettlesFrom format settings settings.withoutRepeats) ∧
    ∀ record outcome, chain.run record = .ok outcome →
      chain.Settles (chain.stamp outcome.settings) outcome.settings ∧
      ∀ format : Format, chain.SettlesFrom format outcome.settings outcome.settings := by
  constructor
  · exact Chain.settles_stamp chain settings
  · constructor
    · intro format short
      exact Chain.settlesFrom_stamp chain short
    · intro record outcome ran
      have distinct := Chain.distinct_of_run ran
      have same := Settings.withoutRepeats_of_distinct distinct
      have settles := Chain.settles_stamp chain outcome.settings
      rw [same] at settles
      constructor
      · exact settles
      · intro format
        -- There are six cards, so lists without repeats are short enough for either format.
        have order := Settings.length_le_of_nodup distinct.1
        have removed := Settings.length_le_of_nodup distinct.2
        have settlesFrom :
            chain.SettlesFrom format outcome.settings outcome.settings.withoutRepeats :=
          Chain.settlesFrom_stamp chain fun _ => ⟨by omega, by omega⟩
        rwa [same] at settlesFrom

def repeated : Settings :=
  { Settings.default with
    stackOrder := [.together, .rewards, .together]
    removed := [.gemini, .gemini] }

def flat : Record :=
  .ofList [("showRewards", .boolean true), (legacyFrontKey, .string "gemini")]

def upToDate : Settings :=
  { Settings.default.setFlag (.widget .rewards) true with
    stackOrder := [.binance, .together, .bitcoinDotCom, .cryptoDotCom, .rewards, .gemini] }

theorem page_records_settle :
    (repeated.stackOrder.length < 2 ^ 32 ∧ repeated.removed.length < 2 ^ 32) ∧
    widgetStack.SettlesFrom .messagePack repeated
      { repeated with stackOrder := [.together, .rewards], removed := [.gemini] } ∧
    widgetStack.run flat = .ok ⟨upToDate, 1, 5, widgetStackSteps.map Step.name⟩ ∧
    widgetStack.Settles (widgetStack.stamp upToDate) upToDate ∧
    widgetStack.SettlesFrom .json upToDate upToDate := by
  have short : repeated.stackOrder.length < 2 ^ 32 ∧ repeated.removed.length < 2 ^ 32 := by decide
  have ran : widgetStack.run flat = .ok ⟨upToDate, 1, 5, widgetStackSteps.map Step.name⟩ := by
    decide +kernel
  obtain ⟨-, stored, again⟩ := stamped_records_settle widgetStack repeated
  obtain ⟨settles, bytes⟩ := again flat _ ran
  exact ⟨short, stored .messagePack fun _ => short, ran, settles, bytes .json⟩

end Migration
end StartPage
