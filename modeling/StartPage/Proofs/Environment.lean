import Mathlib.Data.Nat.Digits.Defs
import StartPage.Proofs.Sequences
import StartPage.Proofs.Store.Life
import StartPage.Proofs.Trimming

/-!
What an environment asks for, and what becomes of it. A variable that is not set leaves its
default; one that is set is read by itself, whatever the others hold. An environment may offend in
more than one way, and the offence that is reported is the first in the order of the checks. A
configuration that was read needs no further check: a store can be made with it.
-/
namespace StartPage

namespace Text

/-- At most one plus sign, then decimal digits, and one of them at least. -/
def Denotes (text : List Char) (value : Nat) : Prop :=
  ∃ digits : List Char, (text = digits ∨ text = '+' :: digits) ∧ digits ≠ [] ∧
    (∀ c ∈ digits, c.isDigit = true) ∧
    Nat.ofDigits 10 (digits.reverse.map fun c => c.toNat - '0'.toNat) = value

def unsigned : List Char → List Char
  | '+' :: rest => rest
  | text => text

theorem unsigned_digits {digits : List Char} (all : ∀ c ∈ digits, c.isDigit = true) :
    unsigned digits = digits := by
  unfold unsigned
  split
  · exact absurd (all '+' (by simp)) (by decide)
  · rfl

theorem denotes_iff {text : List Char} {value : Nat} :
    Denotes text value ↔ unsigned text ≠ [] ∧ (∀ c ∈ unsigned text, c.isDigit = true) ∧
      Nat.ofDigits 10 ((unsigned text).reverse.map fun c => c.toNat - '0'.toNat) = value := by
  constructor
  · rintro ⟨digits, rfl | rfl, some, all, counts⟩
    · rw [unsigned_digits all]
      exact ⟨some, all, counts⟩
    · exact ⟨some, all, counts⟩
  · rintro ⟨some, all, counts⟩
    refine ⟨unsigned text, ?_, some, all, counts⟩
    unfold unsigned
    split
    · exact .inr rfl
    · exact .inl rfl

theorem Denotes.unique {text : List Char} {value other : Nat} (one : Denotes text value)
    (two : Denotes text other) : value = other :=
  (denotes_iff.mp one).2.2.symm.trans (denotes_iff.mp two).2.2

/-- Digits read from the left count for what their places say. -/
theorem foldl_digits (digits : List Char) :
    digits.foldl (fun total c => 10 * total + (c.toNat - '0'.toNat)) 0 =
      Nat.ofDigits 10 (digits.reverse.map fun c => c.toNat - '0'.toNat) := by
  rw [Nat.ofDigits_eq_foldr, List.foldr_map, List.foldr_reverse]
  simp only [Nat.add_comm, Nat.cast_id]

end Text

def Format.names : Format → List String
  | .json => ["json"]
  | .messagePack => ["msgpack", "messagepack"]

theorem Format.parse_cases (text : String) :
    (∃ format : Format, Text.lower text ∈ format.names ∧ Format.parse text = .ok format) ∨
      (∀ format : Format, Text.lower text ∉ format.names) ∧
        Format.parse text = .error (.unknownFormat (Text.lower text)) := by
  simp only [Format.parse]
  by_cases json : Text.lower text = "json"
  · exact .inl ⟨.json, by simp [Format.names, json], if_pos json⟩
  rw [if_neg json]
  by_cases other : Text.lower text = "msgpack" ∨ Text.lower text = "messagepack"
  · exact .inl ⟨.messagePack, by simpa [Format.names] using other, if_pos other⟩
  · refine .inr ⟨fun format => ?_, if_neg other⟩
    cases format with
    | json => simpa [Format.names] using json
    | messagePack => simpa [Format.names] using other

theorem Format.names_disjoint {name : String} {one two : Format} (first : name ∈ one.names)
    (second : name ∈ two.names) : one = two := by
  cases one <;> cases two <;> simp_all [Format.names]

namespace Config

open Text (Denotes)

variable {lookup : String → Option String} {config other : Config} {fault : ConfigError}

theorem natural?_eq (text : List Char) :
    natural? text =
      let digits := Text.unsigned text
      if digits = [] ∨ !digits.all Char.isDigit then none
      else
        let value := digits.foldl (fun total c => 10 * total + (c.toNat - '0'.toNat)) 0
        if value < UInt64.size then some value else none := by
  fun_cases Text.unsigned text with
  | case1 rest => rfl
  | case2 text notPlus =>
    unfold natural?
    split
    · exact absurd rfl (notPlus _)
    · rfl

theorem natural?_eq_some_iff {text : List Char} {value : Nat} :
    natural? text = some value ↔ Denotes text value ∧ value < UInt64.size := by
  rw [natural?_eq, Text.denotes_iff, ← Text.foldl_digits]
  simp only [Option.ite_none_left_eq_some, Option.ite_none_right_eq_some, Option.some.injEq,
    not_or, Bool.not_eq_true', Bool.not_eq_false, List.all_eq_true]
  constructor
  · rintro ⟨⟨some, all⟩, small, rfl⟩
    exact ⟨⟨some, all, rfl⟩, small⟩
  · rintro ⟨⟨some, all, rfl⟩, small⟩
    exact ⟨⟨some, all⟩, small, rfl⟩

def WindowMeans (text : String) (window : Nat) : Prop := Denotes (Text.trim text).toList window

def FormatMeans (text : String) (format : Format) : Prop :=
  Text.lower (Text.trim text) ∈ format.names

/-- A part is what its variable means, or is the default where the variable is not set. -/
def FromVariable {α : Type} (given : Option String) (means : String → α → Prop) (default part : α) :
    Prop :=
  match given with
  | some text => means text part
  | none => part = default

structure Reads (lookup : String → Option String) (config : Config) : Prop where
  key : FromVariable (lookup keyVariable) (fun text key => key = Text.trim text) "new-tab-data"
    config.key
  window : FromVariable (lookup windowVariable) WindowMeans 50 config.window
  format : FromVariable (lookup formatVariable) FormatMeans .json config.format

structure Accepted (lookup : String → Option String) : Prop where
  key : ∀ text ∈ lookup keyVariable, ∃ c ∈ text.toList, Text.isBlank c = false
  window : ∀ text ∈ lookup windowVariable,
    ∃ window, 1 ≤ window ∧ window ≤ 2 ^ 64 - 1 ∧ WindowMeans text window
  format : ∀ text ∈ lookup formatVariable, ∃ format, FormatMeans text format

/-- What an environment does wrong, each offence with the fault that reports it. -/
inductive Offends (lookup : String → Option String) : ConfigError → Prop
  | window {text : String} (given : lookup windowVariable = some text)
      (unread : ∀ window ≤ 2 ^ 64 - 1, ¬ WindowMeans text window) :
      Offends lookup (.windowNotNumber windowVariable text)
  | format {text : String} (given : lookup formatVariable = some text)
      (unnamed : ∀ format, ¬ FormatMeans text format) :
      Offends lookup (.unknownFormat (Text.lower (Text.trim text)))
  | key {text : String} (given : lookup keyVariable = some text)
      (blank : ∀ c ∈ text.toList, Text.isBlank c = true) : Offends lookup .emptyKey
  | zero {text : String} (given : lookup windowVariable = some text)
      (nothing : WindowMeans text 0) : Offends lookup .zeroWindow

def checkOf : ConfigError → Nat
  | .windowNotNumber _ _ => 0
  | .unknownFormat _ => 1
  | .emptyKey => 2
  | .zeroWindow => 3

structure FirstOffence (lookup : String → Option String) (fault : ConfigError) : Prop where
  offends : Offends lookup fault
  first : ∀ other, Offends lookup other → checkOf fault ≤ checkOf other

/-! Offences and what was accepted exclude each other, and so do two outcomes. -/

theorem FromVariable.unique {α : Type} {given : Option String} {means : String → α → Prop}
    {default one two : α} (first : FromVariable given means default one)
    (second : FromVariable given means default two)
    (functional : ∀ text a b, means text a → means text b → a = b) : one = two := by
  cases given with
  | some text => exact functional text one two first second
  | none => exact first.trans second.symm

theorem FromVariable.told {α : Type} {given : Option String} {means : String → α → Prop}
    {default part : α} (reads : FromVariable given means default part) :
    ∀ text ∈ given, means text part := by
  rintro text ⟨⟩
  exact reads

theorem Reads.unique (one : Reads lookup config) (two : Reads lookup other) : config = other := by
  have key := one.key.unique two.key fun _ _ _ first second => first.trans second.symm
  have window := one.window.unique two.window fun _ _ _ first second => first.unique second
  have format := one.format.unique two.format fun _ _ _ => Format.names_disjoint
  cases config
  cases other
  simp_all

theorem Offends.eq_of_check {one two : ConfigError} (first : Offends lookup one)
    (second : Offends lookup two) (same : checkOf one = checkOf two) : one = two := by
  cases first <;> cases second <;> simp_all [checkOf]

theorem FirstOffence.unique {one two : ConfigError} (left : FirstOffence lookup one)
    (right : FirstOffence lookup two) : one = two :=
  left.offends.eq_of_check right.offends
    (Nat.le_antisymm (left.first two right.offends) (right.first one left.offends))

theorem Accepted.not_offends (accepted : Accepted lookup) : ¬ Offends lookup fault := by
  intro offence
  cases offence with
  | window given unread =>
    obtain ⟨window, -, small, means⟩ := accepted.window _ given
    exact unread window small means
  | format given unnamed =>
    obtain ⟨format, means⟩ := accepted.format _ given
    exact unnamed format means
  | key given blank =>
    obtain ⟨c, member, solid⟩ := accepted.key _ given
    simp [blank c member] at solid
  | zero given nothing =>
    obtain ⟨window, some, -, means⟩ := accepted.window _ given
    rw [Denotes.unique means nothing] at some
    contradiction

/-! Each check that was passed leaves only the later offences. -/

theorem Offends.past_window {window : Nat} (offence : Offends lookup fault)
    (reads : FromVariable (lookup windowVariable) WindowMeans 50 window)
    (small : window ≤ 2 ^ 64 - 1) : 1 ≤ checkOf fault := by
  cases offence with
  | window given unread => exact absurd (reads.told _ given) (unread window small)
  | format | key | zero => simp [checkOf]

theorem Offends.past_format {format : Format} (offence : Offends lookup fault)
    (reads : FromVariable (lookup formatVariable) FormatMeans .json format)
    (later : 1 ≤ checkOf fault) : 2 ≤ checkOf fault := by
  cases offence with
  | window => contradiction
  | format given unnamed => exact absurd (reads.told _ given) (unnamed format)
  | key | zero => simp [checkOf]

theorem Offends.past_key (offence : Offends lookup fault)
    (solid : ∀ text ∈ lookup keyVariable, ∃ c ∈ text.toList, Text.isBlank c = false)
    (later : 2 ≤ checkOf fault) : 3 ≤ checkOf fault := by
  cases offence with
  | window | format => contradiction
  | key given blank =>
    obtain ⟨c, member, shown⟩ := solid _ given
    simp [blank c member] at shown
  | zero => simp [checkOf]

/-! What is read from each variable, check by check. -/

/-- The key, which is read before it is checked. -/
def givenKey (lookup : String → Option String) : String :=
  ((lookup keyVariable).map Text.trim).getD "new-tab-data"

def givenWindow (lookup : String → Option String) : Except ConfigError Nat :=
  match lookup windowVariable with
  | some text => parseWindow text
  | none => .ok 50

def givenFormat (lookup : String → Option String) : Except ConfigError Format :=
  match lookup formatVariable with
  | some text => Format.parse (Text.trim text)
  | none => .ok .json

theorem ofEnvironment_eq (lookup : String → Option String) :
    ofEnvironment lookup = givenWindow lookup >>= fun window =>
      givenFormat lookup >>= fun format => validate { key := givenKey lookup, window, format } := by
  unfold ofEnvironment givenWindow givenFormat
  cases lookup windowVariable <;> cases lookup formatVariable <;> rfl

theorem givenKey_reads (lookup : String → Option String) :
    FromVariable (lookup keyVariable) (fun text key => key = Text.trim text) "new-tab-data"
      (givenKey lookup) := by
  unfold givenKey FromVariable
  cases lookup keyVariable <;> rfl

theorem givenWindow_cases (lookup : String → Option String) :
    (∃ window ≤ 2 ^ 64 - 1, givenWindow lookup = .ok window ∧
        FromVariable (lookup windowVariable) WindowMeans 50 window) ∨
      ∃ fault, givenWindow lookup = .error fault ∧ Offends lookup fault ∧ checkOf fault = 0 := by
  unfold givenWindow
  cases given : lookup windowVariable with
  | none => exact .inl ⟨50, by decide, rfl, rfl⟩
  | some text =>
    simp only [parseWindow]
    cases read : natural? (Text.trim text).toList with
    | some window =>
      obtain ⟨means, small⟩ := natural?_eq_some_iff.mp read
      exact .inl ⟨window, Nat.le_pred_of_lt small, rfl, means⟩
    | none =>
      refine .inr ⟨_, rfl, .window given fun window small means => ?_, rfl⟩
      have read' := natural?_eq_some_iff.mpr ⟨means, Nat.lt_of_le_pred (by decide) small⟩
      rw [read] at read'
      cases read'

theorem givenFormat_cases (lookup : String → Option String) :
    (∃ format, givenFormat lookup = .ok format ∧
        FromVariable (lookup formatVariable) FormatMeans .json format) ∨
      ∃ fault, givenFormat lookup = .error fault ∧ Offends lookup fault ∧ checkOf fault = 1 := by
  unfold givenFormat
  cases given : lookup formatVariable with
  | none => exact .inl ⟨.json, rfl, rfl⟩
  | some text =>
    rcases Format.parse_cases (Text.trim text) with ⟨format, means, parsed⟩ | ⟨unnamed, failed⟩
    · exact .inl ⟨format, parsed, means⟩
    · exact .inr ⟨_, failed, .format given unnamed, rfl⟩

theorem Reads.isBlank_key_iff (reads : Reads lookup config) :
    isBlank config.key = true ↔
      ∃ text ∈ lookup keyVariable, ∀ c ∈ text.toList, Text.isBlank c = true := by
  have key := reads.key
  cases given : lookup keyVariable with
  | none =>
    rw [given] at key
    rw [show config.key = "new-tab-data" from key]
    exact ⟨fun blank => absurd blank (by decide), nofun⟩
  | some text =>
    rw [show config.key = Text.trim text from key.told text given, isBlank, List.all_eq_true,
      Text.blank_trim_iff]
    simp

theorem Reads.zero_offends (reads : Reads lookup config) (zero : config.window = 0) :
    Offends lookup .zeroWindow := by
  have window := reads.window
  rw [zero] at window
  cases given : lookup windowVariable with
  | none =>
    rw [given] at window
    contradiction
  | some text => exact .zero given (window.told text given)

theorem Reads.validate_cases (reads : Reads lookup config) :
    (config.validate = .ok config ∧ 1 ≤ config.window ∧
        ∀ text ∈ lookup keyVariable, ∃ c ∈ text.toList, Text.isBlank c = false) ∨
      ∃ fault, config.validate = .error fault ∧ Offends lookup fault ∧
        ∀ other, Offends lookup other → 2 ≤ checkOf other → checkOf fault ≤ checkOf other := by
  rw [validate]
  by_cases blank : isBlank config.key = true
  · obtain ⟨text, given, all⟩ := reads.isBlank_key_iff.mp blank
    exact .inr ⟨.emptyKey, if_pos blank, .key given all, fun _ _ later => later⟩
  have solid : ∀ text ∈ lookup keyVariable, ∃ c ∈ text.toList, Text.isBlank c = false := by
    simpa [reads.isBlank_key_iff] using blank
  rw [if_neg blank]
  by_cases zero : config.window = 0
  · exact .inr ⟨.zeroWindow, if_pos zero, reads.zero_offends zero,
      fun _ offends later => offends.past_key solid later⟩
  · exact .inl ⟨if_neg zero, Nat.pos_of_ne_zero zero, solid⟩

theorem ofEnvironment_cases (lookup : String → Option String) :
    (∃ config, ofEnvironment lookup = .ok config ∧ Accepted lookup ∧ Reads lookup config ∧
        config.validate = .ok config) ∨
      ∃ fault, ofEnvironment lookup = .error fault ∧ FirstOffence lookup fault := by
  rw [ofEnvironment_eq]
  rcases givenWindow_cases lookup with
    ⟨window, small, given, readsWindow⟩ | ⟨fault, given, offence, check⟩
  case inr =>
    exact .inr ⟨fault, by rw [given]; rfl, offence, fun other _ => check ▸ Nat.zero_le _⟩
  rcases givenFormat_cases lookup with ⟨format, named, readsFormat⟩ | ⟨fault, named, offence, check⟩
  case inr =>
    exact .inr ⟨fault, by rw [given, named]; rfl, offence,
      fun other offends => check ▸ offends.past_window readsWindow small⟩
  have reads : Reads lookup { key := givenKey lookup, window, format } :=
    ⟨givenKey_reads lookup, readsWindow, readsFormat⟩
  rw [given, named]
  rcases reads.validate_cases with ⟨valid, some, solid⟩ | ⟨fault, failed, offence, first⟩
  · refine .inl ⟨_, valid, ⟨solid, ?_, ?_⟩, reads, valid⟩
    · exact fun text set => ⟨window, some, small, readsWindow.told text set⟩
    · exact fun text set => ⟨format, readsFormat.told text set⟩
  · refine .inr ⟨fault, failed, offence, fun other offends => first other offends ?_⟩
    exact offends.past_format readsFormat (offends.past_window readsWindow small)

theorem Accepted.ofEnvironment_eq (accepted : Accepted lookup) :
    ∃ config, ofEnvironment lookup = .ok config ∧ Reads lookup config := by
  rcases ofEnvironment_cases lookup with ⟨config, read, -, reads, -⟩ | ⟨fault, -, first⟩
  · exact ⟨config, read, reads⟩
  · exact absurd first.offends accepted.not_offends

theorem ofEnvironment_ok (read : ofEnvironment lookup = .ok config) :
    Accepted lookup ∧ Reads lookup config ∧ config.validate = .ok config := by
  rcases ofEnvironment_cases lookup with ⟨made, same, kept⟩ | ⟨fault, failed, -⟩
  · rw [read] at same
    cases same
    exact kept
  · rw [read] at failed
    cases failed

theorem ofEnvironment_eq_ok_iff :
    ofEnvironment lookup = .ok config ↔ Accepted lookup ∧ Reads lookup config := by
  constructor
  · intro read
    obtain ⟨accepted, reads, -⟩ := ofEnvironment_ok read
    exact ⟨accepted, reads⟩
  · rintro ⟨accepted, reads⟩
    obtain ⟨made, read, reads'⟩ := accepted.ofEnvironment_eq
    rw [read, reads.unique reads']

theorem ofEnvironment_eq_error_iff :
    ofEnvironment lookup = .error fault ↔ FirstOffence lookup fault := by
  rcases ofEnvironment_cases lookup with ⟨config, read, accepted, -⟩ | ⟨other, failed, first⟩
  · rw [read]
    exact ⟨nofun, fun first => absurd first.offends accepted.not_offends⟩
  · rw [failed]
    constructor
    · rintro ⟨⟩
      exact first
    · exact fun reported => congrArg Except.error (first.unique reported)

theorem new_of_valid (valid : config.validate = .ok config) (chain : Migration.Chain)
    (host : Host) : ∃ store, Store.new config chain host = .ok store := by
  refine ⟨{ config, chain, codec := config.format.codec, session := .ofHost host }, ?_⟩
  rw [Store.new, valid]
  rfl

end Config

/-- An environment is accepted exactly when each variable that is set holds what it must. Then every
part is what its own variable means or its default, the configuration passes every check again, and
a store can be made with it. Otherwise the fault is that of the first offence in the order of the
checks. -/
theorem environment_read_in_order (lookup : String → Option String) :
    ((∃ config, Config.ofEnvironment lookup = .ok config) ↔ Config.Accepted lookup) ∧
    (∀ config, Config.ofEnvironment lookup = .ok config ↔
      Config.Accepted lookup ∧ Config.Reads lookup config) ∧
    (∀ config, Config.ofEnvironment lookup = .ok config → config.validate = .ok config ∧
      ∀ chain host, ∃ store, Store.new config chain host = .ok store) ∧
    ∀ fault, Config.ofEnvironment lookup = .error fault ↔ Config.FirstOffence lookup fault := by
  refine ⟨⟨?_, ?_⟩, fun config => Config.ofEnvironment_eq_ok_iff, ?_,
    fun fault => Config.ofEnvironment_eq_error_iff⟩
  · rintro ⟨config, read⟩
    exact (Config.ofEnvironment_ok read).1
  · intro accepted
    obtain ⟨config, read, -⟩ := accepted.ofEnvironment_eq
    exact ⟨config, read⟩
  · intro config read
    obtain ⟨-, -, valid⟩ := Config.ofEnvironment_ok read
    exact ⟨valid, fun chain host => Config.new_of_valid valid chain host⟩

example : Config.ofEnvironment (fun name =>
    if name = Config.windowVariable then some " +007\n" else none) = .ok { window := 7 } := by
  decide +kernel

end StartPage
