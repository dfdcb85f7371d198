import StartPage.Proofs.Json.Extension
import StartPage.Proofs.Store.Reopening

/-!
Records in the other format. What JSON writes begins with a brace, which MessagePack takes for a
small number, complete by itself; what MessagePack writes begins with a byte beyond ASCII, and no
JSON text does. So neither format takes the other's record for one of its own, and a store that
finds such a record starts from the defaults and leaves it where it is.
-/
namespace StartPage

open Migration (Chain)

namespace Json

variable {byte : UInt8}

theorem char_ne_of_high (high : 128 ≤ byte.toNat) {c : Char} (ascii : c.toNat < 128) :
    char byte ≠ c := by
  rw [Ne, char_eq_iff]
  omega

theorem not_isBlank_of_high (high : 128 ≤ byte.toNat) : isBlank byte = false := by
  have other {c : Char} (ascii : c.toNat < 128) := char_ne_of_high high ascii
  simp [isBlank, other]

theorem readNode_high (high : 128 ≤ byte.toNat) (room limit : Nat) (rest : Bytes) :
    readNode room limit (byte :: rest) = none := by
  have skipped : skipBlank (byte :: rest) = byte :: rest :=
    List.dropWhile_cons_of_neg (by simp [not_isBlank_of_high high])
  have digit : isDigit byte = false := by
    rw [isDigit, Bool.eq_false_iff]
    intro digit
    exact char_ne_of_high high (ascii_of_isDigit digit) rfl
  have numeral := readNumeral_other (char_ne_of_high high (by decide)) digit rest
  rw [readNode_eq, skipped]
  simp only [numeral]
  split
  case h_7 => rfl
  all_goals exact absurd ‹char byte = _› (char_ne_of_high high (by decide))

theorem decode_high (high : 128 ≤ byte.toNat) (rest : Bytes) :
    decode (byte :: rest) = .error (.malformed .json) := by
  have filled : isEmptyByte byte = false := by
    have feed : byte ≠ 12 := by
      rintro rfl
      exact absurd high (by decide)
    simp [isEmptyByte, not_isBlank_of_high high, feed]
  rw [decode, List.all_cons, filled, readValue, read, readNode_high high]
  rfl

end Json

namespace MessagePack

variable {byte : UInt8}

theorem decode_low (low : byte.toNat < 128) (rest : Bytes) :
    decode (byte :: rest) = .error (.notMapping .number) := by
  have head : readHead (byte :: rest) = some (integer byte.toNat, rest) := by
    rw [readHead, if_pos low]
  rw [decode, if_neg (List.cons_ne_nil _ _), readValue, head]
  rfl

theorem encode_opens (record : Record) :
    ∃ byte rest, encode record = byte :: rest ∧ 128 ≤ byte.toNat := by
  have head (length : Nat) :
      ∃ byte rest, mappingBytes length = byte :: rest ∧ 128 ≤ byte.toNat := by
    rw [mappingBytes, countedBytes]
    split
    · refine ⟨UInt8.ofNat (0x80 + length), [], rfl, ?_⟩
      rw [UInt8.toNat_ofNat']
      omega
    · split <;> exact ⟨_, _, rfl, by decide⟩
  obtain ⟨byte, rest, opens, high⟩ := head record.entries.length
  refine ⟨byte, rest ++ entryBytes record.entries, ?_, high⟩
  rw [encode, Record.toValue, bytes, opens, List.cons_append]

end MessagePack

theorem Json.decode_messagePack (record : Record) :
    Json.decode (MessagePack.encode record) = .error (.malformed .json) := by
  obtain ⟨byte, rest, opens, high⟩ := MessagePack.encode_opens record
  rw [opens, Json.decode_high high]

theorem MessagePack.decode_json (record : Record) :
    MessagePack.decode (Json.encode record) = .error (.notMapping .number) := by
  obtain ⟨text, opens⟩ := Json.encode_opens record
  rw [opens, MessagePack.decode_low (by decide)]

theorem Format.undecoded {reader writer : Format} {record : Record} {raw : Bytes}
    (other : reader ≠ writer) (wrote : writer.codec.encode record = some raw) :
    ∃ fault, reader.codec.decode raw = .error fault := by
  cases reader <;> cases writer
  case json.json | messagePack.messagePack => contradiction
  case json.messagePack =>
    cases wrote
    exact ⟨_, Json.decode_messagePack record⟩
  case messagePack.json =>
    cases wrote
    exact ⟨_, MessagePack.decode_json record⟩

namespace Timeline

section Defaults

variable {Place : Type} [Backend Place] {config : Config} {chain : Chain} {host : Host}
variable {made : Store} {place : Place}

theorem readBack_of_undecoded {fault : DecodeError} {raw : Bytes}
    (new : Store.new config chain host = .ok made)
    (undecoded : config.format.codec.decode raw = .error fault)
    (stored : Backend.read place config.key = .ok (some raw)) :
    made.readBack (Backend.read place made.config.key) = (.default, false) := by
  apply Store.readBack_of_not_restores
  rw [Store.new_eq new]
  rintro outcome ⟨bytes, record, found, decoded, -⟩
  cases stored.symm.trans found
  cases undecoded.symm.trans decoded

theorem Served.defaults [Shelf Place] {log : List (Patch × Settings)} {loaded : Option Loaded}
    {time : Timeline Place} (new : Store.new config chain host = .ok made)
    (nothing : made.readBack (Backend.read place made.config.key) = (.default, false))
    (served : Served (fun _ _ => False) (Timeline.start made place) log loaded time)
    (silent : ∀ update ∈ log, update.1.isEmpty = true) : time.store.settings = .default := by
  have fresh : made.Fresh := ⟨_, _, _, _, made.codec, new, rfl⟩
  by_cases ready : time.store.phase = .ready
  · rw [served.settings_eq new silent ready, nothing]
  · exact ((served.accounted fresh).unready ready).2.1

end Defaults

/-- Neither format takes a record of the other for one of its own. A store that finds one loads the
defaults, whenever it does, and as long as no update changes anything it has the defaults, writes
nothing and leaves the place alone. -/
theorem other_formats_record_is_left :
    (∀ record, Json.decode (MessagePack.encode record) = .error (.malformed .json)) ∧
    (∀ record, MessagePack.decode (Json.encode record) = .error (.notMapping .number)) ∧
    ∀ {Place : Type} [Backend Place] [Shelf Place] {config : Config} {chain : Chain} {host : Host}
      {made : Store} {place : Place} {writer : Format} {record : Record} {raw : Bytes},
      Store.new config chain host = .ok made → config.format ≠ writer →
      writer.codec.encode record = some raw → Backend.read place config.key = .ok (some raw) →
        (∀ now readDelay writeDelay,
          ({ start made place with now, readDelay, writeDelay } : Timeline Place).load.2 =
            some (.loaded .default)) ∧
        ∀ {log : List (Patch × Settings)} {loaded : Option Loaded} {time : Timeline Place},
          Served (fun _ _ => False) (start made place) log loaded time →
            (∀ found ∈ loaded, found.base = .default) ∧
            ((∀ update ∈ log, update.1.isEmpty = true) →
              time.store.settings = .default ∧ time.store.tally = {} ∧ time.place = place) := by
  refine ⟨Json.decode_messagePack, MessagePack.decode_json, ?_⟩
  intro Place _ _ config chain host made place writer record raw new other wrote stored
  obtain ⟨fault, undecoded⟩ := Format.undecoded other wrote
  have nothing := readBack_of_undecoded new undecoded stored
  constructor
  · intro now readDelay writeDelay
    rw [load_of_new new, nothing]
  · intro log loaded time served
    refine ⟨fun found member => ?_, fun silent => ⟨served.defaults new nothing silent, ?_⟩⟩
    · rw [served.base_eq new found member, nothing]
    · exact served.untouched new (congrArg Prod.snd nothing) silent

/-- A page that reads JSON, over a record that was stored as MessagePack. -/
theorem packed_record_is_left :
    let place := Memory.put {} "new-tab-data" (MessagePack.encode ⟨[("showStats", .boolean true)]⟩)
    (start (pageStore .json) place).load.2 = some (.loaded .default) ∧
    (loadedPage place).store.phase = .ready ∧ (loadedPage place).store.settings = .default ∧
    (loadedPage place).place = place := by
  intro place
  have stored : Backend.read place "new-tab-data" =
      .ok (some (MessagePack.encode ⟨[("showStats", .boolean true)]⟩)) := rfl
  have other : Format.json ≠ Format.messagePack := nofun
  obtain ⟨loads, calm⟩ := other_formats_record_is_left.2.2 (new_pageStore .json) other rfl stored
  obtain ⟨loaded, served⟩ := loadedPage_served place
  obtain ⟨-, kept⟩ := calm served
  obtain ⟨settings, -, left⟩ := kept nofun
  exact ⟨loads 0 0 0, loadedPage_ready place, settings, left⟩

end Timeline

end StartPage
