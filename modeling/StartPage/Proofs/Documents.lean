import StartPage.Document
import StartPage.Proofs.Json.Indented
import StartPage.Proofs.Sequences
import StartPage.Proofs.Settings

/-!
Documents and records agree. The names in documents are made of declarations and the keys of
records are a table of their own, and so are the names of cards and of clock formats; they are the
same names. So the text of a document, indented or not, is decoded as the record of the same
settings, and is read as those settings again.
-/
namespace StartPage

open Text (utf8)

namespace Json

variable {entries : List (String × Value)}

/-- A text of a mapping, which is read as the tree of the mapping wherever there is room for it. -/
structure Spells (text : List Char) (entries : List (String × Value)) : Prop where
  brackets : ∃ inside, text = '{' :: (inside ++ ['}'])
  reads : ∀ room limit, (utf8 text).length ≤ room → (Value.mapping entries).depth ≤ limit →
    readNode room limit (utf8 text) = some (tree (.mapping entries), [])

theorem spells_compact (whole : (Value.mapping entries).WholeNumbers) :
    Spells (compact (.mapping entries)) entries where
  brackets := ⟨compactEntries entries, by rw [compact, List.cons_append]⟩
  reads room limit short flat := by
    have read := readNode_compact (.mapping entries) whole short flat ends_nil
    rwa [List.append_nil] at read

theorem spells_pretty (whole : (Value.mapping entries).WholeNumbers) :
    Spells (prettyAt 0 (.mapping entries)) entries where
  brackets := by
    by_cases none : entries = []
    · subst none
      exact ⟨[], rfl⟩
    · rw [prettyAt_mapping none, ← List.append_assoc]
      exact ⟨_, rfl⟩
  reads room limit short flat := by
    have read := readNode_pretty (.mapping entries) whole short flat ends_nil
    rwa [List.append_nil] at read

variable {text : List Char}

theorem read_spells (spells : Spells text entries) {limit : Nat}
    (flat : (Value.mapping entries).depth ≤ limit) :
    read limit (utf8 text) = some (tree (.mapping entries)) := by
  rw [read, spells.reads _ limit (Nat.le_refl _) flat]
  rfl

structure Plain (value : Value) : Prop where
  whole : value.WholeNumbers
  flat : value.depth ≤ 1

theorem depth_plain (plain : ∀ entry ∈ entries, Plain entry.2) :
    (Value.mapping entries).depth ≤ 2 := by
  apply Nat.succ_le_succ
  rw [Value.depthOfEntries_le_iff]
  exact fun entry member => (plain entry member).flat

theorem spells_texts (plain : ∀ entry ∈ entries, Plain entry.2) :
    Spells (compact (.mapping entries)) entries ∧ Spells (prettyAt 0 (.mapping entries)) entries := by
  have whole : (Value.mapping entries).WholeNumbers :=
    Value.entriesWhole_iff.mpr fun entry member => (plain entry member).whole
  exact ⟨spells_compact whole, spells_pretty whole⟩

/-- A text has two brackets at least, so it is long enough for what a document nests. -/
theorem readDocument_spells {α : Type} (ofNode? : Node → Option α) (spells : Spells text entries)
    (plain : ∀ entry ∈ entries, Plain entry.2) :
    readDocument ofNode? (utf8 text) = ofNode? (tree (.mapping entries)) := by
  obtain ⟨inside, brackets⟩ := spells.brackets
  have long : 2 ≤ (utf8 text).length := by
    have opening : (String.utf8EncodeChar '{').length = 1 := rfl
    have closing : (String.utf8EncodeChar '}').length = 1 := rfl
    simp only [brackets, Text.utf8_cons, Text.utf8_append, List.length_append, opening, closing]
    omega
  rw [readDocument, read_spells spells (Nat.le_trans (depth_plain plain) long), Option.bind_some]

theorem decode_spells (spells : Spells text entries) (plain : ∀ entry ∈ entries, Plain entry.2) :
    decode (utf8 text) = .ok (Record.ofList (Value.tidyEntries entries)) := by
  obtain ⟨inside, brackets⟩ := spells.brackets
  have solid : (utf8 text).all isEmptyByte = false := by
    rw [brackets, Text.utf8_ascii (by decide), List.all_cons]
    exact Bool.false_and _
  have whole : (Value.mapping entries).WholeNumbers :=
    Value.entriesWhole_iff.mpr fun entry member => (plain entry member).whole
  have shallow : (Value.mapping entries).depth ≤ depthLimit :=
    Nat.le_trans (depth_plain plain) (by decide)
  have value : readValue depthLimit (utf8 text) =
      some (Record.ofList (Value.tidyEntries entries)).toValue := by
    rw [readValue, read_spells spells shallow, Option.bind_some, value?_tidy _ whole, Value.tidy]
  rw [decode, solid, value]
  rfl

theorem only?_of_mem {nodes : List (String × Node)} (distinct : (nodes.map (·.1)).Nodup)
    {name : String} {node : Node} (member : (name, node) ∈ nodes) :
    only? nodes name = some node := by
  have one : nodes.filter (fun entry => entry.1 == name) = [(name, node)] := by
    induction nodes with
    | nil => cases member
    | cons first rest ih =>
      obtain ⟨fresh, tail⟩ := List.nodup_cons.mp distinct
      rcases List.mem_cons.mp member with rfl | further
      · have others : rest.filter (fun entry => entry.1 == name) = [] := by
          rw [List.filter_eq_nil_iff]
          intro entry inside same
          exact fresh (List.mem_map.mpr ⟨entry, inside, eq_of_beq same⟩)
        rw [List.filter_cons, if_pos (beq_self_eq_true name), others]
      · have apart : ¬ (first.1 == name) = true := fun same =>
          fresh (List.mem_map.mpr ⟨_, further, (eq_of_beq same).symm⟩)
        rw [List.filter_cons, if_neg apart]
        exact ih tail further
  rw [only?, one]

theorem fields?_tree {ι : Type} {items : List ι} {name : ι → String} {value : ι → Value}
    (distinct : (entries.map (·.1)).Nodup) (held : ∀ i ∈ items, (name i, value i) ∈ entries) :
    fields? (items.map name) (tree (.mapping entries)) =
      some (items.map fun i => tree (value i)) := by
  let nodes := entries.map fun entry => (entry.1, tree entry.2)
  have keyed : nodes.map (·.1) = entries.map (·.1) := by simp [nodes]
  have texts : (entryTrees entries).mapM (fun entry => do return (← entry.1.text?, entry.2)) =
      some nodes := by
    rw [entryTrees_eq_map, List.mapM_map]
    refine mapM_eq_pure fun entry _ => ?_
    simp [text?_literal]
  have found : (items.map name).mapM (only? nodes) = some (items.map fun i => tree (value i)) := by
    rw [List.mapM_map]
    refine mapM_eq_pure fun i member => ?_
    exact only?_of_mem (keyed ▸ distinct) (List.mem_map.mpr ⟨_, held i member, rfl⟩)
  rw [tree, fields?]
  exact (congrArg (Option.bind · fun nodes => (items.map name).mapM (only? nodes)) texts).trans found

theorem fields?_zip {names : List String} {values : List Value} (same : names.length = values.length)
    (distinct : (entries.map (·.1)).Nodup) (held : ∀ entry ∈ names.zip values, entry ∈ entries) :
    fields? names (tree (.mapping entries)) = some (values.map tree) := by
  have firsts : (names.zip values).map (·.1) = names := List.map_fst_zip (Nat.le_of_eq same)
  have seconds : (names.zip values).map (·.2) = values :=
    List.map_snd_zip (Nat.le_of_eq same.symm)
  have found : fields? ((names.zip values).map (·.1)) (tree (.mapping entries)) =
      some ((names.zip values).map fun entry => tree entry.2) := fields?_tree distinct held
  have trees : (names.zip values).map (fun entry => tree entry.2) = values.map tree := by
    rw [← seconds, List.map_map, seconds]
    rfl
  rw [firsts, trees] at found
  exact found

theorem text?_tree (text : String) : text? (tree (.string text)) = some text := by
  rw [tree, text?, text?_literal]

theorem name?_tree (text : String) : name? (tree (.string text)) = some text := by
  rw [tree, name?, text?_literal]

theorem boolean?_tree (value : Bool) : boolean? (tree (.boolean value)) = some value := by
  rw [tree, boolean?]

theorem counter?_tree (value : UInt64) : counter? (tree (.ofNat value.toNat)) = some value := by
  have bound := value.toNat_lt
  have integer : (numeral value.toNat).integer? = some (value.toNat : Int) :=
    integer?_numeral (by omega)
  have fits : 0 ≤ (value.toNat : Int) ∧ (value.toNat : Int) < UInt64.size := by
    simp only [UInt64.size]
    omega
  rw [Value.ofNat, tree, counter?, numeralOf_integer, integer]
  dsimp only
  rw [if_pos fits, Int.toNat_natCast, UInt64.ofNat_toNat]

end Json

open Json (tree Spells)

section Names

theorem Widget.written_eq_name (card : Widget) : card.written = card.name := by
  cases card <;> decide +kernel

theorem ClockFormat.written_eq_text (format : ClockFormat) : format.written = format.text := by
  cases format <;> rfl

theorem Field.written_eq_key (field : Field) : field.written = field.key := by
  cases field with
  | flag flag =>
    cases flag with
    | widget card => cases card <;> decide +kernel
    | _ => decide +kernel
  | _ => decide +kernel

end Names

namespace Settings

theorem writtenValue_eq_value (settings : Settings) (field : Field) :
    settings.writtenValue field = settings.value field := by
  cases field with
  | flag flag => rfl
  | clockFormat => rw [writtenValue, value, ClockFormat.written_eq_text]
  | stackOrder => simp only [writtenValue, value, widgetList, Widget.written_eq_name]
  | removed => simp only [writtenValue, value, widgetList, Widget.written_eq_name]

theorem writtenEntries_eq_entries (settings : Settings) :
    settings.writtenEntries = settings.entries := by
  simp only [writtenEntries, entries, Field.written_eq_key, writtenValue_eq_value]

end Settings

section Readers

variable {entries : List (String × Value)}

theorem Widget.ofNode?_tree (card : Widget) :
    Widget.ofNode? (tree (.string card.written)) = some card := by
  rw [Widget.ofNode?, Json.name?_tree]
  cases card <;> decide +kernel

theorem ClockFormat.ofNode?_tree (format : ClockFormat) :
    ClockFormat.ofNode? (tree (.string format.written)) = some format := by
  rw [ClockFormat.ofNode?, Json.name?_tree]
  cases format <;> decide +kernel

theorem TextDirection.ofNode?_tree (direction : TextDirection) :
    TextDirection.ofNode? (tree (.string direction.written)) = some direction := by
  rw [TextDirection.ofNode?, Json.name?_tree]
  cases direction <;> decide +kernel

theorem Widget.list?_tree (cards : List Widget) :
    Json.list? Widget.ofNode? (tree (.list (cards.map fun card => .string card.written))) =
      some cards := by
  rw [tree, Json.list?, Json.trees_eq_map, List.map_map, List.mapM_map]
  have each : cards.mapM (Widget.ofNode? ∘ tree ∘ fun card => .string card.written) =
      some (cards.map id) := mapM_eq_pure fun card _ => Widget.ofNode?_tree card
  rw [each, List.map_id]

theorem Settings.readNode_tree (settings target : Settings) (field : Field) :
    target.readNode field (tree (settings.writtenValue field)) =
      some (settings.adopt target field) := by
  cases field with
  | flag flag =>
    rw [readNode, writtenValue, Json.boolean?_tree]
    rfl
  | clockFormat =>
    rw [readNode, writtenValue, ClockFormat.ofNode?_tree]
    rfl
  | stackOrder =>
    rw [readNode, writtenValue, Widget.list?_tree]
    rfl
  | removed =>
    rw [readNode, writtenValue, Widget.list?_tree]
    rfl

theorem Settings.ofNode?_tree (settings : Settings) (distinct : (entries.map (·.1)).Nodup)
    (held : ∀ entry ∈ settings.writtenEntries, entry ∈ entries) :
    Settings.ofNode? (tree (.mapping entries)) = some settings := by
  have found : Json.fields? (Field.all.map Field.written) (tree (.mapping entries)) =
      some (Field.all.map fun field => tree (settings.writtenValue field)) :=
    Json.fields?_tree distinct fun field member => held _ (List.mem_map.mpr ⟨field, member, rfl⟩)
  rw [Settings.ofNode?, found, Option.bind_eq_bind, Option.bind_some,
    foldlM_zip_map settings.readNode_tree, foldl_adopt]
  rfl

theorem Counters.distinct_names : Counters.names.Nodup := by decide +kernel

theorem Counters.ofNode?_tree (counters : Counters) (distinct : (entries.map (·.1)).Nodup)
    (held : ∀ entry ∈ counters.entries, entry ∈ entries) :
    Counters.ofNode? (tree (.mapping entries)) = some counters := by
  let values := counters.values.map fun value => Value.ofNat value.toNat
  have found : Json.fields? names (tree (.mapping entries)) = some (values.map tree) :=
    Json.fields?_zip rfl distinct held
  have counts : (values.map tree).mapM Json.counter? = some counters.values := by
    have each : counters.values.mapM (Json.counter? ∘ tree ∘ fun value => .ofNat value.toNat) =
        some (counters.values.map id) := mapM_eq_pure fun value _ => Json.counter?_tree value
    rw [List.map_map, List.mapM_map, each, List.map_id]
  rw [ofNode?, found]
  simp only [Option.bind_eq_bind, Option.bind_some, counts, values]
  rfl

theorem Session.ofNode?_tree (session : Session) {stats : Value}
    (counted : Counters.ofNode? (tree stats) = some session.counters)
    (distinct : (entries.map (·.1)).Nodup)
    (held : ∀ entry ∈ names.zip (session.values ++ [stats]), entry ∈ entries) :
    Session.ofNode? (tree (.mapping entries)) = some session := by
  have found : Json.fields? names (tree (.mapping entries)) =
      some ((session.values ++ [stats]).map tree) := Json.fields?_zip rfl distinct held
  rw [ofNode?, found]
  simp only [values, List.cons_append, List.nil_append, List.map_cons, List.map_nil,
    Option.bind_eq_bind, Option.bind_some, Json.boolean?_tree, TextDirection.ofNode?_tree,
    Json.text?_tree, counted]
  rfl

end Readers

section Agreement

theorem Settings.plain_entries (settings : Settings) :
    ∀ entry ∈ settings.entries, Json.Plain entry.2 := by
  intro entry member
  obtain ⟨field, -, rfl⟩ := List.mem_map.mp member
  exact ⟨wholeNumbers_value field, depth_value_le field⟩

theorem Settings.tidy_entries (settings : Settings) :
    Value.tidyEntries settings.entries = settings.entries := by
  rw [Value.tidyEntries_eq_map, entries, List.map_map]
  refine List.map_congr_left fun field _ => ?_
  exact Prod.ext rfl (Value.tidy_eq_self (ascending_value field))

theorem Counters.plain_document (counters : Counters) {entries : List (String × Value)}
    (within : ∀ entry ∈ entries, entry ∈ counters.entries) : Json.Plain (.mapping entries) := by
  have number : ∀ entry ∈ entries, ∃ value : UInt64, entry.2 = .ofNat value.toNat := by
    intro entry member
    obtain ⟨value, -, same⟩ := List.mem_map.mp (List.of_mem_zip (within entry member)).2
    exact ⟨value, same.symm⟩
  constructor
  · rw [Value.WholeNumbers, Value.entriesWhole_iff]
    intro entry member
    obtain ⟨value, same⟩ := number entry member
    have bound := value.toNat_lt
    rw [same, Value.ofNat, Value.WholeNumbers]
    omega
  · apply Nat.succ_le_succ
    rw [Value.depthOfEntries_le_iff]
    intro entry member
    obtain ⟨value, same⟩ := number entry member
    rw [same]
    exact Nat.le_refl 0

theorem Counters.tidy_document (counters : Counters) :
    counters.document.tidy = (Record.ofList counters.entries).toValue := by
  have same : Value.tidyEntries counters.entries = counters.entries := by
    rw [Value.tidyEntries_eq_map]
    refine (List.map_congr_left fun entry member => ?_).trans (List.map_id _)
    obtain ⟨value, -, number⟩ := List.mem_map.mp (List.of_mem_zip member).2
    refine Prod.ext rfl ?_
    change entry.2.tidy = entry.2
    rw [← number]
    rfl
  rw [document, Value.tidy, same]

theorem Counters.distinct_keys (counters : Counters) : (counters.entries.map (·.1)).Nodup := by
  rw [entries, List.map_fst_zip (by exact Nat.le_refl _)]
  exact distinct_names

theorem Counters.ofNode?_tidy (counters : Counters) :
    Counters.ofNode? (tree counters.document.tidy) = some counters := by
  rw [tidy_document]
  refine counters.ofNode?_tree ?_ fun entry member =>
    (Record.mem_ofList_iff counters.distinct_keys).mpr member
  exact List.Pairwise.imp String.ne_of_lt (Record.keysAscend_ofList counters.entries)

theorem Session.plain_entries (session : Session) {stats : Value} (plain : Json.Plain stats) :
    ∀ entry ∈ names.zip (session.values ++ [stats]), Json.Plain entry.2 := by
  intro entry member
  rcases List.mem_append.mp (List.of_mem_zip member).2 with value | last
  · simp only [values, List.mem_cons, List.not_mem_nil, or_false] at value
    rcases value with same | same | same | same | same | same | same | same <;>
      exact ⟨by rw [same]; trivial, by rw [same]; exact Nat.zero_le _⟩
  · exact List.mem_singleton.mp last ▸ plain

theorem Session.tidy_entries (session : Session) :
    Value.tidyEntries session.entries =
      names.zip (session.values ++ [session.counters.document.tidy]) := by
  have same : (session.values ++ [session.counters.document]).map Value.tidy =
      session.values ++ [session.counters.document.tidy] := by
    rw [List.map_append, List.map_singleton]
    rfl
  rw [Value.tidyEntries_eq_map, entries, ← same, List.zip_map_right]
  rfl

/-- The text of a document of settings stands for their record, and gives them back. -/
structure Settings.ReadsBack (settings : Settings) (text : String) : Prop where
  decoded : Json.decode (Text.bytes text) = .ok settings.fields
  typed : Json.readDocument Settings.ofNode? (Text.bytes text) = some settings

/-- The text of a snapshot holds the keys of the settings and of the session and no others. Its
record is read as the settings, without their repeats; the part that belongs to the session gives
the session back when it is written and read by itself, and so does the whole. -/
structure Snapshot.ReadsBack (snapshot : Snapshot) (text : String) : Prop where
  session : Json.readDocument Session.ofNode? (Text.bytes text) = some snapshot.session
  settings : Json.readDocument Settings.ofNode? (Text.bytes text) = some snapshot.settings
  record : ∃ record, Json.decode (Text.bytes text) = .ok record ∧
    record.keys.Perm (Field.all.map Field.key ++ Session.names) ∧
    Settings.ofRecord record = .ok snapshot.settings.withoutRepeats ∧
    Json.readDocument Session.ofNode? (Text.bytes (Json.text
      (.mapping (record.entries.filter fun entry => entry.1 ∈ Session.names)))) =
        some snapshot.session

theorem Settings.readsBack (settings : Settings) {text : List Char}
    (spells : Spells text settings.entries) : settings.ReadsBack (.ofList text) where
  decoded := by
    rw [Text.bytes, String.toList_ofList, Json.decode_spells spells settings.plain_entries,
      settings.tidy_entries]
    rfl
  typed := by
    rw [Text.bytes, String.toList_ofList,
      Json.readDocument_spells Settings.ofNode? spells settings.plain_entries]
    exact settings.ofNode?_tree settings.distinct_entries fun entry member =>
      settings.writtenEntries_eq_entries ▸ member

namespace Snapshot

variable (snapshot : Snapshot)

def decoded : List (String × Value) :=
  snapshot.settings.entries ++
    Session.names.zip (snapshot.session.values ++ [snapshot.session.counters.document.tidy])

theorem distinct_names : (Field.all.map Field.key ++ Session.names).Nodup := by decide +kernel

theorem keys_append {stats : Value} :
    (snapshot.settings.entries ++
      Session.names.zip (snapshot.session.values ++ [stats])).map (·.1) =
        Field.all.map Field.key ++ Session.names := by
  rw [List.map_append, List.map_fst_zip (by exact Nat.le_refl _), Settings.keys_entries]

theorem plain_append {stats : Value} (plain : Json.Plain stats) :
    ∀ entry ∈ snapshot.settings.entries ++
      Session.names.zip (snapshot.session.values ++ [stats]), Json.Plain entry.2 := by
  intro entry member
  rcases List.mem_append.mp member with setting | session
  · exact snapshot.settings.plain_entries entry setting
  · exact snapshot.session.plain_entries plain entry session

theorem plain_tidy : Json.Plain snapshot.session.counters.document.tidy := by
  rw [Counters.tidy_document]
  exact snapshot.session.counters.plain_document fun entry member => Record.mem_ofList member

theorem distinct_decoded : (snapshot.decoded.map (·.1)).Nodup := by
  rw [decoded, keys_append]
  exact distinct_names

theorem ofRecord_decoded :
    Settings.ofRecord (Record.ofList snapshot.decoded) = .ok snapshot.settings.withoutRepeats := by
  apply Settings.ofRecord_values
  intro field
  have member : (field.key, snapshot.settings.value field) ∈ snapshot.decoded :=
    List.mem_append_left _ (snapshot.settings.mem_entries field)
  rw [Record.present?, Record.get?_ofList snapshot.distinct_decoded member, Option.filter_some,
    Settings.value_not_null]
  rfl

theorem readDocument_part :
    Json.readDocument Session.ofNode? (Text.bytes (Json.text (.mapping
      ((Record.ofList snapshot.decoded).entries.filter fun entry => entry.1 ∈ Session.names)))) =
        some snapshot.session := by
  have plain : ∀ entry ∈ (Record.ofList snapshot.decoded).entries.filter
      fun entry => entry.1 ∈ Session.names, Json.Plain entry.2 := fun entry member =>
    snapshot.plain_append snapshot.plain_tidy entry
      (Record.mem_ofList (List.mem_filter.mp member).1)
  have distinct : ((Record.ofList snapshot.decoded).entries.map (·.1)).Nodup :=
    List.Pairwise.imp String.ne_of_lt (Record.keysAscend_ofList snapshot.decoded)
  rw [Text.bytes, Json.text, String.toList_ofList,
    Json.readDocument_spells Session.ofNode? (Json.spells_texts plain).1 plain]
  apply snapshot.session.ofNode?_tree snapshot.session.counters.ofNode?_tidy
  · exact distinct.sublist (List.filter_sublist.map _)
  · rintro ⟨name, value⟩ member
    refine List.mem_filter.mpr ⟨?_, decide_eq_true (List.of_mem_zip member).1⟩
    exact (Record.mem_ofList_iff snapshot.distinct_decoded).mpr (List.mem_append_right _ member)

theorem readsBack {text : List Char}
    (spells : Spells text (snapshot.settings.entries ++ snapshot.session.entries)) :
    snapshot.ReadsBack (.ofList text) := by
  have plain := snapshot.plain_append (snapshot.session.counters.plain_document fun _ member => member)
  have distinct : ((snapshot.settings.entries ++ snapshot.session.entries).map (·.1)).Nodup := by
    rw [Session.entries, keys_append]
    exact distinct_names
  have counted : Counters.ofNode? (tree snapshot.session.counters.document) =
      some snapshot.session.counters :=
    snapshot.session.counters.ofNode?_tree snapshot.session.counters.distinct_keys
      fun _ member => member
  have decodes : Json.decode (utf8 text) = .ok (Record.ofList snapshot.decoded) := by
    rw [Json.decode_spells spells plain, Value.tidyEntries_eq_map, List.map_append,
      ← Value.tidyEntries_eq_map, ← Value.tidyEntries_eq_map, Settings.tidy_entries,
      Session.tidy_entries, decoded]
  constructor
  · rw [Text.bytes, String.toList_ofList, Json.readDocument_spells Session.ofNode? spells plain]
    exact snapshot.session.ofNode?_tree counted distinct fun entry member =>
      List.mem_append_right _ member
  · rw [Text.bytes, String.toList_ofList, Json.readDocument_spells Settings.ofNode? spells plain]
    exact snapshot.settings.ofNode?_tree distinct fun entry member =>
      List.mem_append_left _ (snapshot.settings.writtenEntries_eq_entries ▸ member)
  · rw [Text.bytes, String.toList_ofList]
    refine ⟨_, decodes, ?_, snapshot.ofRecord_decoded, snapshot.readDocument_part⟩
    rw [← snapshot.keys_append]
    exact Record.keys_ofList snapshot.distinct_decoded

end Snapshot

/-- Whatever the settings and the session are, the text of their documents, indented or not, is
decoded as the record that the settings are stored in, and gives settings and session back. -/
theorem documents_read_back (settings : Settings) (session : Session) :
    settings.ReadsBack (Json.text settings.document) ∧
    settings.ReadsBack (Json.prettyText settings.document) ∧
    (Snapshot.mk settings session).ReadsBack (Json.text (Snapshot.mk settings session).document) ∧
    (Snapshot.mk settings session).ReadsBack
      (Json.prettyText (Snapshot.mk settings session).document) := by
  obtain ⟨compact, pretty⟩ := Json.spells_texts settings.plain_entries
  have plain := (Snapshot.mk settings session).plain_append
    (session.counters.plain_document fun _ member => member)
  obtain ⟨joint, indented⟩ := Json.spells_texts plain
  rw [Settings.document, Snapshot.document, settings.writtenEntries_eq_entries]
  exact ⟨settings.readsBack compact, settings.readsBack pretty,
    Snapshot.readsBack _ joint, Snapshot.readsBack _ indented⟩

end Agreement

end StartPage
