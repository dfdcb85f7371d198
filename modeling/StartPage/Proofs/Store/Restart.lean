import StartPage.Proofs.Migration.Stamp
import StartPage.Proofs.Store.FirstLoad
import StartPage.Proofs.Store.Flush

/-!
What a store that is opened again finds. As long as nobody else works on the place it holds what
was there at first, or what the last write left, and after a flush that was answered this is all
that the first store knows. A list in memory may hold a card twice, a list read from a record never
does; so the settings come back without their repeats.
-/
namespace StartPage

open Migration (Chain)

theorem Settings.withoutRepeats_eq_iff {settings : Settings} :
    settings.withoutRepeats = settings ↔ settings.Distinct := by
  constructor
  · intro same
    rw [← same]
    exact ⟨nodup_eraseDups _, nodup_eraseDups _⟩
  · exact withoutRepeats_of_distinct

theorem Writer.Step.unattempted {Place : Type} [Backend Place] {writer after : Writer}
    {now delay : Nat} {place left : Place} (step : Writer.Step now delay writer place after left)
    (orderly : writer.Orderly) (none : after.attempts = []) :
    writer.attempts = [] ∧ left = place := by
  cases step with
  | move _ move =>
    cases move with
    | receive | answer | stop => exact ⟨none, rfl⟩
    | flush | expire | drain => cases none
  | finish writing =>
    rename_i attempt _
    obtain ⟨succeeded, same⟩ := writer.finish_eq attempt place
    rw [same] at none
    have latest := (orderly.writing attempt writing).1
    have unattempted : writer.attempts = [] := none
    rw [unattempted] at latest
    cases latest

namespace Store

variable {Place : Type} [Backend Place] [Shelf Place] {origin place left : Place}
variable {store after : Store}

/-- The writer is faithful, and the place is as it was until the writer makes an attempt. -/
structure Anchored (origin : Place) (store : Store) (place : Place) : Prop where
  faithful : ∀ writer, store.writer = some writer →
    writer.Faithful store.config.key store.encode place
  untouched : (∀ writer, store.writer = some writer → writer.attempts = []) → place = origin

/-- Until something is scheduled the settings are those that the place gave at first, from a record
that did not have to be migrated. -/
structure Rooted (origin : Place) (store : Store) (place : Place) : Prop
    extends Anchored origin store place where
  unchanged : ∀ writer, store.writer = some writer → writer.history = [] →
    store.readBack (Backend.read origin store.config.key) = (store.settings, false)

theorem schedule_rooted (anchored : store.Anchored origin place) (orderly : store.Orderly)
    (opened : store.Open) (settings : Settings) :
    ({ store with settings }.schedule).Rooted origin place where
  faithful := by
    intro writer present
    obtain ⟨before, found, rfl⟩ := Option.map_eq_some_iff.mp present
    exact (anchored.faithful before found).schedule settings
  untouched := by
    intro none
    apply anchored.untouched
    intro writer present
    have running := (orderly.writer writer present).not_stopped (opened writer present)
    have kept := none (writer.schedule settings) (by simp [schedule, present])
    rwa [Writer.schedule_eq running] at kept
  unchanged := by
    intro writer present empty
    obtain ⟨before, found, rfl⟩ := Option.map_eq_some_iff.mp present
    have running := (orderly.writer before found).not_stopped (opened before found)
    rw [Writer.schedule_eq running] at empty
    cases List.append_ne_nil_of_right_ne_nil _ (by simp) empty

theorem opening_anchored (anchored : store.Anchored origin place) (unwritten : store.writer = none)
    (loaded : Settings) : (store.opening loaded).Anchored origin place where
  faithful := by
    -- The writer that is opened has made no attempt and stored nothing.
    rintro writer ⟨⟩
    exact ⟨rfl, fun _ _ encoded => encoded, nofun, nofun⟩
  untouched _ := anchored.untouched fun _ present => nomatch unwritten.symm.trans present

theorem becomeReady_rooted (anchored : store.Anchored origin place) (orderly : store.Orderly)
    (unready : store.phase ≠ .ready) :
    (store.becomeReady (store.readBack (Backend.read place store.config.key)).1
      (store.readBack (Backend.read place store.config.key)).2).Rooted origin place := by
  have unwritten := (orderly.unready unready).1
  have opening := opening_anchored anchored unwritten
    (store.readBack (Backend.read place store.config.key)).1
  rw [becomeReady_eq]
  split
  case isTrue =>
    refine schedule_rooted opening (opening_orderly store _) ?_ _
    rintro writer ⟨⟩
    rfl
  case isFalse still =>
    simp only [Bool.or_eq_true, Bool.not_eq_true', not_or, Bool.not_eq_true,
      Bool.not_eq_false] at still
    obtain ⟨current, empty⟩ := still
    obtain rfl : place = origin :=
      anchored.untouched fun _ present => nomatch unwritten.symm.trans present
    refine { opening with unchanged := ?_ }
    rintro writer ⟨⟩ -
    rw [Store.opening, List.isEmpty_iff.mp empty]
    exact Prod.ext rfl current

theorem withWriter_rooted (rooted : store.Rooted origin place) {before writer : Writer}
    (present : store.writer = some before)
    (faithful : writer.Faithful store.config.key store.encode left)
    (attempts : writer.attempts = [] → before.attempts = [] ∧ left = place)
    (history : writer.history = before.history) :
    { store with writer := some writer }.Rooted origin left where
  faithful := by
    rintro writer ⟨⟩
    exact faithful
  untouched := by
    intro none
    obtain ⟨unattempted, rfl⟩ := attempts (none _ rfl)
    apply rooted.untouched
    intro other found
    cases present.symm.trans found
    exact unattempted
  unchanged := by
    rintro writer ⟨⟩ empty
    exact rooted.unchanged before present (history ▸ empty)

theorem mapWriter_rooted (rooted : store.Rooted origin place) {change : Writer → Writer}
    (faithful : ∀ writer, store.writer = some writer →
      (change writer).Faithful store.config.key store.encode place)
    (attempts : ∀ writer : Writer, (change writer).attempts = writer.attempts)
    (history : ∀ writer : Writer, (change writer).history = writer.history) :
    { store with writer := store.writer.map change }.Rooted origin place := by
  apply mapWriter_keep (fun store => store.Rooted origin place) rooted
  intro writer present
  exact withWriter_rooted rooted present (faithful writer present)
    (fun none => ⟨attempts writer ▸ none, rfl⟩) (history writer)

theorem Deed.rooted (deed : Deed (fun _ _ => False) store place after left)
    (orderly : store.Orderly) (rooted : store.Rooted origin place) : after.Rooted origin left := by
  cases deed with
  | commit opened request =>
    rcases store.commit_cases request with same | ⟨patch, unready, same⟩ | ⟨patch, _, same⟩ <;>
      rw [same]
    · exact rooted
    · exact { rooted with }
    · exact schedule_rooted rooted.toAnchored orderly opened _
  | begin => exact { rooted with }
  | ready unready => exact becomeReady_rooted rooted.toAnchored orderly unready
  | writer present step =>
    have kept := orderly.writer _ present
    exact withWriter_rooted rooted present ((rooted.faithful _ present).step kept step)
      (step.unattempted kept) step.history.1
  | close present =>
    exact withWriter_rooted rooted present { rooted.faithful _ present with }
      (fun none => ⟨none, rfl⟩) rfl
  | flush =>
    refine mapWriter_rooted rooted (fun writer present => (rooted.faithful writer present).flush)
      ?_ ?_ <;> intro writer <;> unfold Writer.flush Writer.send <;> split <;> rfl
  | refuse accepts =>
    refine mapWriter_rooted rooted ?_ (fun _ => rfl) (fun _ => rfl)
    intro writer present
    exact (rooted.faithful writer present).refuse accepts
  | disturb disturbed => cases disturbed

theorem Life.rooted {config : Config} {chain : Chain} {codec : Codec}
    (life : Life (fun _ _ => False) store origin after place) (fresh : store.Orderly)
    (unwritten : store.writer = none) (made : store.MadeWith config chain codec) :
    after.Orderly ∧ after.Rooted origin place ∧ after.MadeWith config chain codec := by
  refine life.keep (fun store place =>
    store.Orderly ∧ store.Rooted origin place ∧ store.MadeWith config chain codec) ?_ ?_
  · have none : ∀ {motive : Writer → Prop} writer, store.writer = some writer → motive writer :=
      fun _ present => nomatch unwritten.symm.trans present
    exact ⟨fresh, ⟨⟨none, fun _ => rfl⟩, none⟩, made⟩
  · intro store place after left deed kept
    exact ⟨deed.orderly kept.1, deed.rooted kept.1 kept.2.1, deed.madeWith kept.2.2⟩

section Reading

theorem readBack_distinct (store : Store) (stored : Except StorageError (Option Bytes)) :
    (store.readBack stored).1.Distinct := by
  have default : Settings.default.Distinct := ⟨by decide, .nil⟩
  unfold readBack
  split
  · split
    · split
      case h_1 ran => exact Chain.distinct_of_run ran
      case h_2 => exact default
    · exact default
  · exact default

theorem readBack_congr {other : Store} (codec : other.codec = store.codec)
    (chain : other.chain = store.chain) (stored : Except StorageError (Option Bytes)) :
    other.readBack stored = store.readBack stored := by
  unfold readBack
  rw [codec, chain]

/-- What the store's own codec wrote for settings is read without their repeats, and is not
migrated. -/
theorem readBack_encode {format : Format} {settings : Settings} {bytes : Bytes}
    (codec : store.codec = format.codec)
    (short : format = .messagePack →
      settings.stackOrder.length < 2 ^ 32 ∧ settings.removed.length < 2 ^ 32)
    (encoded : store.encode settings = some bytes) :
    store.readBack (.ok (some bytes)) = (settings.withoutRepeats, false) := by
  obtain ⟨written, stamped, decoded⟩ := Chain.decode_encode_stamp store.chain short
  rw [encode, codec, stamped] at encoded
  obtain rfl := Option.some.inj encoded
  have settled : store.chain.run (store.chain.stamp settings) =
      .ok ⟨settings.withoutRepeats, store.chain.current, store.chain.current, []⟩ :=
    store.chain.settles_stamp settings
  simp only [readBack, codec, decoded, settled]
  rfl

theorem Rooted.readBack_eq {format : Format} {writer : Writer} {found : Option Bytes}
    (rooted : store.Rooted origin place) (orderly : store.Orderly)
    (codec : store.codec = format.codec) (present : store.writer = some writer)
    (quiet : writer.Quiescent) (written : writer.attempts ≠ [] → writer.lastSucceeded = true)
    (readable : Backend.read place store.config.key = .ok found)
    (short : format = .messagePack →
      store.settings.stackOrder.length < 2 ^ 32 ∧ store.settings.removed.length < 2 ^ 32) :
    store.readBack (Backend.read place store.config.key) =
      (store.settings.withoutRepeats, false) := by
  have kept := orderly.writer writer present
  by_cases scheduled : writer.history = []
  · -- Nothing was scheduled, so nothing was attempted, and the place is as it was.
    have same : place = origin := by
      apply rooted.untouched
      intro other again
      cases present.symm.trans again
      exact kept.attempts_eq_nil scheduled
    have gave := rooted.unchanged writer present scheduled
    have distinct := store.readBack_distinct (Backend.read origin store.config.key)
    rw [gave] at distinct
    rw [same, gave, Settings.withoutRepeats_of_distinct distinct]
  · have attempted : writer.attempts ≠ [] := by
      intro none
      have newest := kept.newest_of_quiescent quiet
      rw [none, List.head?_nil, Option.map_none] at newest
      exact scheduled (List.getLast?_eq_none_iff.mp (Option.map_eq_none_iff.mp newest.symm))
    obtain ⟨-, bytes, encoded, stored⟩ := (rooted.faithful writer present).at_rest orderly present
      quiet scheduled (written attempted)
    rw [readable, Shelf.read_ok readable, stored]
    exact readBack_encode codec short encoded

end Reading

end Store

namespace Timeline

variable {Place : Type} [Backend Place] [Shelf Place] {config : Config} {chain : Chain}
variable {host otherHost : Host} {made second : Store} {place : Place} {found : Option Bytes}
variable {time flushed : Timeline Place}

omit [Shelf Place] in
theorem load_of_new (new : Store.new config chain host = .ok made) (place : Place)
    (now readDelay writeDelay : Nat) :
    ({ start made place with now, readDelay, writeDelay } : Timeline Place).load.2 =
      some (.loaded (made.readBack (Backend.read place made.config.key)).1) := by
  refine load_new ?_ ?_ ?_ place now readDelay writeDelay <;> rw [Store.new_eq new]
  exact nofun

theorem Run.rooted (new : Store.new config chain host = .ok made)
    (run : Run (fun _ _ => False) (Timeline.start made place) time) :
    time.store.Orderly ∧ time.store.Rooted place time.place ∧
      time.store.MadeWith config chain config.format.codec := by
  have fresh : made.Fresh := ⟨_, _, _, _, made.codec, new, rfl⟩
  exact (run.life fresh.writer).1.rooted (Store.orderly_of_fresh fresh) fresh.writer
    (Store.madeWith_of_new new)

theorem load_after_flush (new : Store.new config chain host = .ok made)
    (run : Run (fun _ _ => False) (start made place) time) (ready : time.store.phase = .ready)
    (held : time.tenant.released = false) (answered : time.flush = (flushed, .ok ()))
    (written : ∀ writer, flushed.store.writer = some writer → writer.attempts ≠ [] →
      writer.lastSucceeded = true)
    (readable : Backend.read flushed.place config.key = .ok found)
    (short : config.format = .messagePack → time.store.settings.stackOrder.length < 2 ^ 32 ∧
      time.store.settings.removed.length < 2 ^ 32)
    (again : Store.new config chain otherHost = .ok second) (now readDelay writeDelay : Nat) :
    ({ start second flushed.place with now, readDelay, writeDelay } : Timeline Place).load.2 =
      some (.loaded time.store.settings.withoutRepeats) := by
  have fresh : made.Fresh := ⟨_, _, _, _, made.codec, new, rfl⟩
  obtain ⟨flushing, settings, writer, present, quiet⟩ := flush_rests fresh run ready held answered
  obtain ⟨orderly, rooted, key, sameChain, codec⟩ := flushing.rooted new
  rw [← settings] at short ⊢
  have codecs : second.codec = flushed.store.codec := by
    rw [Store.new_eq again, codec]
  have chains : second.chain = flushed.store.chain := by
    rw [Store.new_eq again, sameChain]
  have keys : second.config.key = flushed.store.config.key := by
    rw [Store.new_eq again, key]
  rw [load_of_new again, keys, Store.readBack_congr codecs chains]
  rw [rooted.readBack_eq orderly codec present quiet (written writer present) (key ▸ readable) short]

/-- A store that is opened on the place after the flush loads exactly what the first store knew when
no list of that holds a card twice, and otherwise the same without the repeats. -/
theorem reopened_store_drops_repeats (new : Store.new config chain host = .ok made)
    (run : Run (fun _ _ => False) (start made place) time) (ready : time.store.phase = .ready)
    (held : time.tenant.released = false) (answered : time.flush = (flushed, .ok ()))
    (written : ∀ writer, flushed.store.writer = some writer → writer.attempts ≠ [] →
      writer.lastSucceeded = true)
    (readable : Backend.read flushed.place config.key = .ok found)
    (short : config.format = .messagePack → time.store.settings.stackOrder.length < 2 ^ 32 ∧
      time.store.settings.removed.length < 2 ^ 32)
    (again : Store.new config chain otherHost = .ok second) (now readDelay writeDelay : Nat) :
    flushed.store.settings = time.store.settings ∧
    ({ start second flushed.place with now, readDelay, writeDelay } : Timeline Place).load.2 =
      some (.loaded time.store.settings.withoutRepeats) ∧
    (({ start second flushed.place with now, readDelay, writeDelay } : Timeline Place).load.2 =
      some (.loaded time.store.settings) ↔ time.store.settings.Distinct) := by
  have fresh : made.Fresh := ⟨_, _, _, _, made.codec, new, rfl⟩
  have loaded := load_after_flush new run ready held answered written readable short again now
    readDelay writeDelay
  refine ⟨(flush_rests fresh run ready held answered).2.1, loaded, ?_⟩
  rw [loaded, Option.some.injEq, LoadFate.loaded.injEq]
  exact Settings.withoutRepeats_eq_iff

def pageStore (format : Format) : Store :=
  { config := { format }, chain := Migration.widgetStack, codec := format.codec
    session := .ofHost {} }

theorem new_pageStore (format : Format) :
    Store.new { format } Migration.widgetStack {} = .ok (pageStore format) := by
  have named : Config.isBlank "new-tab-data" = false := by decide
  have valid : ({ format } : Config).validate = .ok { format } := by
    simp [Config.validate, named]
  rw [Store.new, valid]
  rfl

/-- The page's store, loaded from an empty memory and given an order that holds a card twice. -/
def doubled (format : Format) : Timeline Memory :=
  (((start (pageStore format) {}).enterLoad.1.turns 2).update
    (Patch.empty.setStackOrder [.rewards, .rewards])).1

theorem doubled_run (format : Format) :
    Run (fun _ _ => False) (start (pageStore format) ({} : Memory)) (doubled format) := by
  have entered : Run (fun _ _ => False) (start (pageStore format) ({} : Memory))
      (start (pageStore format) {}).enterLoad.1 := .step .start (.call (.load rfl))
  have loaded := (entered.turns rfl 2).1
  exact loaded.update (by cases format <;> rfl) _

theorem doubled_flush (format : Format) :
    (doubled format).flush = ((doubled format).askFlush.turns 3, .ok ()) := by
  have opened : ∃ writer, (doubled format).store.writer = some writer ∧
      writer.isStopped = false ∧ writer.asked = 0 := by
    cases format <;> exact ⟨_, rfl, rfl, rfl⟩
  obtain ⟨writer, present, running, asked⟩ := opened
  refine flush_eq_turns present running 3 ?_ ?_
  · intro earlier below
    rw [asked]
    match earlier with
    | 0 => cases format <;> rfl
    | 1 => cases format <;> rfl
    | 2 => cases format <;> rfl
  · rw [asked]
    cases format <;> rfl

theorem doubled_readable (format : Format) :
    ∃ found, Backend.read ((doubled format).askFlush.turns 3).place "new-tab-data" = .ok found := by
  cases format <;> exact ⟨_, rfl⟩

theorem doubled_written (format : Format) (writer : Writer)
    (present : ((doubled format).askFlush.turns 3).store.writer = some writer) :
    writer.attempts ≠ [] → writer.lastSucceeded = true := by
  cases format <;> cases present <;> exact fun _ => rfl

theorem doubled_order_reopened :
    Run (fun _ _ => False) (start (pageStore .messagePack) ({} : Memory)) (doubled .messagePack) ∧
    (doubled .messagePack).flush = ((doubled .messagePack).askFlush.turns 3, .ok ()) ∧
    (doubled .messagePack).store.settings.stackOrder = [.rewards, .rewards] ∧
    ({ start (pageStore .messagePack) ((doubled .messagePack).askFlush.turns 3).place with
        now := 60, readDelay := 5, writeDelay := 20 } : Timeline Memory).load.2 =
      some (.loaded (doubled .messagePack).store.settings.withoutRepeats) := by
  obtain ⟨found, readable⟩ := doubled_readable .messagePack
  have short : (doubled .messagePack).store.settings.stackOrder.length < 2 ^ 32 ∧
      (doubled .messagePack).store.settings.removed.length < 2 ^ 32 := by
    constructor <;> decide
  have reopened := reopened_store_drops_repeats (new_pageStore .messagePack)
    (doubled_run .messagePack) rfl rfl (doubled_flush .messagePack) (doubled_written .messagePack)
    readable (fun _ => short) (new_pageStore .messagePack) 60 5 20
  exact ⟨doubled_run .messagePack, doubled_flush .messagePack, rfl, reopened.2.1⟩

/-- A card that is twice in the order is there once when the store is opened again, though every
read and write went well: the chain reads the stamped settings without the repeat. -/
theorem doubled_order_lost :
    Store.new {} Migration.widgetStack {} = .ok (pageStore .json) ∧
    Run (fun _ _ => False) (start (pageStore .json) ({} : Memory)) (doubled .json) ∧
    (doubled .json).store.phase = .ready ∧
    (doubled .json).store.settings.stackOrder = [.rewards, .rewards] ∧
    (∃ flushed, (doubled .json).flush = (flushed, .ok ()) ∧ flushed.store.tally.failed = 0 ∧
      (∃ found, Backend.read flushed.place "new-tab-data" = .ok found) ∧
      (start (pageStore .json) flushed.place).load.2 ≠
        some (.loaded (doubled .json).store.settings)) ∧
    ∃ outcome,
      Migration.widgetStack.run (Migration.widgetStack.stamp (doubled .json).store.settings) =
        .ok outcome ∧
      outcome.settings.stackOrder = [.rewards] := by
  obtain ⟨found, readable⟩ := doubled_readable .json
  have loaded := load_after_flush (new_pageStore .json) (doubled_run .json) rfl rfl
    (doubled_flush .json) (doubled_written .json) readable nofun (new_pageStore .json) 0 0 0
  refine ⟨new_pageStore .json, doubled_run .json, rfl, rfl,
    ⟨_, doubled_flush .json, rfl, ⟨found, readable⟩, ?_⟩, _,
    Migration.widgetStack.settles_stamp _, rfl⟩
  intro same
  have repeats := LoadFate.loaded.inj (Option.some.inj (loaded.symm.trans same))
  have distinct := (Settings.withoutRepeats_eq_iff.mp repeats).1
  exact absurd distinct (by decide)

end Timeline
end StartPage
