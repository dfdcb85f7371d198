import StartPage.Proofs.Storage
import StartPage.Proofs.Store.Numbering

/-!
What a memory holds under the key of a store that writes to it. Writes fail and encoding is
refused at any time; still nothing scheduled is written twice or after something newer, and a
writer at rest tried the newest revision last. If that went well, the memory is what it would be
had every revision been written the moment it was scheduled.
-/
namespace StartPage

def Memory.Faults (memory after : Memory) : Prop :=
  ∃ failReads failWrites, after = { memory with failReads, failWrites }

def Memory.put? (memory : Memory) (key : String) : Option Bytes → Memory
  | some bytes => memory.put key bytes
  | none => memory

/-- The memory after each of the settings was written the moment it was known; what cannot be
encoded is not written. -/
def Memory.writeThrough (memory : Memory) (key : String) (encode : Settings → Option Bytes)
    (history : List Settings) : Memory :=
  history.foldl (fun memory settings => memory.put? key (encode settings)) memory

theorem Memory.put?_elsewhere (memory : Memory) {key other : String} (bytes? : Option Bytes)
    (apart : other ≠ key) : (memory.put? key bytes?).get? other = memory.get? other := by
  cases bytes? with
  | none => rfl
  | some bytes => simp [put?, apart]

theorem Memory.writeThrough_elsewhere (memory : Memory) {key other : String}
    (encode : Settings → Option Bytes) (history : List Settings) (apart : other ≠ key) :
    (memory.writeThrough key encode history).get? other = memory.get? other := by
  induction history generalizing memory with
  | nil => rfl
  | cons settings rest ih => exact (ih _).trans (memory.put?_elsewhere _ apart)

theorem Memory.writeThrough_newest (memory : Memory) (key : String)
    {encode : Settings → Option Bytes} {history : List Settings} {newest : Settings}
    {bytes : Bytes} (last : history.getLast? = some newest)
    (encoded : encode newest = some bytes) :
    (memory.writeThrough key encode history).get? key = some bytes := by
  obtain ⟨older, rfl⟩ := List.getLast?_eq_some_iff.mp last
  rw [writeThrough, List.foldl_append]
  simp [put?, encoded]

namespace Writer

/-- Nothing waits, nothing is pending, and no write is in progress. -/
def Quiescent (writer : Writer) : Prop :=
  writer.queue = [] ∧ writer.pending = none ∧ ∀ attempt, writer.activity ≠ .writing attempt

/-- A writer that encodes as its store does, when it does not refuse, and whose latest write is
in the place if it went well. -/
structure Faithful {Place : Type} [Backend Place] [Shelf Place] (key : String)
    (encode : Settings → Option Bytes) (writer : Writer) (place : Place) : Prop where
  keyed : writer.key = key
  encoding : ∀ settings bytes, writer.encode settings = some bytes → encode settings = some bytes
  attempted : ∀ attempt ∈ writer.attempts, ∀ bytes, attempt.bytes = some bytes →
    encode attempt.revision.settings = some bytes
  stored : writer.lastSucceeded = true → (∀ attempt, writer.activity ≠ .writing attempt) →
    ∃ attempt bytes, writer.attempts.head? = some attempt ∧ attempt.bytes = some bytes ∧
      Shelf.held place key = some bytes

variable {Place : Type} [Backend Place] [Shelf Place] {key : String}
variable {encode : Settings → Option Bytes} {writer after : Writer} {place left : Place}
variable {now delay : Nat}

theorem Faithful.begin (faithful : writer.Faithful key encode place) (revision : Revision)
    (sequel : Sequel) : (writer.begin now delay revision sequel).Faithful key encode place where
  keyed := faithful.keyed
  encoding := faithful.encoding
  attempted := by
    intro attempt member bytes encoded
    rcases List.mem_cons.mp member with rfl | older
    · exact faithful.encoding _ _ encoded
    · exact faithful.attempted attempt older bytes encoded
  stored := fun _ resting => absurd rfl (resting _)

theorem Faithful.move (faithful : writer.Faithful key encode place)
    (idle : writer.activity = .idle) (move : writer.Move now delay after) :
    after.Faithful key encode place := by
  have resting : ∀ attempt, writer.activity ≠ .writing attempt := by
    intro attempt writing
    cases idle.symm.trans writing
  cases move with
  | receive | answer | stop =>
    exact { faithful with stored := fun succeeded _ => faithful.stored succeeded resting }
  | expire | drain => exact faithful.begin _ _
  | flush =>
    rename_i revision rest _ _
    have popped : ({ writer with queue := rest } : Writer).Faithful key encode place :=
      { faithful with }
    exact popped.begin _ _

theorem Faithful.finish (faithful : writer.Faithful key encode place) {attempt : Attempt}
    (latest : writer.attempts.head? = some attempt) :
    (writer.finish attempt place).1.Faithful key encode (writer.finish attempt place).2 := by
  -- After a failure nothing is known of the place.
  have failed : ∀ place : Place, (writer.conclude attempt.sequel false).Faithful key encode place :=
    fun _ => { faithful with stored := nofun }
  cases encoded : attempt.bytes with
  | none =>
    simp only [Writer.finish, encoded]
    exact failed place
  | some bytes =>
    simp only [Writer.finish, encoded]
    split
    case h_1 after written =>
      have stored : Shelf.held after key = some bytes := faithful.keyed ▸ Shelf.write_ok written
      exact { faithful with stored := fun _ _ => ⟨attempt, bytes, latest, encoded, stored⟩ }
    case h_2 after fault written => exact failed after

theorem Faithful.step (faithful : writer.Faithful key encode place) (orderly : writer.Orderly)
    (step : Step now delay writer place after left) : after.Faithful key encode left := by
  cases step with
  | move idle move => exact faithful.move idle move
  | finish writing => exact faithful.finish (orderly.writing _ writing).1

theorem Faithful.schedule (faithful : writer.Faithful key encode place) (settings : Settings) :
    (writer.schedule settings).Faithful key encode place := by
  unfold Writer.schedule Writer.send
  split <;> exact { faithful with }

theorem Faithful.flush (faithful : writer.Faithful key encode place) :
    writer.flush.Faithful key encode place := by
  unfold Writer.flush Writer.send
  split <;> exact { faithful with }

theorem Faithful.refuse (faithful : writer.Faithful key encode place) (accepts : Settings → Bool) :
    ({ writer with
      encode := fun settings => if accepts settings then encode settings else none } :
        Writer).Faithful key encode place :=
  { faithful with
    encoding := fun _ _ encoded => (Option.ite_none_right_eq_some.mp encoded).2 }

theorem Step.elsewhere {memory left : Memory} (step : Step now delay writer memory after left)
    {other : String} (apart : other ≠ writer.key) : left.get? other = memory.get? other := by
  cases step with
  | move => rfl
  | finish =>
    rename_i attempt _ _
    cases encoded : attempt.bytes with
    | none => simp only [Writer.finish, encoded]
    | some bytes =>
      simp only [Writer.finish, encoded, Backend.write, Memory.write]
      cases memory.failWrites with
      | true => rfl
      | false =>
        have same := Memory.get?_put memory writer.key other bytes
        rwa [if_neg apart] at same

end Writer

namespace Store

open Migration (Chain)

def MadeWith (config : Config) (chain : Chain) (codec : Codec) (store : Store) : Prop :=
  store.config = config ∧ store.chain = chain ∧ store.codec = codec

theorem madeWith_of_new {config : Config} {chain : Chain} {host : Host} {made : Store}
    (new : Store.new config chain host = .ok made) :
    made.MadeWith config chain config.format.codec := by
  rw [new_eq new]
  exact ⟨rfl, rfl, rfl⟩

theorem Deed.madeWith {Place : Type} [Backend Place] {disturb : Place → Place → Prop}
    {config : Config} {chain : Chain} {codec : Codec} {store after : Store} {place left : Place}
    (deed : Deed disturb store place after left) (made : store.MadeWith config chain codec) :
    after.MadeWith config chain codec := by
  cases deed with
  | commit _ request =>
    rcases store.commit_cases request with same | ⟨patch, _, same⟩ | ⟨patch, _, same⟩ <;>
      rw [same] <;> exact made
  | ready =>
    rw [becomeReady_eq]
    split <;> exact made
  | begin | writer | close | flush | refuse | disturb => exact made

structure Faithful (origin : Memory) (store : Store) (memory : Memory) : Prop where
  writer : ∀ writer, store.writer = some writer →
    writer.Faithful store.config.key store.encode memory
  elsewhere : ∀ other ≠ store.config.key, memory.get? other = origin.get? other

variable {origin memory left : Memory} {store after : Store}

theorem schedule_faithful (faithful : store.Faithful origin memory) (settings : Settings) :
    ({ store with settings }.schedule).Faithful origin memory := by
  constructor
  · intro writer present
    obtain ⟨before, found, rfl⟩ := Option.map_eq_some_iff.mp present
    exact (faithful.writer before found).schedule settings
  · exact faithful.elsewhere

theorem becomeReady_faithful (faithful : store.Faithful origin memory) (loaded : Settings)
    (migrated : Bool) : (store.becomeReady loaded migrated).Faithful origin memory := by
  have opening : (store.opening loaded).Faithful origin memory := by
    constructor
    · -- The writer that is opened has made no attempt and stored nothing.
      rintro writer ⟨⟩
      exact ⟨rfl, fun _ _ encoded => encoded, nofun, nofun⟩
    · exact faithful.elsewhere
  rw [becomeReady_eq]
  split
  · exact schedule_faithful opening _
  · exact opening

theorem Deed.faithful (deed : Deed Memory.Faults store memory after left)
    (orderly : store.Orderly) (faithful : store.Faithful origin memory) :
    after.Faithful origin left := by
  cases deed with
  | commit _ request =>
    rcases store.commit_cases request with same | ⟨patch, _, same⟩ | ⟨patch, _, same⟩ <;> rw [same]
    · exact faithful
    · exact { faithful with }
    · exact schedule_faithful faithful _
  | begin => exact { faithful with }
  | ready => exact becomeReady_faithful faithful _ _
  | writer present step =>
    have before := faithful.writer _ present
    constructor
    · rintro writer ⟨⟩
      exact before.step (orderly.writer _ present) step
    · intro other apart
      exact (step.elsewhere (before.keyed ▸ apart)).trans (faithful.elsewhere other apart)
  | close present =>
    constructor
    · rintro writer ⟨⟩
      exact { faithful.writer _ present with }
    · exact faithful.elsewhere
  | flush =>
    constructor
    · intro writer present
      obtain ⟨before, found, rfl⟩ := Option.map_eq_some_iff.mp present
      exact (faithful.writer before found).flush
    · exact faithful.elsewhere
  | refuse accepts =>
    constructor
    · intro writer present
      obtain ⟨before, found, rfl⟩ := Option.map_eq_some_iff.mp present
      exact (faithful.writer before found).refuse accepts
    · exact faithful.elsewhere
  | disturb disturbed =>
    obtain ⟨_, _, rfl⟩ := disturbed
    constructor
    · intro writer present
      exact { faithful.writer writer present with }
    · exact faithful.elsewhere

theorem Life.durable {config : Config} {chain : Chain} {codec : Codec}
    (life : Life Memory.Faults store origin after memory) (fresh : store.Orderly)
    (unwritten : store.writer = none) (made : store.MadeWith config chain codec) :
    after.Orderly ∧ after.Faithful origin memory ∧ after.MadeWith config chain codec := by
  refine life.keep (fun store memory =>
    store.Orderly ∧ store.Faithful origin memory ∧ store.MadeWith config chain codec) ?_ ?_
  · exact ⟨fresh, ⟨fun _ present => (nomatch unwritten.symm.trans present), fun _ _ => rfl⟩, made⟩
  · intro store place after left deed kept
    exact ⟨deed.orderly kept.1, deed.faithful kept.1 kept.2.1, deed.madeWith kept.2.2⟩

end Store

section Quiescence

variable {writer : Writer}

theorem Writer.Orderly.numbers_rise (orderly : writer.Orderly) :
    writer.attempts.reverse.Pairwise fun older newer =>
      older.revision.number < newer.revision.number := by
  have rising := orderly.rising.sublist (List.sublist_append_left _ _)
  rwa [List.pairwise_map] at rising

theorem Writer.Orderly.attempted (orderly : writer.Orderly) {attempt : Attempt}
    (member : attempt ∈ writer.attempts) :
    0 < attempt.revision.number ∧
      writer.history[attempt.revision.number - 1]? = some attempt.revision.settings := by
  apply orderly.known
  exact List.mem_append_left _ (List.mem_map_of_mem (List.mem_reverse.mpr member))

theorem Writer.Orderly.newest_of_quiescent (orderly : writer.Orderly) (quiet : writer.Quiescent) :
    writer.attempts.head?.map (·.revision) =
      writer.history.getLast?.map fun settings => ⟨writer.history.length, settings⟩ := by
  have newest := orderly.newest
  rw [Writer.revisions, quiet.1, quiet.2.1] at newest
  simpa [List.getLast?_map] using newest

/-- At rest after a write that went well the place holds the settings that were scheduled
last, which are those of the store. -/
theorem Writer.Faithful.at_rest {Place : Type} [Backend Place] [Shelf Place] {store : Store}
    {place : Place} (faithful : writer.Faithful store.config.key store.encode place)
    (orderly : store.Orderly) (present : store.writer = some writer) (quiet : writer.Quiescent)
    (scheduled : writer.history ≠ []) (succeeded : writer.lastSucceeded = true) :
    writer.history.getLast? = some store.settings ∧
      ∃ bytes, store.encode store.settings = some bytes ∧
        Shelf.held place store.config.key = some bytes := by
  obtain ⟨newest, last⟩ := Option.isSome_iff_exists.mp (List.getLast?_isSome.mpr scheduled)
  have current : newest = store.settings := orderly.current writer present newest last
  obtain ⟨attempt, bytes, latest, encoded, stored⟩ := faithful.stored succeeded quiet.2.2
  -- The write that went well was the last one made, and that was for the newest revision.
  have attempted : attempt.revision.settings = newest := by
    have rest := (orderly.writer writer present).newest_of_quiescent quiet
    rw [latest, last] at rest
    exact congrArg Revision.settings (Option.some.inj rest)
  have written := faithful.attempted attempt (List.mem_of_mem_head? latest) bytes encoded
  rw [attempted, current] at written
  exact ⟨last.trans (congrArg some current), bytes, written, stored⟩

theorem Store.Faithful.at_rest {store : Store} {origin memory : Memory}
    (faithful : store.Faithful origin memory) (orderly : store.Orderly)
    (present : store.writer = some writer) (quiet : writer.Quiescent)
    (scheduled : writer.history ≠ []) (succeeded : writer.lastSucceeded = true) :
    writer.history.getLast? = some store.settings ∧
      ∃ bytes, store.encode store.settings = some bytes ∧
        memory.get? store.config.key = some bytes :=
  (faithful.writer writer present).at_rest orderly present quiet scheduled succeeded

theorem Store.Faithful.get?_eq_writeThrough {store : Store} {origin memory : Memory}
    (faithful : store.Faithful origin memory) {history : List Settings} {newest : Settings}
    {bytes : Bytes} (last : history.getLast? = some newest)
    (encoded : store.encode newest = some bytes)
    (stored : memory.get? store.config.key = some bytes) (key : String) :
    memory.get? key = (origin.writeThrough store.config.key store.encode history).get? key := by
  by_cases same : key = store.config.key
  · rw [same, stored, Memory.writeThrough_newest origin _ last encoded]
  · rw [faithful.elsewhere key same, Memory.writeThrough_elsewhere origin _ _ same]

end Quiescence

/-- Attempts are made in the order of scheduling, each revision at most once. A writer at rest
made its last attempt for the newest revision; if that went well, the memory holds the store's
settings, as if every revision had been written at once. -/
theorem attempts_rise_and_rest_is_durable {config : Config} {chain : Migration.Chain}
    {host : Host} {codec : Codec} {made : Store} {memory : Memory} {time : Timeline Memory}
    {writer : Writer} (new : Store.new config chain host = .ok made)
    (run : Timeline.Run Memory.Faults (Timeline.start (made.withCodec codec) memory) time)
    (present : time.store.writer = some writer) :
    (writer.attempts.reverse.Pairwise fun older newer =>
      older.revision.number < newer.revision.number) ∧
    (∀ attempt ∈ writer.attempts, 0 < attempt.revision.number ∧
      writer.history[attempt.revision.number - 1]? = some attempt.revision.settings) ∧
    (writer.Quiescent →
      writer.attempts.head?.map (·.revision) =
        writer.history.getLast?.map fun settings => ⟨writer.history.length, settings⟩) ∧
    (writer.Quiescent → writer.history ≠ [] → writer.lastSucceeded = true →
      (∃ bytes, codec.encode (chain.stamp time.store.settings) = some bytes ∧
        time.place.get? config.key = some bytes) ∧
      ∀ key, time.place.get? key =
        (memory.writeThrough config.key (fun settings => codec.encode (chain.stamp settings))
          writer.history).get? key) := by
  have fresh : (made.withCodec codec).Fresh := ⟨_, _, _, _, codec, new, rfl⟩
  have madeWith : (made.withCodec codec).MadeWith config chain codec := by
    rw [Store.new_eq new]
    exact ⟨rfl, rfl, rfl⟩
  obtain ⟨orderly, faithful, setUp⟩ :=
    (run.life fresh.writer).1.durable (Store.orderly_of_fresh fresh) fresh.writer madeWith
  have encode : time.store.encode = fun settings => codec.encode (chain.stamp settings) := by
    funext settings
    rw [Store.encode, setUp.2.1, setUp.2.2]
  have kept := orderly.writer writer present
  refine ⟨kept.numbers_rise, fun _ => kept.attempted, kept.newest_of_quiescent,
    fun quiet scheduled succeeded => ?_⟩
  obtain ⟨last, bytes, written, stored⟩ :=
    faithful.at_rest orderly present quiet scheduled succeeded
  have same := faithful.get?_eq_writeThrough last written stored
  rw [setUp.1, encode] at same
  rw [encode] at written
  rw [setUp.1] at stored
  exact ⟨⟨bytes, written, stored⟩, same⟩

def Timeline.failWrites (time : Timeline Memory) (failWrites : Bool) : Timeline Memory :=
  { time with place := { time.place with failWrites } }

theorem Timeline.Run.failWrites {start time : Timeline Memory} (run : Run Memory.Faults start time)
    (failWrites : Bool) : Run Memory.Faults start (time.failWrites failWrites) :=
  run.step (.disturb time ⟨time.place.failReads, failWrites, rfl⟩)

/-- The store is loaded; the write of a first update fails, that of a second does not. -/
def healing : Timeline Memory :=
  let failing := ((Timeline.start Store.plain {}).enterLoad.1.turns 2).failWrites true
  let failed := (failing.update { clockFormat := some .twelveHour }).1.turns 3
  ((failed.failWrites false).update { clockFormat := some .twentyFourHour }).1.turns 3

theorem healing_run : Timeline.Run Memory.Faults (Timeline.start Store.plain {}) healing := by
  have entered : Timeline.Run Memory.Faults (Timeline.start Store.plain {})
      (Timeline.start Store.plain {}).enterLoad.1 := .step .start (.call (.load rfl))
  have loaded := (entered.turns rfl 2).1
  have failing := loaded.failWrites true
  have failed := ((failing.update rfl { clockFormat := some .twelveHour }).turns rfl 3).1
  have working := failed.failWrites false
  exact ((working.update rfl { clockFormat := some .twentyFourHour }).turns rfl 3).1

theorem failed_write_heals :
    ∃ made writer, Store.new {} (.empty 0) {} = .ok made ∧ healing.store.writer = some writer ∧
      writer.Quiescent ∧ writer.attempts.map (·.revision.number) = [2, 1] ∧
      ∃ bytes, some (Json.encode ((Migration.Chain.empty 0).stamp healing.store.settings)) =
          some bytes ∧ healing.place.get? "new-tab-data" = some bytes := by
  have new : ∃ made, Store.new {} (.empty 0) {} = .ok made ∧
      Store.plain = made.withCodec Format.json.codec := ⟨_, rfl, rfl⟩
  obtain ⟨made, new, plain⟩ := new
  obtain ⟨writer, present⟩ : ∃ writer, healing.store.writer = some writer := ⟨_, rfl⟩
  have quiet : writer.Quiescent ∧ writer.attempts.map (·.revision.number) = [2, 1] ∧
      writer.history ≠ [] ∧ writer.lastSucceeded = true := by
    cases present
    exact ⟨⟨rfl, rfl, fun _ => nofun⟩, rfl, nofun, rfl⟩
  have durable := attempts_rise_and_rest_is_durable new (plain ▸ healing_run) present
  exact ⟨made, writer, new, present, quiet.1, quiet.2.1,
    (durable.2.2.2 quiet.1 quiet.2.2.1 quiet.2.2.2).1⟩

end StartPage
