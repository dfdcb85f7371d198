import StartPage.Proofs.Listeners.Commits
import StartPage.Proofs.Store.Turns

/-!
What becomes of a store and its place, listeners, loads and the clock left out. Every run of a
timeline is a sequence of the deeds below, an update inside a listener being a deed like any
other; what all deeds keep, every run keeps. No deed commits to a writer that was closed.
-/
namespace StartPage

open Migration (Chain)

theorem Config.validate_eq {config checked : Config} (valid : config.validate = .ok checked) :
    checked = config := by
  unfold Config.validate at valid
  split at valid
  · contradiction
  · split at valid
    · contradiction
    · exact (Except.ok.inj valid).symm

namespace Store

theorem new_eq {config : Config} {chain : Chain} {host : Host} {made : Store}
    (new : Store.new config chain host = .ok made) :
    made = { config, chain, codec := config.format.codec, session := .ofHost host } := by
  unfold Store.new at new
  cases valid : config.validate with
  | error fault =>
    rw [valid] at new
    cases new
  | ok checked =>
    rw [valid] at new
    cases new
    rw [Config.validate_eq valid]

/-- A store that was just made, with any codec. -/
def Fresh (store : Store) : Prop :=
  ∃ config chain host made codec, Store.new config chain host = .ok made ∧
    store = made.withCodec codec

def plain : Store :=
  { config := {}, chain := .empty 0, codec := Format.json.codec, session := .ofHost {} }

theorem plain_fresh : plain.Fresh := ⟨{}, .empty 0, {}, plain, Format.json.codec, rfl, rfl⟩

theorem Fresh.writer {store : Store} (fresh : store.Fresh) : store.writer = none := by
  obtain ⟨config, chain, host, made, codec, new, rfl⟩ := fresh
  rw [new_eq new]
  rfl

theorem update_of_empty (store : Store) {patch : Patch} (empty : patch.isEmpty = true) :
    store.update patch = (store, none, store.view) := by
  rw [update, if_pos empty]

theorem update_of_unready {store : Store} {patch : Patch} (empty : patch.isEmpty = false)
    (unready : store.phase ≠ .ready) :
    store.update patch =
      ({ store with queued := store.queued ++ [patch] }, none,
        store.settings.applyAll (store.queued ++ [patch])) := by
  rw [update, if_neg (by simp [empty]), if_neg unready]
  rfl

theorem update_of_ready {store : Store} {patch : Patch} (empty : patch.isEmpty = false)
    (ready : store.phase = .ready) :
    store.update patch =
      ({ store with settings := store.settings.apply patch }.schedule,
        some ⟨store.settings.apply patch, store.session⟩, store.settings.apply patch) := by
  rw [update, if_neg (by simp [empty]), if_pos ready]
  rfl

theorem commit_ok (store : Store) (patch : Patch) :
    store.commit (.ok patch) =
      ((store.update patch).1, (store.update patch).2.1, .ok (store.update patch).2.2) := rfl

/-- A committed request queues a patch, or applies it and schedules the result, or does
nothing. -/
theorem commit_cases (store : Store) (request : Except Error Patch) :
    (store.commit request).1 = store ∨
      (∃ patch, store.phase ≠ .ready ∧
        (store.commit request).1 = { store with queued := store.queued ++ [patch] }) ∨
      ∃ patch, store.phase = .ready ∧
        (store.commit request).1 = { store with settings := store.settings.apply patch }.schedule := by
  cases request with
  | error fault => exact .inl rfl
  | ok patch =>
    rw [commit_ok]
    cases empty : patch.isEmpty with
    | true => exact .inl (by rw [update_of_empty store empty])
    | false =>
      by_cases ready : store.phase = .ready
      · exact .inr (.inr ⟨patch, ready, by rw [update_of_ready empty ready]⟩)
      · exact .inr (.inl ⟨patch, ready, by rw [update_of_unready empty ready]⟩)

theorem commit_phase (store : Store) (request : Except Error Patch) :
    (store.commit request).1.phase = store.phase := by
  rcases store.commit_cases request with same | ⟨patch, _, same⟩ | ⟨patch, _, same⟩
  · exact congrArg (·.phase) same
  · exact congrArg (·.phase) same
  · exact congrArg (·.phase) same

theorem commit_session (store : Store) (request : Except Error Patch) :
    (store.commit request).1.session = store.session := by
  rcases store.commit_cases request with same | ⟨patch, _, same⟩ | ⟨patch, _, same⟩
  · exact congrArg (·.session) same
  · exact congrArg (·.session) same
  · exact congrArg (·.session) same

/-- Nothing is closed: the store has no writer, or an open one. -/
def Open (store : Store) : Prop := ∀ writer, store.writer = some writer → writer.closed = false

theorem schedule_open {store : Store} (opened : store.Open) : store.schedule.Open := by
  intro writer present
  obtain ⟨before, found, rfl⟩ := Option.map_eq_some_iff.mp present
  have closed := opened before found
  unfold Writer.schedule Writer.send
  split <;> exact closed

theorem commit_open {store : Store} (opened : store.Open) (request : Except Error Patch) :
    (store.commit request).1.Open := by
  rcases store.commit_cases request with same | ⟨patch, _, same⟩ | ⟨patch, _, same⟩ <;> rw [same]
  · exact opened
  · exact opened
  · exact schedule_open opened

def opening (store : Store) (loaded : Settings) : Store :=
  { store with
    settings := loaded.applyAll store.queued
    session := { store.session with loaded := true }
    phase := .ready
    queued := []
    writer := some store.freshWriter }

theorem becomeReady_eq (store : Store) (loaded : Settings) (migrated : Bool) :
    store.becomeReady loaded migrated =
      if migrated || !store.queued.isEmpty then (store.opening loaded).schedule
      else store.opening loaded := rfl

theorem becomeReady_open (store : Store) (loaded : Settings) (migrated : Bool) :
    (store.becomeReady loaded migrated).Open := by
  have opened : (store.opening loaded).Open := by
    rintro writer ⟨⟩
    rfl
  rw [becomeReady_eq]
  split
  · exact schedule_open opened
  · exact opened

theorem becomeReady_phase (store : Store) (loaded : Settings) (migrated : Bool) :
    (store.becomeReady loaded migrated).phase = .ready := by
  rw [becomeReady_eq]
  split <;> rfl

theorem becomeReady_loaded (store : Store) (loaded : Settings) (migrated : Bool) :
    (store.becomeReady loaded migrated).session.loaded = true := by
  rw [becomeReady_eq]
  split <;> rfl

theorem becomeReady_settings (store : Store) (loaded : Settings) (migrated : Bool) :
    (store.becomeReady loaded migrated).settings = loaded.applyAll store.queued := by
  rw [becomeReady_eq]
  split <;> rfl

theorem mapWriter_keep {store : Store} {change : Writer → Writer} (Kept : Store → Prop)
    (kept : Kept store)
    (changed : ∀ writer, store.writer = some writer →
      Kept { store with writer := some (change writer) }) :
    Kept { store with writer := store.writer.map change } := by
  cases present : store.writer with
  | none =>
    have same : { store with writer := none } = store := by rw [← present]
    rw [Option.map_none, same]
    exact kept
  | some writer => exact changed writer present

/-- One thing done to a store or its place. -/
inductive Deed {Place : Type} [Backend Place] (disturb : Place → Place → Prop) :
    Store → Place → Store → Place → Prop where
  | commit {store : Store} {place : Place} (opened : store.Open) (request : Except Error Patch) :
      Deed disturb store place (store.commit request).1 place
  | begin {store : Store} {place : Place} (unready : store.phase ≠ .ready) :
      Deed disturb store place { store with phase := .loading } place
  | ready {store : Store} {place : Place} (unready : store.phase ≠ .ready) :
      Deed disturb store place
        (store.becomeReady (store.readBack (Backend.read place store.config.key)).1
          (store.readBack (Backend.read place store.config.key)).2) place
  | writer {store : Store} {place left : Place} {now delay : Nat} {writer after : Writer}
      (present : store.writer = some writer)
      (step : Writer.Step now delay writer place after left) :
      Deed disturb store place { store with writer := some after } left
  | close {store : Store} {place : Place} {writer : Writer} (present : store.writer = some writer) :
      Deed disturb store place { store with writer := some writer.close } place
  | flush (store : Store) (place : Place) :
      Deed disturb store place { store with writer := store.writer.map Writer.flush } place
  | refuse (store : Store) (place : Place) (accepts : Settings → Bool) :
      Deed disturb store place
        { store with
          writer := store.writer.map fun writer =>
            { writer with
              encode := fun settings => if accepts settings then store.encode settings else none } }
        place
  | disturb (store : Store) {place left : Place} (disturbed : disturb place left) :
      Deed disturb store place store left

/-- What every new writer has, and keeps whatever is done to it. -/
structure Lasting (Place : Type) [Backend Place] (Kept : Writer → Prop) : Prop where
  fresh : ∀ store : Store, Kept store.freshWriter
  schedule : ∀ writer settings, Kept writer → Kept (writer.schedule settings)
  flush : ∀ writer, Kept writer → Kept writer.flush
  close : ∀ writer, Kept writer → Kept writer.close
  refuse : ∀ (writer : Writer) encode, Kept writer → Kept { writer with encode }
  step : ∀ {writer after : Writer} {now delay : Nat} {place left : Place},
    Writer.Step now delay writer place after left → Kept writer → Kept after

theorem Deed.writer_keep {Place : Type} [Backend Place] {Kept : Writer → Prop}
    (lasting : Lasting Place Kept) {disturb : Place → Place → Prop} {store after : Store}
    {place left : Place} (deed : Deed disturb store place after left)
    (kept : ∀ writer, store.writer = some writer → Kept writer) :
    ∀ writer, after.writer = some writer → Kept writer := by
  have scheduled (store : Store) (settings : Settings)
      (kept : ∀ writer, store.writer = some writer → Kept writer) :
      ∀ writer, ({ store with settings }.schedule).writer = some writer → Kept writer := by
    intro writer present
    obtain ⟨before, found, rfl⟩ := Option.map_eq_some_iff.mp present
    exact lasting.schedule before settings (kept before found)
  cases deed with
  | commit _ request =>
    rcases store.commit_cases request with same | ⟨patch, _, same⟩ | ⟨patch, _, same⟩ <;> rw [same]
    · exact kept
    · exact kept
    · exact scheduled store _ kept
  | ready =>
    let opened := store.opening (store.readBack (Backend.read place store.config.key)).1
    have opening : ∀ writer, opened.writer = some writer → Kept writer := by
      rintro writer ⟨⟩
      exact lasting.fresh store
    rw [becomeReady_eq]
    split
    · exact scheduled opened opened.settings opening
    · exact opening
  | writer present step =>
    rintro writer ⟨⟩
    exact lasting.step step (kept _ present)
  | close present =>
    rintro writer ⟨⟩
    exact lasting.close _ (kept _ present)
  | flush =>
    intro writer present
    obtain ⟨before, found, rfl⟩ := Option.map_eq_some_iff.mp present
    exact lasting.flush before (kept before found)
  | refuse accepts =>
    intro writer present
    obtain ⟨before, found, rfl⟩ := Option.map_eq_some_iff.mp present
    exact lasting.refuse before _ (kept before found)
  | begin | disturb => exact kept

/-- What a store and a place can become by deeds. -/
inductive Life {Place : Type} [Backend Place] (disturb : Place → Place → Prop) (store : Store)
    (place : Place) : Store → Place → Prop where
  | fresh : Life disturb store place store place
  | deed {now after : Store} {here left : Place} (life : Life disturb store place now here)
      (deed : Deed disturb now here after left) : Life disturb store place after left

theorem Life.keep {Place : Type} [Backend Place] {disturb : Place → Place → Prop}
    {store after : Store} {place left : Place} (life : Life disturb store place after left)
    (Kept : Store → Place → Prop) (start : Kept store place)
    (kept : ∀ {store place after left}, Deed disturb store place after left →
      Kept store place → Kept after left) : Kept after left := by
  induction life with
  | fresh => exact start
  | deed _ deed ih => exact kept deed ih

theorem Life.writer_keep {Place : Type} [Backend Place] {Kept : Writer → Prop}
    (lasting : Lasting Place Kept) {disturb : Place → Place → Prop} {store after : Store}
    {place left : Place} (life : Life disturb store place after left)
    (unwritten : store.writer = none) {writer : Writer} (present : after.writer = some writer) :
    Kept writer :=
  life.keep (fun store _ => ∀ writer, store.writer = some writer → Kept writer)
    (fun _ present => nomatch unwritten.symm.trans present) (fun deed => deed.writer_keep lasting)
    writer present

theorem Life.commits {Place : Type} [Backend Place] {disturb : Place → Place → Prop}
    {store now after : Store} {place here : Place} (life : Life disturb store place now here)
    (opened : now.Open) {calls : List (Except Error Patch × Except Error Settings)}
    (commits : Audience.Commits Store.commit now calls after) :
    Life disturb store place after here ∧ after.Open := by
  induction commits with
  | done _ => exact ⟨life, opened⟩
  | next request _ ih => exact ih (life.deed (.commit opened request)) (commit_open opened request)

end Store

/-- The updates among calls, each with its answer; a request that was refused is none. -/
def issued (calls : List (Except Error Patch × Except Error Settings)) :
    List (Patch × Settings) :=
  calls.filterMap fun
    | (.ok patch, .ok answer) => some (patch, answer)
    | _ => none

namespace LiveStore

/-- The call of an update and those that listeners make before it returns, with their
answers. -/
def calls (live : LiveStore) (patch : Patch) :
    List (Except Error Patch × Except Error Settings) :=
  (.ok patch, .ok (live.update patch).2) ::
    match (live.host.update patch).2.1 with
    | some snapshot =>
      Audience.calls Store.commit { live with host := (live.host.update patch).1 } snapshot
    | none => []

def readyCalls (live : LiveStore) (stored : Except StorageError (Option Bytes)) :
    List (Except Error Patch × Except Error Settings) :=
  let store := live.host.becomeReady (live.host.readBack stored).1 (live.host.readBack stored).2
  Audience.calls Store.commit { live with host := store } store.snapshot

theorem update_answer (live : LiveStore) (patch : Patch) :
    (live.update patch).2 = (live.host.update patch).2.2 := by
  unfold LiveStore.update
  dsimp only
  split <;> rfl

theorem update_commits (live : LiveStore) (patch : Patch) :
    Audience.Commits Store.commit live.host (live.calls patch) (live.update patch).1.host := by
  have first : live.calls patch =
      (.ok patch, (live.host.commit (.ok patch)).2.2) :: (live.calls patch).tail := by
    rw [calls, update_answer]
    rfl
  rw [first]
  refine .next (Except.ok patch) ?_
  unfold calls LiveStore.update
  dsimp only [List.tail_cons, Store.commit_ok]
  cases announced : (live.host.update patch).2.1 with
  | none => exact .done _
  | some snapshot =>
    exact Audience.announce_commits Store.commit
      { live with host := (live.host.update patch).1 } snapshot

theorem becomeReady_answer (live : LiveStore) (stored : Except StorageError (Option Bytes)) :
    (live.becomeReady stored).2 = (live.host.readBack stored).1.applyAll live.host.queued := by
  have answer : (live.becomeReady stored).2 = (live.host.becomeReady
      (live.host.readBack stored).1 (live.host.readBack stored).2).settings := rfl
  rw [answer, Store.becomeReady_settings]

theorem becomeReady_commits (live : LiveStore) (stored : Except StorageError (Option Bytes)) :
    Audience.Commits Store.commit
      (live.host.becomeReady (live.host.readBack stored).1 (live.host.readBack stored).2)
      (live.readyCalls stored) (live.becomeReady stored).1.host := by
  let store := live.host.becomeReady (live.host.readBack stored).1 (live.host.readBack stored).2
  exact Audience.announce_commits Store.commit { live with host := store } store.snapshot

theorem becomeReady_opened (live : LiveStore) (stored : Except StorageError (Option Bytes)) :
    (live.becomeReady stored).1.host.phase = .ready ∧
      (live.becomeReady stored).1.host.session.loaded = true := by
  refine (live.becomeReady_commits stored).keep
    (fun store => store.phase = .ready ∧ store.session.loaded = true) ?_
    ⟨Store.becomeReady_phase _ _ _, Store.becomeReady_loaded _ _ _⟩
  exact fun host request kept => ⟨(host.commit_phase request).trans kept.1,
    (congrArg (·.loaded) (host.commit_session request)).trans kept.2⟩

end LiveStore

namespace Timeline

open Store

variable {Place : Type} [Backend Place] {disturb : Place → Place → Prop}

/-- A writer is closed only once its store was let go of, and only a store that is not ready
is read for. -/
structure Tidy (time : Timeline Place) : Prop where
  held : time.tenant.released = false → time.store.Open
  reading : time.tenant.loads.reading.isSome = true → time.store.phase ≠ .ready

theorem cancel_reading {loads : Loads} {ticket : Nat}
    (reading : (loads.cancel ticket).reading.isSome = true) : loads.reading.isSome = true := by
  unfold Loads.cancel at reading
  split at reading
  · simp at reading
  · split at reading <;> exact reading

section Steps

variable {store : Store} {place : Place} {time after : Timeline Place}

theorem turn_life (life : Life disturb store place time.store time.place) (tidy : time.Tidy)
    (turn : Turn time after) :
    Life disturb store place after.store after.place ∧ after.Tidy := by
  cases turn with
  | writer present step =>
    refine ⟨life.deed (.writer present step), ?_, tidy.reading⟩
    rintro held writer ⟨⟩
    rw [step.closed]
    exact tidy.held held _ present
  | close closable =>
    refine ⟨life.deed (.close (Tenant.closable?_writer closable).1), ?_, tidy.reading⟩
    intro held
    have released : time.tenant.released = true := by
      unfold Tenant.closable? at closable
      split at closable
      · rename_i done
        exact (Bool.and_eq_true_iff.mp done).1
      · contradiction
    cases released.symm.trans held
  | gate step =>
    cases Tenant.stepLoad?_gate step with
    | finish reading ended =>
      -- Listeners hear that the store is ready, and what they commit belongs to this turn.
      have unready := tidy.reading (by rw [reading]; rfl)
      have ready := life.deed (.ready unready)
      have done := ready.commits (becomeReady_open _ _ _) (LiveStore.becomeReady_commits _ _)
      exact ⟨done.1, fun _ => done.2, nofun⟩
    | pass => exact ⟨life, tidy.held, tidy.reading⟩
    | begin reading waiting unready =>
      exact ⟨life.deed (.begin unready), tidy.held, fun _ => nofun⟩

theorem call_life (life : Life disturb store place time.store time.place) (tidy : time.Tidy)
    (call : Call time after) :
    Life disturb store place after.store after.place ∧ after.Tidy := by
  cases call with
  | load => exact ⟨life, tidy.held, tidy.reading⟩
  | cancel ticket =>
    exact ⟨life, tidy.held, fun reading => tidy.reading (cancel_reading reading)⟩
  | listen => exact ⟨life, tidy.held, tidy.reading⟩

theorem step_life (life : Life disturb store place time.store time.place) (tidy : time.Tidy)
    (step : Step disturb time after) :
    Life disturb store place after.store after.place ∧ after.Tidy := by
  cases step with
  | turn turn => exact turn_life life tidy turn
  | call call => exact call_life life tidy call
  | flush held =>
    refine ⟨life.deed (.flush ..), ?_, tidy.reading⟩
    intro held writer present
    obtain ⟨before, found, rfl⟩ := Option.map_eq_some_iff.mp present
    have opened := tidy.held held before found
    unfold Writer.flush Writer.send
    split <;> exact opened
  | release => exact ⟨life, nofun, tidy.reading⟩
  | wait => exact ⟨life, tidy.held, tidy.reading⟩
  | pace => exact ⟨life, tidy.held, tidy.reading⟩
  | refuse accepts =>
    refine ⟨life.deed (.refuse _ _ accepts), ?_, tidy.reading⟩
    intro held writer present
    obtain ⟨before, found, rfl⟩ := Option.map_eq_some_iff.mp present
    exact tidy.held held before found
  | disturb disturbed => exact ⟨life.deed (.disturb _ disturbed), tidy.held, tidy.reading⟩

theorem update_life (life : Life disturb store place time.store time.place) (tidy : time.Tidy)
    (held : time.tenant.released = false) (patch : Patch) :
    Life disturb store place (time.update patch).1.store (time.update patch).1.place ∧
      (time.update patch).1.Tidy := by
  have committed := time.tenant.live.update_commits patch
  have done := life.commits (tidy.held held) committed
  have phase := committed.keep (fun store => store.phase = time.store.phase)
    (fun host request kept => (commit_phase host request).trans kept) rfl
  exact ⟨done.1, fun _ => done.2, fun reading => phase ▸ tidy.reading reading⟩

end Steps

theorem Run.from_tidy {time later : Timeline Place} (tidy : time.Tidy)
    (run : Run disturb time later) :
    Life disturb time.store time.place later.store later.place ∧ later.Tidy := by
  induction run with
  | start => exact ⟨.fresh, tidy⟩
  | step _ step ih => exact step_life ih.1 ih.2 step
  | update _ held patch ih => exact update_life ih.1 ih.2 held patch

omit [Backend Place] in
theorem tidy_start {store : Store} (unwritten : store.writer = none) (place : Place) :
    (Timeline.start store place).Tidy where
  held _ _ present := nomatch unwritten.symm.trans present
  reading := nofun

theorem Run.life {store : Store} {place : Place} {time : Timeline Place}
    (fresh : store.writer = none) (run : Run disturb (Timeline.start store place) time) :
    Life disturb store place time.store time.place ∧ time.Tidy :=
  run.from_tidy (tidy_start fresh place)

theorem Run.unread {store : Store} {place : Place} {time : Timeline Place} (fresh : store.Fresh)
    (run : Run disturb (Timeline.start store place) time) (ready : time.store.phase = .ready) :
    time.tenant.loads.reading = none := by
  cases reads : time.tenant.loads.reading with
  | none => rfl
  | some read => exact absurd ready ((run.life fresh.writer).2.reading (by rw [reads]; rfl))

end Timeline
end StartPage
