import StartPage.Proofs.Store.Calm
import StartPage.Proofs.Store.Durability
import StartPage.Proofs.Store.FirstLoad

/-!
What a load makes of a store. When the bytes in the place can be read, decoded and brought up to
date, the store has the settings that come out, and otherwise the defaults; updates from before come
on top of them. Only when there were any, or when the record had to be migrated, is anything
written. A record that nobody could read, or that needs nothing done to it, stays as it is.
-/
namespace StartPage

open Migration (Chain Outcome)

theorem Migration.Chain.newer_eq_nil (chain : Chain) {dated : Version}
    (current : chain.current ≤ dated) : chain.newer dated = [] := by
  rw [Chain.newer, List.filter_eq_nil_iff]
  intro step member newer
  have within : step.version ≤ chain.current :=
    Migration.le_getLast chain.ascending _ (List.mem_cons_of_mem _ (List.mem_map_of_mem member))
  exact absurd (of_decide_eq_true newer) (UInt32.not_lt.mpr (UInt32.le_trans within current))

theorem Migration.Chain.applied_of_current {chain : Chain} {record : Record} {outcome : Outcome}
    (ran : chain.run record = .ok outcome) (current : chain.current ≤ outcome.dated) :
    outcome.applied = [] := by
  rw [Chain.run] at ran
  obtain ⟨dated, -, ran⟩ := bind_ok ran
  obtain ⟨last, -, ran⟩ := bind_ok ran
  obtain ⟨settings, -, same⟩ := bind_ok ran
  cases same
  rw [chain.newer_eq_nil current]
  rfl

namespace Store

/-- What was stored can be read and decoded, and the chain brings it up to date. -/
def Restores (store : Store) (stored : Except StorageError (Option Bytes)) (outcome : Outcome) :
    Prop :=
  ∃ bytes record, stored = .ok (some bytes) ∧ store.codec.decode bytes = .ok record ∧
    store.chain.run record = .ok outcome

/-- Updates wait for the store to be ready, or what was stored has to be migrated. -/
def HasNews (store : Store) (stored : Except StorageError (Option Bytes)) : Prop :=
  store.queued ≠ [] ∨ ∃ outcome, store.Restores stored outcome ∧ outcome.applied ≠ []

/-- How a store becomes ready. -/
structure Readied (before : Store) (stored : Except StorageError (Option Bytes)) (ready : Store) :
    Prop where
  phase : ready.phase = .ready
  queued : ready.queued = []
  restored : ∀ outcome, before.Restores stored outcome →
    ready.settings = outcome.settings.applyAll before.queued
  defaulted : (∀ outcome, ¬ before.Restores stored outcome) →
    ready.settings = Settings.default.applyAll before.queued
  written : before.HasNews stored →
    ready.tally = ⟨1, 0, 0⟩ ∧ ready.writer.map Writer.history = some [ready.settings]
  idle : ¬ before.HasNews stored → ready.tally = {} ∧ ready.writer.map Writer.history = some []
  current : before.queued = [] →
    (∀ outcome, before.Restores stored outcome → before.chain.current ≤ outcome.dated) →
    ready.tally = {}

variable {store : Store} {stored : Except StorageError (Option Bytes)} {outcome : Outcome}

theorem readBack_of_restores (restores : store.Restores stored outcome) :
    store.readBack stored = (outcome.settings, outcome.migrated) := by
  obtain ⟨bytes, record, rfl, decoded, ran⟩ := restores
  simp only [readBack, decoded, ran]

theorem readBack_of_not_restores (none : ∀ outcome, ¬ store.Restores stored outcome) :
    store.readBack stored = (.default, false) := by
  unfold readBack
  split
  · split
    · split
      · rename_i decoded _ outcome ran
        exact absurd ⟨_, _, rfl, decoded, ran⟩ (none outcome)
      · rfl
    · rfl
  · rfl

theorem hasNews_iff (store : Store) (stored : Except StorageError (Option Bytes)) :
    store.HasNews stored ↔ ((store.readBack stored).2 || !store.queued.isEmpty) = true := by
  have queue : (!store.queued.isEmpty) = true ↔ store.queued ≠ [] := by
    rw [Bool.not_eq_true', ← Bool.not_eq_true, List.isEmpty_iff]
  rw [Bool.or_eq_true, queue, HasNews, or_comm]
  refine or_congr ?_ Iff.rfl
  constructor
  · rintro ⟨outcome, restores, applied⟩
    rw [readBack_of_restores restores]
    simpa [Outcome.migrated] using applied
  · intro migrated
    by_cases found : ∃ outcome, store.Restores stored outcome
    · obtain ⟨outcome, restores⟩ := found
      rw [readBack_of_restores restores] at migrated
      exact ⟨outcome, restores, by simpa [Outcome.migrated] using migrated⟩
    · rw [readBack_of_not_restores (not_exists.mp found)] at migrated
      cases migrated

theorem not_hasNews_of_current (empty : store.queued = [])
    (current : ∀ outcome, store.Restores stored outcome → store.chain.current ≤ outcome.dated) :
    ¬ store.HasNews stored := by
  rintro (queued | ⟨outcome, restores, applied⟩)
  · exact queued empty
  · have upToDate := current outcome restores
    obtain ⟨_, _, _, _, ran⟩ := restores
    exact applied (Chain.applied_of_current ran upToDate)

theorem becomeReady_readied (store : Store) (stored : Except StorageError (Option Bytes)) :
    store.Readied stored (store.becomeReady (store.readBack stored).1 (store.readBack stored).2) := by
  have idle (none : ¬ store.HasNews stored) :
      store.becomeReady (store.readBack stored).1 (store.readBack stored).2 =
        store.opening (store.readBack stored).1 := by
    rw [becomeReady_eq, if_neg ((hasNews_iff store stored).not.mp none)]
  refine ⟨becomeReady_phase .., ?_, ?_, ?_, ?_, ?_, ?_⟩
  · rw [becomeReady_eq]
    split <;> rfl
  · intro outcome restores
    rw [becomeReady_settings, readBack_of_restores restores]
  · intro none
    rw [becomeReady_settings, readBack_of_not_restores none]
  · intro news
    rw [becomeReady_eq, if_pos ((hasNews_iff store stored).mp news)]
    exact ⟨rfl, rfl⟩
  · intro none
    rw [idle none]
    exact ⟨rfl, rfl⟩
  · intro empty current
    rw [idle (not_hasNews_of_current empty current)]
    rfl

theorem commits_eq_of_silent {after : Store}
    {calls : List (Except Error Patch × Except Error Settings)}
    (commits : Audience.Commits Store.commit store calls after)
    (silent : ∀ call ∈ issued calls, call.1.isEmpty = true) : after = store := by
  induction commits with
  | done => rfl
  | next request _ ih =>
    cases request with
    | error fault => exact ih silent
    | ok patch =>
      have empty : patch.isEmpty = true := silent _ List.mem_cons_self
      have kept := ih fun call member => silent call (List.mem_cons_of_mem _ member)
      rw [kept, commit_ok, update_of_empty _ empty]

end Store

namespace Timeline

variable {Place View : Type} [Backend Place] {disturb : Place → Place → Prop}
variable {store : Store} {place : Place} {time after : Timeline Place}

/-- No listener that would hear now that the store is ready asks for a change. -/
def Silent (time : Timeline Place) : Prop :=
  ∀ call ∈ issued (time.tenant.live.readyCalls time.readNow), call.1.isEmpty = true

/-- What a load that found the timeline at `time` leaves behind it, `ready` being the store made
ready. Unless a listener asked for a change, the store is that one, its writer gone on; and when
nothing was scheduled, the place is left alone until an update changes something. -/
structure Leaves (disturb : Place → Place → Prop) (view : Place → View) (time : Timeline Place)
    (ready : Store) (after : Timeline Place) : Prop where
  phase : after.store.phase = .ready
  store : time.Silent → ready.WentOn after.store
  place : time.Silent → ¬ time.store.HasNews time.readNow →
    ∀ later, Calm disturb after later → view later.place = view time.place

def opened (time : Timeline Place) : Store :=
  time.store.becomeReady (time.store.readBack time.readNow).1 (time.store.readBack time.readNow).2

theorem host_madeReady (silent : time.Silent) : time.madeReady.1.host = time.opened :=
  Store.commits_eq_of_silent (time.tenant.live.becomeReady_commits time.readNow) silent

theorem Calm.leaves {ended : Timeline Place} {view : Place → View}
    (blind : ∀ before after, disturb before after → view after = view before)
    (fresh : store.Fresh) (run : Run disturb (Timeline.start store place) ended)
    (untouched : ended.place = time.place) (live : ended.tenant.live = time.madeReady.1)
    (ready : ended.store.phase = .ready) (calm : Calm disturb ended after) :
    Leaves disturb view time time.opened after := by
  have made (silent : time.Silent) : ended.store = time.opened := by
    rw [← host_madeReady silent, ← live]
    rfl
  have wentOn := calm.wentOn fresh run ready
  refine ⟨wentOn.phase.trans ready, ?_, ?_⟩
  · intro silent
    rw [← made silent]
    exact wentOn
  · intro silent none later further
    have idle : ended.store.tally = {} := by
      rw [made silent]
      exact ((time.store.becomeReady_readied time.readNow).idle none).1
    rw [← untouched]
    exact (calm.trans further).place_kept fresh run ready view blind (by rw [idle])

/-- A load never fails. A read that ends makes the store ready with what could be restored, or with
the defaults, and schedules a write only when updates were waiting or the record was migrated;
and a load that is called is answered with that. When nothing was scheduled the place stays as it
was until an update changes something. -/
theorem load_restores_or_defaults (view : Place → View)
    (blind : ∀ before after, disturb before after → view after = view before)
    (fresh : store.Fresh) (run : Run disturb (start store place) time) :
    ∃ ready, time.store.Readied time.readNow ready ∧
      (∀ ticket ends tenant, time.tenant.loads.reading = some (ticket, ends) →
        time.tenant.stepLoad? time.now time.readDelay time.place = some tenant →
          tenant.live = LiveStore.announce { time.tenant.live with host := ready } ready.snapshot ∧
          tenant.loads.fate? ticket = some (.loaded ready.settings) ∧
          Leaves disturb view time ready { time with tenant }) ∧
      (time.tenant.released = false → time.store.phase ≠ .ready →
        ∃ settings, time.load.2 = some (.loaded settings) ∧
          (time.tenant.loads.isQuiet = true ∨ time.Silent → settings = ready.settings) ∧
          Leaves disturb view time ready time.load.1) := by
  refine ⟨time.opened, time.store.becomeReady_readied time.readNow, ?_, ?_⟩
  · intro ticket ends tenant reads step
    have ended := run.step (.turn (.gate step))
    have ready := Tenant.stepLoad?_ready (by rw [reads]; rfl) step
    cases Tenant.stepLoad?_gate step with
    | pass free => cases free.symm.trans reads
    | begin free => cases free.symm.trans reads
    | finish found =>
      cases found.symm.trans reads
      exact ⟨rfl, Loads.fate?_cons_self .., Calm.start.leaves blind fresh ended rfl rfl ready⟩
  · intro held unready
    have alone : time.leaving = [] := run.leaving
    have unwritten := ((run.orderly fresh).unready unready).1
    have unanswered := (run.numbered ⟨nofun, nofun, nofun⟩).unanswered
    obtain ⟨ended, settings, ends, since, found, answer⟩ :=
      load_ends disturb held unready unwritten unanswered alone
    refine ⟨settings, found, ?_, since.calm.leaves blind fresh (ends.calm.run run) ends.untouched
      ends.live ends.since.ready⟩
    rintro (quiet | silent)
    · exact answer.resolve_right fun late => late.1 quiet
    · rcases answer with own | ⟨-, late⟩
      · exact own
      · rw [late, Timeline.store, Tenant.store, ends.live, host_madeReady silent]

def damaged : Timeline Memory := start Store.plain (Memory.put {} "new-tab-data" [0x7B])

/-- A load of it gives the defaults. A flush is asked for, time passes and the store is let go of,
and the brace is still there. -/
theorem damaged_record_is_kept :
    ∃ later, damaged.load.2 = some (.loaded .default) ∧
      Calm Memory.Faults damaged.load.1 later ∧ later.tenant.released = true ∧
      damaged.load.1.now + 5000 ≤ later.now ∧
      later.place.entries = [("new-tab-data", [0x7B])] := by
  have blind : ∀ before after : Memory, Memory.Faults before after →
      after.entries = before.entries := by
    rintro before after ⟨failReads, failWrites, rfl⟩
    rfl
  have unreadable : ∀ outcome, ¬ damaged.store.Restores damaged.readNow outcome := by
    rintro outcome ⟨bytes, record, stands, decoded, -⟩
    have found : damaged.readNow = .ok (some [0x7B]) := rfl
    cases found.symm.trans stands
    cases decoded
  have idle : ¬ damaged.store.HasNews damaged.readNow := by
    rintro (queued | ⟨outcome, restores, -⟩)
    · exact queued rfl
    · exact unreadable outcome restores
  have silent : damaged.Silent := nofun
  have run : Run Memory.Faults damaged damaged := .start
  have unready : damaged.store.phase ≠ .ready := by decide
  obtain ⟨_, _, _, since, -⟩ := load_ends Memory.Faults rfl unready rfl rfl rfl
  obtain ⟨ready, readied, -, loads⟩ :=
    load_restores_or_defaults Memory.entries blind Store.plain_fresh run
  obtain ⟨settings, found, answer, leaves⟩ := loads rfl unready
  have loaded : Calm Memory.Faults damaged.load.1 damaged.load.1 := .start
  have waited := (loaded.step (.flush since.held)).step
    (.wait _ (damaged.load.1.now + 5000) (Nat.le_add_right _ _))
  have calm := waited.step (.release _)
  refine ⟨_, ?_, calm, rfl, Nat.le_refl _, leaves.place silent idle _ calm⟩
  rw [found, answer (.inl rfl), readied.defaulted unreadable]
  rfl

end Timeline
end StartPage
