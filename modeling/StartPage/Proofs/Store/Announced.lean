import Mathlib.Data.List.TakeWhile
import StartPage.Proofs.Listeners.Attentive
import StartPage.Proofs.Store.Calm
import StartPage.Proofs.Store.Loading

/-!
What listeners are told that do not call back. A log notes who subscribes, who is cancelled, and
every commit with the state that it leaves: a load that makes the store ready, and an update of a
ready store that changes anything. A listener hears the commits between its subscription and its
cancellation, each once and in order, and nothing else. That the store is let go of cancels nobody:
a load still in progress commits before the same listeners.
-/
namespace StartPage

open Audience (delivered)

/-- What happens to a store as far as its listeners are concerned. -/
inductive Notice where
  | subscribed (handle : Handle)
  | cancelled (handle : Handle)
  | committed (snapshot : Snapshot)
deriving DecidableEq

namespace Notice

def snapshot? : Notice → Option Snapshot
  | committed snapshot => some snapshot
  | _ => none

def since (handle : Handle) (log : List Notice) : List Notice :=
  log.dropWhile (· ≠ subscribed handle)

/-- The commits between the subscription and the cancellation of a listener. -/
def witnessed (handle : Handle) (log : List Notice) : List Snapshot :=
  ((since handle log).takeWhile (· ≠ cancelled handle)).filterMap snapshot?

/-- The listener was subscribed, and has not been cancelled since. -/
def Listening (handle : Handle) (log : List Notice) : Prop :=
  subscribed handle ∈ log ∧ cancelled handle ∉ since handle log

section Log

variable {handle other : Handle} {log more : List Notice} {snapshot : Snapshot} {notice : Notice}

theorem since_isEmpty : (since handle log).isEmpty = true ↔ subscribed handle ∉ log := by
  rw [List.isEmpty_iff, since, List.dropWhile_eq_nil_iff]
  constructor
  · intro others member
    exact of_decide_eq_true (others _ member) rfl
  · intro absent notice member
    exact decide_eq_true fun same => absent (same ▸ member)

theorem since_append : since handle (log ++ more) =
    if subscribed handle ∈ log then since handle log ++ more else since handle more := by
  rw [since, List.dropWhile_append]
  exact ite_congr (propext since_isEmpty) (fun _ => rfl) (fun _ => rfl) |>.trans (ite_not ..)

theorem witnessed_append_of_listening (listening : Listening handle log) :
    witnessed handle (log ++ more) =
      witnessed handle log ++ (more.takeWhile (· ≠ cancelled handle)).filterMap snapshot? := by
  obtain ⟨member, free⟩ := listening
  have all : ∀ notice ∈ since handle log, decide (notice ≠ cancelled handle) = true :=
    fun notice present => decide_eq_true fun same => free (same ▸ present)
  rw [witnessed, since_append, if_pos member, List.takeWhile_append_of_pos all,
    List.filterMap_append, witnessed, List.takeWhile_eq_self_iff.mpr all]

theorem witnessed_append_of_cancelled (member : subscribed handle ∈ log)
    (gone : cancelled handle ∈ since handle log) :
    witnessed handle (log ++ more) = witnessed handle log := by
  have short : ¬ ((since handle log).takeWhile (· ≠ cancelled handle)).length =
      (since handle log).length := by
    intro whole
    have same := List.IsPrefix.eq_of_length (List.takeWhile_prefix _) whole
    exact of_decide_eq_true (List.takeWhile_eq_self_iff.mp same _ gone) rfl
  rw [witnessed, since_append, if_pos member, List.takeWhile_append, if_neg short, witnessed]

theorem witnessed_append_of_unknown (unknown : subscribed handle ∉ log) :
    witnessed handle (log ++ more) = witnessed handle more := by
  rw [witnessed, since_append, if_neg unknown, witnessed]

theorem witnessed_of_unknown (unknown : subscribed handle ∉ log) : witnessed handle log = [] := by
  rw [witnessed, List.isEmpty_iff.mp (since_isEmpty.mpr unknown)]
  rfl

theorem witnessed_committed [Decidable (Listening handle log)] :
    witnessed handle (log ++ [committed snapshot]) =
      witnessed handle log ++ if Listening handle log then [snapshot] else [] := by
  by_cases member : subscribed handle ∈ log
  · by_cases gone : cancelled handle ∈ since handle log
    · rw [witnessed_append_of_cancelled member gone, if_neg fun listening => listening.2 gone,
        List.append_nil]
    · rw [witnessed_append_of_listening ⟨member, gone⟩, if_pos ⟨member, gone⟩]
      rfl
  · rw [witnessed_append_of_unknown member, witnessed_of_unknown member,
      if_neg fun listening => member listening.1]
    rfl

theorem witnessed_append (silent : ∀ notice ∈ more, notice.snapshot? = none) :
    witnessed handle (log ++ more) = witnessed handle log := by
  have nothing : ∀ part : List Notice, part ⊆ more → part.filterMap snapshot? = [] :=
    fun part within => List.filterMap_eq_nil_iff.mpr fun notice member => silent _ (within member)
  by_cases member : subscribed handle ∈ log
  · by_cases gone : cancelled handle ∈ since handle log
    · exact witnessed_append_of_cancelled member gone
    · rw [witnessed_append_of_listening ⟨member, gone⟩,
        nothing _ (List.takeWhile_prefix _).subset, List.append_nil]
  · rw [witnessed_append_of_unknown member, witnessed_of_unknown member, witnessed]
    exact nothing _ fun notice found =>
      (List.dropWhile_sublist _).subset ((List.takeWhile_prefix _).subset found)

theorem listening_committed :
    Listening handle (log ++ [committed snapshot]) ↔ Listening handle log := by
  by_cases member : subscribed handle ∈ log <;> simp [Listening, since_append, member]

theorem listening_subscribed (fresh : subscribed other ∉ log) :
    Listening handle (log ++ [subscribed other]) ↔ Listening handle log ∨ handle = other := by
  by_cases same : handle = other
  · subst same
    have begun : since handle (log ++ [subscribed handle]) = [subscribed handle] := by
      rw [since_append, if_neg fresh, since, List.dropWhile_cons_of_neg (by simp)]
    simp [Listening, begun]
  · by_cases member : subscribed handle ∈ log <;> simp [Listening, since_append, member, same]

theorem listening_cancelled :
    Listening handle (log ++ [cancelled other]) ↔ Listening handle log ∧ handle ≠ other := by
  by_cases member : subscribed handle ∈ log <;> simp [Listening, since_append, member]

end Log
end Notice

open Notice

namespace Timeline

variable {Place : Type} [Backend Place] {disturb : Place → Place → Prop}

/-- Runs of a store whose listeners only take note, with their log. Whatever else happens neither
touches the listeners nor makes the store ready. -/
inductive Watched (disturb : Place → Place → Prop) (start : Timeline Place) :
    List Notice → Timeline Place → Prop where
  | start : Watched disturb start [] start
  | step {log : List Notice} {time after : Timeline Place}
      (watched : Watched disturb start log time) (step : Step disturb time after)
      (hub : after.tenant.live.hub = time.tenant.live.hub)
      (same : after.store.phase = .ready ↔ time.store.phase = .ready) :
      Watched disturb start log after
  | subscribe {log : List Notice} {time : Timeline Place} (watched : Watched disturb start log time)
      (name : String) (script : Script (Except Error Patch)) (quiet : ∀ call ∈ script, call = []) :
      Watched disturb start (log ++ [subscribed time.tenant.live.hub.nextHandle])
        (time.withHub fun hub => hub.subscribe name script)
  | cancel {log : List Notice} {time : Timeline Place} (watched : Watched disturb start log time)
      (handle : Handle) :
      Watched disturb start (log ++ [cancelled handle]) (time.withHub fun hub => hub.cancel handle)
  | forget {log : List Notice} {time : Timeline Place} (watched : Watched disturb start log time)
      (name : String) : Watched disturb start log (time.withHub fun hub => hub.forget name)
  /-- The load that reads has made the store ready. -/
  | loaded {log : List Notice} {time : Timeline Place} {tenant : Tenant}
      (watched : Watched disturb start log time)
      (reading : time.tenant.loads.reading.isSome = true)
      (step : time.tenant.stepLoad? time.now time.readDelay time.place = some tenant) :
      Watched disturb start (log ++ [committed tenant.store.snapshot]) { time with tenant }
  | update {log : List Notice} {time : Timeline Place} (watched : Watched disturb start log time)
      (held : time.tenant.released = false) (patch : Patch) :
      Watched disturb start
        (log ++ if time.store.phase = .ready ∧ patch.isEmpty = false then
          [committed (time.update patch).1.store.snapshot] else [])
        (time.update patch).1

variable {start time after : Timeline Place} {log : List Notice}

theorem Watched.run (watched : Watched disturb start log time) : Run disturb start time := by
  induction watched with
  | start => exact .start
  | step _ step _ _ ih => exact ih.step step
  | subscribe | cancel | forget =>
    rename_i ih
    exact ih.step (.call (.listen _ _))
  | loaded _ _ step ih => exact ih.step (.turn (.gate step))
  | update _ held patch ih => exact ih.update held patch

/-- Whatever may happen next goes on with the log, unless it is some change of the listeners. -/
theorem Watched.goes_on (watched : Watched disturb start log time)
    (step : Step disturb time after) : (∃ change, after = time.withHub change) ∨
      ∃ more, Watched disturb start (log ++ more) after := by
  have quiet (step : Step disturb time after) (hub : after.tenant.live.hub = time.tenant.live.hub)
      (same : after.store.phase = .ready ↔ time.store.phase = .ready) :
      ∃ more, Watched disturb start (log ++ more) after :=
    ⟨[], (List.append_nil log).symm ▸ watched.step step hub same⟩
  cases step with
  | turn turn =>
    refine .inr ?_
    cases turn with
    | gate step =>
      cases Tenant.stepLoad?_gate step with
      | finish reading ended => exact ⟨_, watched.loaded (by rw [reading]; rfl) step⟩
      | pass reading waiting ready => exact quiet (.turn (.gate step)) rfl Iff.rfl
      | begin reading waiting unready =>
        exact quiet (.turn (.gate step)) rfl ⟨nofun, fun ready => absurd ready unready⟩
    | writer present step => exact quiet (.turn (.writer present step)) rfl Iff.rfl
    | close closable => exact quiet (.turn (.close closable)) rfl Iff.rfl
  | call call =>
    cases call with
    | listen change => exact .inl ⟨change, rfl⟩
    | load held => exact .inr (quiet (.call (.load held)) rfl Iff.rfl)
    | cancel ticket => exact .inr (quiet (.call (.cancel time ticket)) rfl Iff.rfl)
  | release => exact .inr (quiet (.release time) rfl Iff.rfl)
  | flush held => exact .inr (quiet (.flush held) rfl Iff.rfl)
  | wait later forward => exact .inr (quiet (.wait time later forward) rfl Iff.rfl)
  | pace readDelay writeDelay => exact .inr (quiet (.pace time readDelay writeDelay) rfl Iff.rfl)
  | refuse accepts => exact .inr (quiet (.refuse time accepts) rfl Iff.rfl)
  | disturb disturbed => exact .inr (quiet (.disturb time disturbed) rfl Iff.rfl)

/-- What the listeners of a store have heard is what the log says that they witnessed. -/
structure Reported (log : List Notice) (time : Timeline Place) : Prop where
  genuine : time.tenant.live.hub.Genuine
  attentive : time.tenant.live.hub.Attentive
  known : ∀ handle, subscribed handle ∈ log → time.tenant.live.hub.Issued handle
  listening : ∀ handle, handle ∈ time.tenant.live.hub.handles ↔ Listening handle log
  heard : ∀ handle, delivered handle time.tenant.live.heard = witnessed handle log
  loaded : time.store.phase = .ready → time.store.session.loaded = true
  committed : ∀ snapshot, committed snapshot ∈ log → snapshot.session.loaded = true

omit [Backend Place] in
theorem update_of_unready (time : Timeline Place) {patch : Patch} (changing : patch.isEmpty = false)
    (unready : time.store.phase ≠ .ready) :
    (time.update patch).1 =
      time.withStore fun store => { store with queued := store.queued ++ [patch] } := by
  have unready : time.tenant.live.host.phase ≠ .ready := unready
  rw [update, LiveStore.update, Store.update_of_unready changing unready]
  rfl

theorem Step.unheard (tidy : time.Tidy) (step : Step disturb time after)
    (same : after.store.phase = .ready ↔ time.store.phase = .ready) :
    after.tenant.live.heard = time.tenant.live.heard ∧
      after.store.session = time.store.session := by
  cases step with
  | turn turn =>
    cases turn with
    | writer | close => exact ⟨rfl, rfl⟩
    | gate step =>
      cases Tenant.stepLoad?_gate step with
      | finish reading ended =>
        -- The end of a read would have made the store ready, which this step did not.
        have reads : time.tenant.loads.reading.isSome = true := by rw [reading]; rfl
        exact absurd (same.mp (Tenant.stepLoad?_ready reads step)) (tidy.reading reads)
      | pass | begin => exact ⟨rfl, rfl⟩
  | call call => cases call <;> exact ⟨rfl, rfl⟩
  | flush | release | wait | pace | refuse | disturb => exact ⟨rfl, rfl⟩

omit [Backend Place] in
theorem Reported.announce (reported : Reported log time) {store : Store}
    (loaded : store.session.loaded = true) {tenant : Tenant}
    (announced : tenant.live =
      LiveStore.announce { time.tenant.live with host := store } store.snapshot) :
    Reported (log ++ [.committed tenant.store.snapshot]) { time with tenant } := by
  have told : Audience.Told { time.tenant.live with host := store } time.tenant.live.hub.handles
      store.snapshot (LiveStore.announce { time.tenant.live with host := store } store.snapshot) :=
    Audience.announce_told reported.genuine reported.attentive
  rw [← announced] at told
  obtain ⟨host, genuine, attentive, handles, next, heard⟩ := told
  have current : tenant.store = store := host
  rw [current]
  refine ⟨genuine, attentive, fun handle member => ?_, fun handle => ?_,
    fun handle => ?_, fun _ => ?_, fun snapshot member => ?_⟩
  · have older : subscribed handle ∈ log := by simpa using member
    exact (Hub.issued_congr next).mpr (reported.known handle older)
  · change handle ∈ tenant.live.hub.handles ↔ _
    rw [handles, reported.listening handle, listening_committed]
  · classical
    change delivered handle tenant.live.heard = _
    rw [heard, witnessed_committed, reported.heard]
    exact congrArg _ (ite_congr (propext (reported.listening handle)) (fun _ => rfl) fun _ => rfl)
  · change tenant.store.session.loaded = true
    rw [current]
    exact loaded
  · rcases List.mem_append.mp member with older | last
    · exact reported.committed snapshot older
    · cases List.mem_singleton.mp last
      exact loaded

omit [Backend Place] in
theorem Reported.withHub (reported : Reported log time)
    {change : Hub (Except Error Patch) → Hub (Except Error Patch)} {more : List Notice}
    (genuine : (change time.tenant.live.hub).Genuine)
    (attentive : (change time.tenant.live.hub).Attentive)
    (known : ∀ handle, subscribed handle ∈ log ++ more →
      (change time.tenant.live.hub).Issued handle)
    (listening : ∀ handle,
      handle ∈ (change time.tenant.live.hub).handles ↔ Listening handle (log ++ more))
    (silent : ∀ notice ∈ more, notice.snapshot? = none) :
    Reported (log ++ more) (time.withHub change) where
  genuine := genuine
  attentive := attentive
  known := known
  listening := listening
  heard handle := (reported.heard handle).trans (witnessed_append silent).symm
  loaded := reported.loaded
  committed snapshot member := by
    rcases List.mem_append.mp member with older | last
    · exact reported.committed snapshot older
    · cases silent _ last

omit [Backend Place] in
theorem reported_start {store : Store} (fresh : store.Fresh) (place : Place) :
    Reported [] (Timeline.start store place) := by
  obtain ⟨config, chain, host, made, codec, new, rfl⟩ := fresh
  rw [Store.new_eq new]
  exact ⟨Hub.genuine_empty, Hub.attentive_empty, fun _ member => absurd member List.not_mem_nil,
    fun _ => ⟨nofun, fun listening => absurd listening.1 List.not_mem_nil⟩, fun _ => rfl, nofun,
    fun _ member => absurd member List.not_mem_nil⟩

theorem Reported.step (reported : Reported log time) (tidy : time.Tidy)
    (step : Step disturb time after) (hub : after.tenant.live.hub = time.tenant.live.hub)
    (same : after.store.phase = .ready ↔ time.store.phase = .ready) : Reported log after := by
  obtain ⟨heard, session⟩ := step.unheard tidy same
  refine ⟨hub ▸ reported.genuine, hub ▸ reported.attentive, hub ▸ reported.known,
    hub ▸ reported.listening, ?_, ?_, reported.committed⟩
  · rw [heard]
    exact reported.heard
  · rw [same, session]
    exact reported.loaded

omit [Backend Place] in
theorem Reported.subscribe (reported : Reported log time) (name : String)
    {script : Script (Except Error Patch)} (quiet : ∀ call ∈ script, call = []) :
    Reported (log ++ [subscribed time.tenant.live.hub.nextHandle])
      (time.withHub fun hub => hub.subscribe name script) := by
  have fresh : subscribed time.tenant.live.hub.nextHandle ∉ log := fun member =>
    Hub.not_issued_nextHandle (reported.known _ member)
  refine reported.withHub (reported.genuine.subscribe name script)
    (reported.attentive.subscribe name quiet) (fun handle member => ?_) (fun handle => ?_)
    (by simp [snapshot?])
  · rw [Hub.issued_subscribe]
    rcases List.mem_append.mp member with older | last
    · exact .inl (reported.known handle older)
    · cases List.mem_singleton.mp last
      exact .inr rfl
  · rw [Hub.handles_subscribe, List.mem_append, List.mem_singleton, reported.listening,
      listening_subscribed fresh]

omit [Backend Place] in
theorem Reported.cancel (reported : Reported log time) (handle : Handle) :
    Reported (log ++ [cancelled handle]) (time.withHub fun hub => hub.cancel handle) := by
  refine reported.withHub (reported.genuine.cancel handle) (reported.attentive.cancel handle)
    (fun other member => ?_) (fun other => ?_) (by simp [snapshot?])
  · rw [Hub.issued_congr (Hub.nextHandle_cancel handle)]
    exact reported.known other (by simpa using member)
  · rw [Hub.handles_cancel, List.mem_filter, reported.listening, listening_cancelled,
      decide_eq_true_iff]

theorem Reported.load (reported : Reported log time) {tenant : Tenant}
    (reading : time.tenant.loads.reading.isSome = true)
    (step : time.tenant.stepLoad? time.now time.readDelay time.place = some tenant) :
    Reported (log ++ [.committed tenant.store.snapshot]) { time with tenant } := by
  rcases Tenant.stepLoad?_cases step with ⟨-, live⟩ | ⟨none, -⟩
  · let read := time.store.readBack time.readNow
    have announced : tenant.live = LiveStore.announce
        { time.tenant.live with host := time.store.becomeReady read.1 read.2 }
        (time.store.becomeReady read.1 read.2).snapshot := live
    exact reported.announce (Store.becomeReady_loaded time.store read.1 read.2) announced
  · rw [none] at reading
    cases reading

omit [Backend Place] in
theorem Reported.update (reported : Reported log time) (patch : Patch) :
    Reported
      (log ++ if time.store.phase = .ready ∧ patch.isEmpty = false then
        [.committed (time.update patch).1.store.snapshot] else [])
      (time.update patch).1 := by
  split
  case isTrue commits =>
    obtain ⟨ready, changing⟩ := commits
    have ready : time.tenant.live.host.phase = .ready := ready
    have loaded : (time.tenant.live.host.update patch).1.session.loaded = true := by
      rw [Store.update_of_ready changing ready]
      exact reported.loaded ready
    have announced : (time.update patch).1.tenant.live =
        LiveStore.announce
          { time.tenant.live with host := (time.tenant.live.host.update patch).1 }
          (time.tenant.live.host.update patch).1.snapshot := by
      change (time.tenant.live.update patch).1 = _
      rw [LiveStore.update, Store.update_of_ready changing ready]
      rfl
    exact reported.announce loaded announced
  case isFalse silent =>
    rw [List.append_nil]
    cases empty : patch.isEmpty with
    | true =>
      rw [time.update_of_empty empty]
      exact reported
    | false =>
      have unready : time.store.phase ≠ .ready := fun ready => silent ⟨ready, empty⟩
      rw [time.update_of_unready empty unready]
      exact ⟨reported.genuine, reported.attentive, reported.known, reported.listening,
        reported.heard, reported.loaded, reported.committed⟩

theorem Watched.reported {store : Store} {place : Place} (fresh : store.Fresh)
    (watched : Watched disturb (Timeline.start store place) log time) : Reported log time := by
  induction watched with
  | start => exact reported_start fresh place
  | step watched step hub same ih => exact ih.step (watched.run.life fresh.writer).2 step hub same
  | subscribe _ name script quiet ih => exact ih.subscribe name quiet
  | cancel _ handle ih => exact ih.cancel handle
  | forget _ name ih =>
    exact ⟨ih.genuine.forget name, ih.attentive, ih.known, ih.listening, ih.heard, ih.loaded,
      ih.committed⟩
  | loaded _ reading step ih => exact ih.load reading step
  | update _ _ patch ih => exact ih.update patch

/-- A listener that only takes note has heard every commit between its subscription and its
cancellation, each once and in order, and nothing else; all are of a store that has been loaded.
An update that is queued is told nobody, and one that is empty changes nothing at all. -/
theorem commits_are_heard_in_order {store : Store} {place : Place} (fresh : store.Fresh)
    (watched : Watched disturb (Timeline.start store place) log time) :
    (∀ handle, delivered handle time.tenant.live.heard = witnessed handle log) ∧
    (∀ snapshot, committed snapshot ∈ log → snapshot.session.loaded = true) ∧
    (∀ patch, time.store.phase ≠ .ready →
      (time.update patch).1.tenant.live.heard = time.tenant.live.heard) ∧
    ∀ patch : Patch, patch.isEmpty = true → (time.update patch).1 = time := by
  have reported := watched.reported fresh
  refine ⟨reported.heard, reported.committed, fun patch unready => ?_, fun patch empty =>
    time.update_of_empty empty⟩
  cases empty : patch.isEmpty with
  | true => rw [time.update_of_empty empty]
  | false =>
    rw [time.update_of_unready empty unready]
    rfl

/-- The first listener misses the update that is queued and the one after its cancellation, the
second the load and the update before its subscription; the empty update is missed by both. -/
theorem listeners_hear_their_commits :
    ∃ log time, Watched (fun _ _ => False) (Timeline.start Store.plain ({} : Memory)) log time ∧
      (delivered ⟨0, 0⟩ time.tenant.live.heard = witnessed ⟨0, 0⟩ log ∧
        (witnessed ⟨0, 0⟩ log).map (·.settings.clockFormat) = [.twelveHour, .twentyFourHour]) ∧
      delivered ⟨0, 1⟩ time.tenant.live.heard = witnessed ⟨0, 1⟩ log ∧
        (witnessed ⟨0, 1⟩ log).map (·.settings.clockFormat) = [.locale] := by
  have fresh : Watched (fun _ _ => False) (Timeline.start Store.plain ({} : Memory)) [] _ := .start
  have queued := fresh.update rfl (Patch.empty.setClockFormat .twelveHour)
  have first := queued.subscribe "first" [] nofun
  have called := first.step (.call (.load rfl)) rfl Iff.rfl
  have begun := called.step (.turn (.gate rfl)) rfl ⟨nofun, nofun⟩
  have ready := (begun.loaded rfl rfl).update rfl (Patch.empty.setClockFormat .twentyFourHour)
  have second := (ready.update rfl .empty).subscribe "second" [] nofun
  have last := (second.cancel ⟨0, 0⟩).update rfl (Patch.empty.setClockFormat .locale)
  obtain ⟨heard, -⟩ := commits_are_heard_in_order Store.plain_fresh last
  exact ⟨_, _, last, ⟨heard ⟨0, 0⟩, by decide +kernel⟩, heard ⟨0, 1⟩, by decide +kernel⟩

end Timeline
end StartPage
