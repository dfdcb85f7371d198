import StartPage.Proofs.Listeners.Quiet
import StartPage.Proofs.Store.Acts
import StartPage.Proofs.Store.Solo
import StartPage.Proofs.Store.Written

/-!
What the host tells of its window stays in the session. Nothing that a store does looks at the
session, so two stores that differ in their hosts alone, and whose listeners commit nothing, do the
same whatever happens to both: they answer the same, count the same and leave the same bytes. What
is stored is a stamped record of settings, which has no field of the session.
-/
namespace StartPage

open Migration (Chain)

/-- The session that the host's window has, whether or not the store is loaded. -/
def Session.IsOf (host : Host) (session : Session) : Prop :=
  session = { Session.ofHost host with loaded := session.loaded }

theorem Session.IsOf.loaded {host : Host} {session : Session} (shown : session.IsOf host) :
    { session with loaded := true }.IsOf host := by
  rw [shown]
  rfl

namespace Timeline.Act

variable {Place : Type}

def listens : Act Place → Bool
  | .listen _ => true
  | _ => false

/-- The listeners that the act brings commit nothing. -/
def Harmless : Act Place → Prop
  | .listen change => ∀ hub, hub.commits = 0 → (change hub).commits = 0
  | _ => True

end Timeline.Act

namespace Store

/-- The store without what its host told. -/
def hostless (store : Store) : Store :=
  { store with session := { loaded := store.session.loaded } }

theorem hostless_update (store : Store) (patch : Patch) :
    (store.hostless.update patch).1 = (store.update patch).1.hostless ∧
      (store.hostless.update patch).2.2 = (store.update patch).2.2 := by
  cases empty : patch.isEmpty with
  | true =>
    rw [update_of_empty _ empty, update_of_empty _ empty]
    exact ⟨rfl, rfl⟩
  | false =>
    by_cases ready : store.phase = .ready
    · have still : store.hostless.phase = .ready := ready
      rw [update_of_ready empty ready, update_of_ready empty still]
      exact ⟨rfl, rfl⟩
    · have still : store.hostless.phase ≠ .ready := ready
      rw [update_of_unready empty ready, update_of_unready empty still]
      exact ⟨rfl, rfl⟩

theorem hostless_becomeReady (store : Store) (loaded : Settings) (migrated : Bool) :
    store.hostless.becomeReady loaded migrated = (store.becomeReady loaded migrated).hostless := by
  have queued : store.hostless.queued = store.queued := rfl
  rw [becomeReady_eq, becomeReady_eq, queued]
  split <;> rfl

end Store

namespace LiveStore

variable {live : LiveStore}

def bare (live : LiveStore) : LiveStore := { host := live.host.hostless }

theorem update_hears (quiet : live.hub.commits = 0) (patch : Patch) :
    Audience.Hears ⟨(live.update patch).2, live.host.session⟩
      { live with host := (live.host.update patch).1 } (live.update patch).1 := by
  rw [update_answer, LiveStore.update]
  cases empty : patch.isEmpty with
  | true =>
    rw [Store.update_of_empty _ empty]
    exact .refl quiet
  | false =>
    by_cases ready : live.host.phase = .ready
    · rw [Store.update_of_ready empty ready]
      exact Audience.announce_hears Store.commit
        { live with host := { live.host with settings := live.host.settings.apply patch }.schedule }
        quiet _
    · rw [Store.update_of_unready empty ready]
      exact .refl quiet

theorem becomeReady_hears (quiet : live.hub.commits = 0)
    (stored : Except StorageError (Option Bytes)) :
    let opened := live.host.becomeReady (live.host.readBack stored).1 (live.host.readBack stored).2
    Audience.Hears opened.snapshot { live with host := opened } (live.becomeReady stored).1 := by
  intro opened
  exact Audience.announce_hears Store.commit { live with host := opened } quiet opened.snapshot

theorem bare_update (quiet : live.hub.commits = 0) (patch : Patch) :
    live.bare.update patch = ((live.update patch).1.bare, (live.update patch).2) := by
  obtain ⟨store, answer⟩ := live.host.hostless_update patch
  have unheard : live.bare.hub = {} := rfl
  refine Prod.ext ?_ ?_
  · have kept := (update_hears quiet patch).host
    rw [update_unheard unheard, bare, bare, kept, store]
  · rw [update_answer, update_answer]
    exact answer

theorem bare_becomeReady (quiet : live.hub.commits = 0)
    (stored : Except StorageError (Option Bytes)) :
    live.bare.becomeReady stored =
      ((live.becomeReady stored).1.bare, (live.becomeReady stored).2) := by
  have ready := live.host.hostless_becomeReady (live.host.readBack stored).1
    (live.host.readBack stored).2
  have unheard : live.bare.hub = {} := rfl
  refine Prod.ext ?_ ?_
  · have kept := (becomeReady_hears quiet stored).host
    rw [becomeReady_unheard unheard, bare, bare, kept, ← ready]
    rfl
  · rw [becomeReady_answer, becomeReady_answer]
    rfl

/-- A store that shows the session of its host to listeners that commit nothing. -/
structure Discreet (host : Host) (live : LiveStore) : Prop where
  quiet : live.hub.commits = 0
  shown : live.host.session.IsOf host
  heard : ∀ listener name snapshot, .delivered listener name snapshot ∈ live.heard →
    snapshot.session.IsOf host

namespace Discreet

variable {host : Host} {after : LiveStore} {store : Store}

theorem withHost (discreet : live.Discreet host) (shown : store.session.IsOf host) :
    LiveStore.Discreet host { live with host := store } :=
  { discreet with shown }

theorem hears (discreet : live.Discreet host) {snapshot : Snapshot}
    (hears : Audience.Hears snapshot live after) (shown : snapshot.session.IsOf host) :
    after.Discreet host where
  quiet := hears.quiet
  shown := hears.host ▸ discreet.shown
  heard listener name other member := by
    rcases hears.heard _ member with older | ⟨_, _, same⟩
    · exact discreet.heard listener name other older
    · cases same
      exact shown

theorem update (discreet : live.Discreet host) (patch : Patch) :
    (live.update patch).1.Discreet host := by
  have kept : (live.host.update patch).1.session = live.host.session :=
    live.host.commit_session (.ok patch)
  exact (discreet.withHost (kept ▸ discreet.shown)).hears (update_hears discreet.quiet patch)
    discreet.shown

theorem becomeReady (discreet : live.Discreet host)
    (stored : Except StorageError (Option Bytes)) :
    (live.becomeReady stored).1.Discreet host := by
  have opened := live.host.becomeReady_session (live.host.readBack stored).1
    (live.host.readBack stored).2
  have shown : (live.host.becomeReady (live.host.readBack stored).1
      (live.host.readBack stored).2).session.IsOf host := opened ▸ discreet.shown.loaded
  exact (discreet.withHost shown).hears (becomeReady_hears discreet.quiet stored) shown

end Discreet

end LiveStore

namespace Tenant

variable {Place : Type} [Backend Place] {tenant : Tenant} {now delay : Nat} {place : Place}

def bare (tenant : Tenant) : Tenant := { tenant with live := tenant.live.bare }

theorem bare_stepLoad? (quiet : tenant.live.hub.commits = 0) :
    tenant.bare.stepLoad? now delay place = (tenant.stepLoad? now delay place).map bare := by
  have loads : tenant.bare.loads = tenant.loads := rfl
  have store : tenant.bare.store = tenant.store.hostless := rfl
  have live : tenant.bare.live = tenant.live.bare := rfl
  have phase : tenant.store.hostless.phase = tenant.store.phase := rfl
  rw [stepLoad?, stepLoad?, loads, store, live, phase]
  split
  · split
    · rw [LiveStore.bare_becomeReady quiet]
      rfl
    · rfl
  · split <;> rfl
  · rfl

end Tenant

namespace Timeline

variable {Place : Type} [Backend Place] {host other : Host} {time : Timeline Place}

def bare (time : Timeline Place) : Timeline Place := time.withTenant Tenant.bare

theorem bare_turn? (quiet : time.tenant.live.hub.commits = 0) (task : Task) :
    time.bare.turn? task = (time.turn? task).map bare := by
  cases task with
  | writer =>
    have same : time.bare.tenant.store.writer = time.tenant.store.writer := rfl
    rw [turn?, turn?, Tenant.stepWriter?, Tenant.stepWriter?, same]
    split
    · rfl
    · rw [Option.map_map, Option.map_map, Option.map_map]
      rfl
  | timer =>
    rw [turn?, turn?, Option.map_map]
    rfl
  | gate =>
    have same : time.bare.tenant = time.tenant.bare := rfl
    rw [turn?, turn?, same, Tenant.bare_stepLoad? quiet, Option.map_map, Option.map_map]
    rfl
  | closing =>
    rw [turn?, turn?, Option.map_map]
    rfl

omit [Backend Place] in
theorem bare_update (quiet : time.tenant.live.hub.commits = 0) (patch : Patch) :
    time.bare.update patch = ((time.update patch).1.bare, (time.update patch).2) := by
  have same : time.bare.tenant.live = time.tenant.live.bare := rfl
  rw [Timeline.update, same, LiveStore.bare_update quiet]
  rfl

theorem bare_listen {act : Act Place} (listens : act.listens = true) :
    (time.occur act).bare = time.bare := by
  cases act with
  | listen change => rfl
  | _ => cases listens

theorem bare_occur (quiet : time.tenant.live.hub.commits = 0) {act : Act Place}
    (operates : act.listens = false) : (time.occur act).bare = time.bare.occur act := by
  have called (called : Timeline Place) :
      (time.call called).bare = time.bare.call called.bare := by
    rw [call, call, apply_ite bare]
    rfl
  cases act with
  | update patch => rw [occur, occur, called, bare_update quiet]
  | load | flush => exact called _
  | turn task =>
    rw [occur, occur, bare_turn? quiet]
    cases time.turn? task <;> rfl
  | cancel | release | wait | pace | refuse | disturb => rfl
  | listen => cases operates

omit [Backend Place] in
theorem bare_answer? (quiet : time.tenant.live.hub.commits = 0) (act : Act Place) :
    time.bare.answer? act = time.answer? act := by
  cases act with
  | update patch =>
    rw [answer?, answer?, bare_update quiet]
    rfl
  | _ => rfl

theorem turn_discreet {after : Timeline Place} (discreet : time.tenant.live.Discreet host)
    (turn : Turn time after) : after.tenant.live.Discreet host := by
  cases turn with
  | writer | close => exact discreet.withHost discreet.shown
  | gate step =>
    cases Tenant.stepLoad?_gate step with
    | finish => exact discreet.becomeReady _
    | pass => exact discreet
    | begin => exact discreet.withHost discreet.shown

theorem occur_discreet (discreet : time.tenant.live.Discreet host) {act : Act Place}
    (harmless : act.Harmless) : (time.occur act).tenant.live.Discreet host := by
  have called {called : Timeline Place} (kept : called.tenant.live.Discreet host) :
      (time.call called).tenant.live.Discreet host := by
    rcases time.call_cases called with same | ⟨-, same⟩ <;> rw [same]
    · exact discreet
    · exact kept
  cases act with
  | update patch => exact called (discreet.update patch)
  | load => exact called discreet
  | listen change => exact { discreet with quiet := harmless _ discreet.quiet }
  | flush => exact called (discreet.withHost discreet.shown)
  | turn task =>
    rw [occur]
    cases taken : time.turn? task with
    | none => exact discreet
    | some after => exact turn_discreet discreet (turn?_turn taken)
  | refuse => exact discreet.withHost discreet.shown
  | cancel | release | wait | pace | disturb => exact discreet

/-- Whatever happens, the host and the listeners make no difference to the rest. -/
theorem perform_bare (discreet : time.tenant.live.Discreet host) {acts : List (Act Place)}
    (harmless : ∀ act ∈ acts, act.Harmless) :
    (time.perform acts).tenant.live.Discreet host ∧
      (time.perform acts).bare = time.bare.perform (acts.filter (!·.listens)) ∧
      time.answers acts = time.bare.answers (acts.filter (!·.listens)) := by
  induction acts generalizing time with
  | nil => exact ⟨discreet, rfl, rfl⟩
  | cons act acts ih =>
    rw [List.forall_mem_cons] at harmless
    obtain ⟨kept, rest, later⟩ := ih (occur_discreet discreet harmless.1) harmless.2
    rw [answers, later]
    cases listens : act.listens with
    | true =>
      have unanswered : time.answer? act = none := by
        cases act with
        | listen => rfl
        | _ => cases listens
      rw [List.filter_cons_of_neg (by simp [listens]), unanswered, Option.toList_none,
        List.nil_append]
      rw [bare_listen listens] at rest ⊢
      exact ⟨kept, rest, rfl⟩
    | false =>
      rw [List.filter_cons_of_pos (by simp [listens]), answers, bare_answer? discreet.quiet]
      rw [bare_occur discreet.quiet listens] at rest ⊢
      exact ⟨kept, rest, rfl⟩

/-- Two timelines that nobody can tell apart who does not look at the session. -/
structure Alike (one two : Timeline Place) : Prop where
  now : one.now = two.now
  place : one.place = two.place
  settings : one.store.settings = two.store.settings
  phase : one.store.phase = two.store.phase
  tally : one.store.tally = two.store.tally
  writer : one.store.writer = two.store.writer
  loads : one.tenant.loads = two.tenant.loads
  loaded : one.store.session.loaded = two.store.session.loaded

/-- Whatever happens next in a timeline, nothing is stored but a record of all fields of the settings
and the version; and the session that is shown is that of the host. -/
structure Confines (key : String) (codec : Codec) (host : Host) (time : Timeline Place) :
    Prop where
  stored : ∀ act : Act Place, (∀ change, act ≠ .disturb change) →
    (time.occur act).place = time.place ∨
      ∃ record bytes, record.keys.Perm (versionKey :: Field.all.map Field.key) ∧
        codec.encode record = some bytes ∧
        (time.occur act).place = (Backend.write time.place key bytes).1
  shown : time.store.snapshot.session.IsOf host
  heard : ∀ listener name snapshot, .delivered listener name snapshot ∈ time.tenant.live.heard →
    snapshot.session.IsOf host

omit [Backend Place] in
theorem alike_of_bare {one two : Timeline Place} (same : one.bare = two.bare) : one.Alike two where
  now := congrArg (·.now) same
  place := congrArg (·.place) same
  settings := congrArg (·.store.settings) same
  phase := congrArg (·.store.phase) same
  tally := congrArg (·.store.tally) same
  writer := congrArg (·.store.writer) same
  loads := congrArg (·.tenant.loads) same
  loaded := congrArg (·.store.session.loaded) same

omit [Backend Place] in
theorem start_discreet {config : Config} {chain : Chain} {host : Host} {made : Store}
    (new : Store.new config chain host = .ok made) (codec : Codec) (place : Place) :
    (start (made.withCodec codec) place).tenant.live.Discreet host := by
  rw [Store.new_eq new]
  exact ⟨rfl, rfl, fun _ _ _ member => (List.not_mem_nil member).elim⟩

theorem confines {config : Config} {chain : Chain} {host : Host} {made : Store}
    (new : Store.new config chain host = .ok made) (codec : Codec) (place : Place)
    {acts : List (Act Place)} (harmless : ∀ act ∈ acts, act.Harmless) :
    ((start (made.withCodec codec) place).perform acts).Confines config.key codec host := by
  obtain ⟨-, shown, heard⟩ := (perform_bare (start_discreet new codec place) harmless).1
  refine ⟨fun act undisturbed => ?_, shown, heard⟩
  rcases perform_writes new codec place acts undisturbed with
    kept | ⟨settings, bytes, encoded, written⟩
  · exact .inl kept
  · rw [Chain.stamp] at encoded
    exact .inr ⟨_, bytes, Settings.keys_toRecord, encoded, written⟩

/-- Two stores made for different hosts, but otherwise alike, stay alike and answer alike whatever
happens to both, as long as no listener commits; the listeners themselves may differ. Both store
nothing but records of settings, and both show the session of their own host throughout: what holds
after any acts holds at every moment. -/
theorem hosts_stay_in_sessions {config : Config} {chain : Chain} {host other : Host}
    {made second : Store} (new : Store.new config chain host = .ok made)
    (again : Store.new config chain other = .ok second) (codec : Codec) (place : Place)
    {mine theirs : List (Act Place)}
    (same : mine.filter (!·.listens) = theirs.filter (!·.listens))
    (harmless : ∀ act ∈ mine ++ theirs, act.Harmless) :
    let one := start (made.withCodec codec) place
    let two := start (second.withCodec codec) place
    (one.perform mine).Alike (two.perform theirs) ∧ one.answers mine = two.answers theirs ∧
      (one.perform mine).Confines config.key codec host ∧
      (two.perform theirs).Confines config.key codec other := by
  intro one two
  obtain ⟨first, rest⟩ := List.forall_mem_append.mp harmless
  have begun : one.bare = two.bare := by
    simp only [one, two, Store.new_eq new, Store.new_eq again]
    rfl
  obtain ⟨-, left, answered⟩ := perform_bare (start_discreet new codec place) first
  obtain ⟨-, right, replied⟩ := perform_bare (start_discreet again codec place) rest
  refine ⟨alike_of_bare (left.trans ?_), answered.trans ?_, confines new codec place first,
    confines again codec place rest⟩
  · exact (congrArg₂ _ begun same).trans right.symm
  · exact (congrArg₂ _ begun same).trans replied.symm

def torWindow : Host := { incognito := true, tor := true }

def busy : List (Act Memory) :=
  [.load, .turn .gate, .turn .gate, .update { clockFormat := some .twelveHour }, .turn .writer,
    .wait 50, .turn .timer, .turn .writer]

def watched (name : String) (script : Script (Except Error Patch)) : Act Memory :=
  .listen fun hub => hub.subscribe name script

theorem tor_window_stores_alike :
    ∃ made second, Store.new {} (.empty 0) {} = .ok made ∧
      Store.new {} (.empty 0) torWindow = .ok second ∧
      let one := (start (made.withCodec Format.json.codec) ({} : Memory)).perform busy
      let two := (start (second.withCodec Format.json.codec) ({} : Memory)).perform
        (watched "page" [[.cancel "page"]] :: busy)
      one.Alike two ∧ one.place.writes = 1 ∧ two.store.session.tor = true := by
  have calm : ∀ act ∈ busy, act.Harmless := by simp [busy, Act.Harmless]
  have quiet : (watched "page" [[.cancel "page"]]).Harmless := by
    intro hub quiet
    rw [Hub.commits_subscribe, quiet]
    rfl
  have harmless : ∀ act ∈ busy ++ watched "page" [[.cancel "page"]] :: busy, act.Harmless :=
    List.forall_mem_append.mpr ⟨calm, List.forall_mem_cons.mpr ⟨quiet, calm⟩⟩
  obtain ⟨made, new⟩ : ∃ made, Store.new {} (.empty 0) {} = .ok made := ⟨_, rfl⟩
  obtain ⟨second, again⟩ : ∃ second, Store.new {} (.empty 0) torWindow = .ok second :=
    ⟨_, rfl⟩
  have same : busy.filter (!·.listens) =
      (watched "page" [[.cancel "page"]] :: busy).filter (!·.listens) := rfl
  have kept := hosts_stay_in_sessions new again Format.json.codec ({} : Memory) same harmless
  refine ⟨made, second, new, again, kept.1, ?_⟩
  cases new
  cases again
  decide +kernel

end Timeline
end StartPage
