import StartPage.Proofs.Listeners.Newest
import StartPage.Proofs.Store.Acts
import StartPage.Proofs.Store.Life

/-!
What the listeners of a store have heard when a call returns that changes it. An update from inside
a listener is announced to all before the announcement under way goes on, which then brings the
listeners behind it a state that is past. A listener with nobody in front of it who updates is not
overtaken in this way.
-/
namespace StartPage

open Audience (delivered)

theorem Store.announces :
    Audience.Announces Store.commit Store.snapshot fun answer => ∃ fault, answer = .error fault where
  announced := by
    intro store request snapshot member
    cases request with
    | error => cases member
    | ok patch =>
      rw [commit_ok] at member ⊢
      cases empty : patch.isEmpty with
      | true =>
        rw [update_of_empty store empty] at member
        cases member
      | false =>
        by_cases ready : store.phase = .ready
        · rw [update_of_ready empty ready] at member ⊢
          cases member
          rfl
        · rw [update_of_unready empty ready] at member
          cases member
  silent := by
    intro store request unannounced
    cases request with
    | error => rfl
    | ok patch =>
      rw [commit_ok] at unannounced ⊢
      cases empty : patch.isEmpty with
      | true => rw [update_of_empty store empty]
      | false =>
        by_cases ready : store.phase = .ready
        · rw [update_of_ready empty ready] at unannounced
          cases unannounced
        · rw [update_of_unready empty ready]
          rfl
  refused := by
    intro store request
    cases request with
    | error => exact fun _ => rfl
    | ok patch =>
      rintro ⟨fault, refused⟩
      cases refused

namespace LiveStore

/-- After a call, whoever was registered before it and is still active has heard the state as it is
now, and heard it last if nobody registered earlier updated the store meanwhile. -/
def Informed (before after : LiveStore) : Prop :=
  ∀ (front back : List Nat) (serial : Nat), before.hub.registered = front ++ serial :: back →
    after.hub.isActive ⟨before.hub.number, serial⟩ = true →
      ∃ new, after.heard = before.heard ++ new ∧
        after.host.snapshot ∈ delivered ⟨before.hub.number, serial⟩ new ∧
        ((∀ earlier ∈ front, ∀ name settings,
            .answered ⟨before.hub.number, earlier⟩ name (.ok settings) ∉ new) →
          (delivered ⟨before.hub.number, serial⟩ new).getLast? = some after.host.snapshot)

theorem announce_informed (live : LiveStore) (formed : live.hub.WellFormed) (store : Store) :
    live.Informed (LiveStore.announce { live with host := store } store.snapshot) := by
  intro front back serial registered active
  have seated : ({ live with host := store } : LiveStore).hub.Seated front _ :=
    formed.seated registered
  obtain ⟨new, grown, abreast⟩ := Audience.announce_abreast Store.announces seated
  obtain ⟨reached, last⟩ := abreast active
  rw [List.append_nil] at reached last
  refine ⟨new, grown, reached, fun silent => last ?_⟩
  intro earlier ahead name answer asked
  cases answer with
  | error fault => exact ⟨fault, rfl⟩
  | ok settings => exact absurd asked (silent earlier ahead name settings)

theorem update_informed (live : LiveStore) (formed : live.hub.WellFormed) {patch : Patch}
    (ready : live.host.phase = .ready) (changing : patch.isEmpty = false) :
    live.Informed (live.update patch).1 := by
  rw [LiveStore.update, Store.update_of_ready changing ready]
  exact live.announce_informed formed _

/-- When an update or a load returns, every listener that was registered before and is still active
has heard the state of the store as it is then; and it was the last that the listener heard, if no
listener registered before it updated the store meanwhile. An empty update changes nothing. -/
theorem newest_state_is_heard (live : LiveStore) (formed : live.hub.WellFormed) :
    (∀ patch, live.host.phase = .ready → patch.isEmpty = false →
      live.Informed (live.update patch).1) ∧
    (∀ patch, patch.isEmpty = true → (live.update patch).1 = live) ∧
    ∀ stored, live.Informed (live.becomeReady stored).1 := by
  refine ⟨fun patch ready changing => live.update_informed formed ready changing,
    fun patch empty => ?_, fun stored => live.announce_informed formed _⟩
  rw [LiveStore.update, Store.update_of_empty live.host empty]

/-- A ready store with two listeners; the first, when it is first told, asks for the other clock. -/
def duet : LiveStore where
  host := Store.plain.becomeReady .default false
  hub :=
    (Hub.empty.subscribe "leading"
      [[.commit (.ok { clockFormat := some .twentyFourHour })]]).subscribe "following" []

theorem duet_formed : duet.hub.WellFormed :=
  (Hub.wellFormed_empty.subscribe _ _).subscribe _ _

theorem leading_listener_current :
    (delivered ⟨0, 0⟩ (duet.update { clockFormat := some .twelveHour }).1.heard).length = 2 ∧
      (delivered ⟨0, 0⟩ (duet.update { clockFormat := some .twelveHour }).1.heard).getLast? =
        some (duet.update { clockFormat := some .twelveHour }).1.host.snapshot := by
  obtain ⟨new, heard, -, last⟩ := (newest_state_is_heard duet duet_formed).1
    { clockFormat := some .twelveHour } rfl rfl [] [1] 0 rfl rfl
  have whole : (duet.update { clockFormat := some .twelveHour }).1.heard = new := heard
  rw [whole]
  exact ⟨whole ▸ rfl, last nofun⟩

/-- The listener behind the one that updates is left with the state before that update. -/
theorem following_listener_overtaken :
    ∃ state, duet.host.phase = .ready ∧ 1 ∈ duet.hub.registered ∧
      (duet.update { clockFormat := some .twelveHour }).1.hub.isActive ⟨duet.hub.number, 1⟩ = true ∧
      (delivered ⟨duet.hub.number, 1⟩
        (duet.update { clockFormat := some .twelveHour }).1.heard).getLast? = some state ∧
      state ≠ (duet.update { clockFormat := some .twelveHour }).1.host.snapshot := by
  refine ⟨_, rfl, by decide, rfl, rfl, ?_⟩
  intro same
  have clock := congrArg (fun snapshot => snapshot.settings.clockFormat) same
  exact absurd clock (by decide)

section Hubs

variable {live : LiveStore} {Kept : Hub (Except Error Patch) → Prop}
variable (kept : ∀ {hub after : Hub (Except Error Patch)}, hub.Change after → Kept hub → Kept after)
include kept

theorem update_hub (start : Kept live.hub) (patch : Patch) : Kept (live.update patch).1.hub := by
  unfold LiveStore.update
  dsimp only
  split
  · exact Audience.announce_hub Store.commit kept _ _ start
  · exact start

theorem becomeReady_hub (start : Kept live.hub) (stored : Except StorageError (Option Bytes)) :
    Kept (live.becomeReady stored).1.hub :=
  Audience.announce_hub Store.commit kept _ _ start

end Hubs

end LiveStore

namespace Timeline

variable {Place : Type} {Kept : Hub (Except Error Patch) → Prop}

def Act.Keeps (Kept : Hub (Except Error Patch) → Prop) : Act Place → Prop
  | .listen change => ∀ hub, Kept hub → Kept (change hub)
  | _ => True

variable [Backend Place] {time after : Timeline Place}

section Hubs

variable (kept : ∀ {hub after : Hub (Except Error Patch)}, hub.Change after → Kept hub → Kept after)
include kept

theorem turn_hub (start : Kept time.tenant.live.hub) (turn : Turn time after) :
    Kept after.tenant.live.hub := by
  cases turn with
  | writer | close => exact start
  | gate step =>
    cases Tenant.stepLoad?_gate step with
    | finish => exact LiveStore.becomeReady_hub kept start _
    | pass | begin => exact start

theorem occur_hub (start : Kept time.tenant.live.hub) {act : Act Place} (keeps : act.Keeps Kept) :
    Kept (time.occur act).tenant.live.hub := by
  have called {called : Timeline Place} (later : Kept called.tenant.live.hub) :
      Kept (time.call called).tenant.live.hub := by
    rcases time.call_cases called with same | ⟨-, same⟩ <;> rw [same]
    · exact start
    · exact later
  cases act with
  | update patch => exact called (LiveStore.update_hub kept start patch)
  | load | flush => exact called start
  | listen change => exact keeps _ start
  | turn task =>
    rw [occur]
    cases taken : time.turn? task with
    | none => exact start
    | some after => exact turn_hub kept start (turn?_turn taken)
  | cancel | release | wait | pace | refuse | disturb => exact start

theorem perform_hub (start : Kept time.tenant.live.hub) {acts : List (Act Place)}
    (keeps : ∀ act ∈ acts, act.Keeps Kept) : Kept (time.perform acts).tenant.live.hub := by
  induction acts generalizing time with
  | nil => exact start
  | cons act acts ih =>
    obtain ⟨first, rest⟩ := List.forall_mem_cons.mp keeps
    exact ih (occur_hub kept start first) rest

end Hubs

/-- The hub of a store is well formed whatever happens, so an update always leaves its listeners
informed. -/
theorem reached_informed (store : Store) (place : Place) {acts : List (Act Place)}
    (keeps : ∀ act ∈ acts, act.Keeps Hub.WellFormed) :
    let live := ((start store place).perform acts).tenant.live
    live.hub.WellFormed ∧
      ∀ patch : Patch, live.host.phase = .ready → patch.isEmpty = false →
        live.Informed (live.update patch).1 := by
  intro live
  have formed : live.hub.WellFormed :=
    perform_hub Hub.Change.wellFormed Hub.wellFormed_empty keeps
  exact ⟨formed, fun patch ready changing => live.update_informed formed ready changing⟩

end Timeline
end StartPage
