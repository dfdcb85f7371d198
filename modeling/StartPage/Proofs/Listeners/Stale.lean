import StartPage.Proofs.Listeners.Newest
import StartPage.Proofs.Listeners.Registered

/-!
Handles of a hub that was replaced. Cancelling one can be put off until after anything that the
listeners of the present hub do or are told, so none of them notices, not even the listener that
happens to have the same serial number.
-/
namespace StartPage

namespace Hub

variable {Request : Type} {hub : Hub Request} {handle other : Handle}

theorem registered_cancel_stale (stale : handle.hub ≠ hub.number) :
    (hub.cancel handle).registered = hub.registered := by
  rw [cancel_eq]
  exact if_neg stale

theorem number_cancel : (hub.cancel handle).number = hub.number := by
  rw [cancel_eq]
  rfl

theorem handles_cancel_stale (stale : handle.hub ≠ hub.number) :
    (hub.cancel handle).handles = hub.handles := by
  rw [handles, handles, registered_cancel_stale stale, number_cancel]

theorem handleOf?_cancel (name : String) :
    (hub.cancel handle).handleOf? name = hub.handleOf? name := by
  rw [cancel_eq]
  rfl

theorem find?_cancel_other (different : other ≠ handle) :
    (hub.cancel handle).find? other = hub.find? other := by
  rw [find?_cancel]
  cases found : hub.find? other with
  | none => rfl
  | some listener => rw [Option.map_some, if_neg (find?_handle found ▸ different)]

theorem map_change_comm (listeners : List (Listener Request)) (handle other : Handle)
    (first second : Listener Request → Listener Request)
    (kept : ∀ listener, (first listener).handle = listener.handle)
    (keeps : ∀ listener, (second listener).handle = listener.handle)
    (commutes : ∀ listener, second (first listener) = first (second listener)) :
    (listeners.map fun listener =>
        if listener.handle = handle then first listener else listener).map
      (fun listener => if listener.handle = other then second listener else listener) =
    (listeners.map fun listener =>
        if listener.handle = other then second listener else listener).map
      fun listener => if listener.handle = handle then first listener else listener := by
  rw [List.map_map, List.map_map]
  refine List.map_congr_left fun listener _ => ?_
  rw [Function.comp_apply, Function.comp_apply]
  split
  case isTrue one =>
    rw [kept]
    split
    case isTrue two => rw [if_pos ((keeps listener).trans one), commutes]
    case isFalse two => rfl
  case isFalse one =>
    split
    case isTrue two => rw [if_neg fun same => one ((keeps listener).symm.trans same)]
    case isFalse two => rfl

theorem cancel_comm (hub : Hub Request) (handle other : Handle) :
    (hub.cancel handle).cancel other = (hub.cancel other).cancel handle := by
  have listeners := map_change_comm hub.listeners handle other
    (fun listener => { listener with active := false })
    (fun listener => { listener with active := false })
    (fun _ => rfl) (fun _ => rfl) fun _ => rfl
  have registered : ∀ serials : List Nat,
      (serials.filter fun serial => serial != handle.serial).filter
          (fun serial => serial != other.serial) =
        (serials.filter fun serial => serial != other.serial).filter
          fun serial => serial != handle.serial := fun serials => by
    rw [List.filter_filter, List.filter_filter]
    simp only [Bool.and_comm]
  rw [cancel_eq, cancel_eq, cancel_eq hub other, cancel_eq]
  simp only [update, listeners]
  by_cases here : handle.hub = hub.number <;> by_cases there : other.hub = hub.number <;>
    simp [here, there, registered]

theorem cancel_script (hub : Hub Request) (handle other : Handle) :
    (hub.cancel handle).update other (fun listener => { listener with script := listener.script.tail }) =
      (hub.update other fun listener => { listener with script := listener.script.tail }).cancel
        handle := by
  have listeners := map_change_comm hub.listeners handle other
    (fun listener => { listener with active := false })
    (fun listener => { listener with script := listener.script.tail })
    (fun _ => rfl) (fun _ => rfl) fun _ => rfl
  rw [cancel_eq, cancel_eq]
  simp only [update, listeners]

theorem subscribe_cancel_stale (stale : handle.hub ≠ hub.number) (name : String)
    (script : Script Request) :
    (hub.cancel handle).subscribe name script = (hub.subscribe name script).cancel handle := by
  have fresh : (⟨hub.number, hub.nextSerial⟩ : Handle) ≠ handle := fun same =>
    stale (congrArg Handle.hub same).symm
  simp [cancel_eq, Hub.subscribe, update, stale, fresh]

end Hub

namespace Audience

variable {Host Request State Answer : Type}
variable {stale : Handle}

def cancel (audience : Audience Host Request State Answer) (handle : Handle) :
    Audience Host Request State Answer :=
  { audience with hub := audience.hub.cancel handle }

/-- A step by listeners of another hub than that of the handle: it goes on as if the handle had not
been cancelled, and leaves the number of the hub alone. -/
def Indifferent (stale : Handle)
    (step : Audience Host Request State Answer → Audience Host Request State Answer) : Prop :=
  ∀ audience : Audience Host Request State Answer, stale.hub ≠ audience.hub.number →
    step (audience.cancel stale) = (step audience).cancel stale ∧
      (step audience).hub.number = audience.hub.number

theorem indifferent_foldl {Item : Type}
    {step : Audience Host Request State Answer → Item → Audience Host Request State Answer}
    {items : List Item} (each : ∀ item ∈ items, Indifferent stale fun audience => step audience item) :
    Indifferent stale fun audience => items.foldl step audience := by
  induction items with
  | nil => exact fun audience _ => ⟨rfl, rfl⟩
  | cons item rest ih =>
    intro audience elsewhere
    obtain ⟨first, later⟩ := List.forall_mem_cons.mp each
    obtain ⟨stepped, number⟩ := first audience elsewhere
    obtain ⟨rested, numbers⟩ := ih later (step audience item) (number ▸ elsewhere)
    refine ⟨?_, numbers.trans number⟩
    dsimp only [List.foldl_cons] at stepped ⊢
    rw [stepped]
    exact rested

section Step

variable (commit : Commit Host Request State Answer) {tell : Tell Host Request State Answer}

theorem react_indifferent (told : ∀ state, Indifferent stale fun audience => tell audience state)
    (listener : Handle) (name : String) (reaction : Reaction Request) :
    Indifferent stale fun audience => react commit tell listener name audience reaction := by
  intro audience elsewhere
  cases reaction with
  | cancel other =>
    simp only [react, cancel, Hub.cancelNamed, Hub.handleOf?_cancel]
    cases audience.hub.handleOf? other with
    | none => exact ⟨rfl, rfl⟩
    | some handle =>
      dsimp only
      rw [Hub.cancel_comm]
      exact ⟨rfl, Hub.number_cancel⟩
  | subscribe other script =>
    simp only [react, cancel]
    rw [Hub.subscribe_cancel_stale elsewhere]
    exact ⟨rfl, rfl⟩
  | commit request =>
    simp only [react, cancel]
    cases (commit audience.host request).2.1 with
    | none => exact ⟨rfl, rfl⟩
    | some state =>
      obtain ⟨same, number⟩ :=
        told state { audience with host := (commit audience.host request).1 } elsewhere
      exact ⟨congrArg (note · _) same, number⟩

theorem deliver_indifferent (told : ∀ state, Indifferent stale fun audience => tell audience state)
    (state : State) {handle : Handle} (other : handle ≠ stale) :
    Indifferent stale fun audience => deliver commit tell state audience handle := by
  intro audience elsewhere
  have found : (audience.cancel stale).hub.find? handle = audience.hub.find? handle :=
    Hub.find?_cancel_other other
  dsimp only
  cases known : audience.hub.find? handle with
  | none =>
    rw [deliver, deliver, found, known]
    exact ⟨rfl, rfl⟩
  | some listener =>
    cases active : listener.active with
    | false =>
      simp [deliver, found, known, active]
    | true =>
      -- The script moves on in the same way, and then the reactions follow.
      have called : (audience.cancel stale).called handle listener.name state =
          (audience.called handle listener.name state).cancel stale := by
        simp only [Audience.called, cancel, Hub.cancel_script]
      rw [deliver_called state known active, deliver_called state (found.trans known) active, called]
      exact indifferent_foldl
        (fun reaction _ => react_indifferent commit told handle listener.name reaction)
        (audience.called handle listener.name state) elsewhere

theorem announceWithin_indifferent (depth : Nat) (state : State) :
    Indifferent stale fun audience => announceWithin commit depth audience state := by
  induction depth generalizing state with
  | zero => exact fun audience _ => ⟨rfl, rfl⟩
  | succ depth ih =>
    intro audience elsewhere
    have visited : (audience.cancel stale).hub.handles = audience.hub.handles :=
      Hub.handles_cancel_stale elsewhere
    have each : ∀ handle ∈ audience.hub.handles,
        Indifferent stale fun audience =>
          deliver commit (announceWithin commit depth) state audience handle := by
      intro handle member
      refine deliver_indifferent commit ih state ?_
      rintro rfl
      exact elsewhere (Hub.mem_handles.mp member).1
    have told := indifferent_foldl each audience elsewhere
    have begins (audience : Audience Host Request State Answer) :
        announceWithin commit (depth + 1) audience state =
          audience.hub.handles.foldl (deliver commit (announceWithin commit depth) state) audience :=
      rfl
    dsimp only at told ⊢
    rw [begins, begins, visited]
    exact told

/-- What the listeners are told, and what they do, is as if the handle had not been cancelled. -/
theorem announce_cancel_stale (audience : Audience Host Request State Answer)
    (elsewhere : stale.hub ≠ audience.hub.number) (state : State) :
    announce commit (audience.cancel stale) state = (announce commit audience state).cancel stale := by
  rw [announce]
  have depth : (audience.cancel stale).hub.commits = audience.hub.commits := Hub.commits_cancel stale
  rw [depth]
  exact (announceWithin_indifferent commit _ state audience elsewhere).1

end Step

end Audience
end StartPage
