import Mathlib.Data.List.Induction
import StartPage.Proofs.Listeners.Stale
import StartPage.Proofs.Listeners.Telling

/-!
Who is subscribed, told from what was done. Everything that is ever done to a hub, from outside or
by a listener in the middle of its call, is one of five deeds. A subscription stands until its
handle is cancelled, also when its hub is replaced meanwhile; the hub's own books, its registrations
on one side and the activity of its listeners on the other, agree with what stands after any deeds.
-/
namespace StartPage

namespace Hub

variable {Request : Type} {hub : Hub Request} {handle : Handle} {stands : List Handle}

inductive Deed (Request : Type) where
  | subscribe (name : String) (script : Script Request)
  | cancel (handle : Handle)
  | forget (name : String)
  /-- The listener of the handle is called, which uses up an entry of its script. -/
  | call (handle : Handle)
  | replace

def perform (hub : Hub Request) : Deed Request → Hub Request
  | .subscribe name script => hub.subscribe name script
  | .cancel handle => hub.cancel handle
  | .forget name => hub.forget name
  | .call handle => hub.update handle fun listener => { listener with script := listener.script.tail }
  | .replace => hub.replace

def performAll (hub : Hub Request) (deeds : List (Deed Request)) : Hub Request :=
  deeds.foldl perform hub

def Deed.gives? (hub : Hub Request) : Deed Request → Option Handle
  | .subscribe _ _ => some hub.nextHandle
  | _ => none

def Deed.cancels (handle : Handle) : Deed Request → Bool
  | .cancel other => handle = other
  | _ => false

/-- Handles that are handed out and not cancelled afterwards, in the order of subscription. -/
def standing (hub : Hub Request) : List (Deed Request) → List Handle
  | [] => []
  | deed :: rest =>
    (deed.gives? hub).toList.filter (fun handle => !rest.any (·.cancels handle)) ++
      standing (hub.perform deed) rest

theorem performAll_append (hub : Hub Request) (before after : List (Deed Request)) :
    hub.performAll (before ++ after) = (hub.performAll before).performAll after :=
  List.foldl_append

theorem standing_concat (hub : Hub Request) (deeds : List (Deed Request)) (last : Deed Request) :
    hub.standing (deeds ++ [last]) =
      (hub.standing deeds).filter (fun handle => !last.cancels handle) ++
        (last.gives? (hub.performAll deeds)).toList := by
  induction deeds generalizing hub with
  | nil => simp [standing, performAll]
  | cons deed rest ih =>
    rw [List.cons_append, standing, standing, ih, List.filter_append, List.filter_filter,
      List.append_assoc]
    simp [List.any_append, Bool.and_comm, performAll]

def Known (hub : Hub Request) (handle : Handle) : Prop :=
  handle.hub < hub.number ∨ hub.Issued handle

theorem Known.hub_le (known : hub.Known handle) : handle.hub ≤ hub.number :=
  known.elim Nat.le_of_lt fun issued => Nat.le_of_eq issued.1

/-- The books of a hub agree with the subscriptions that stand. -/
structure Books (hub : Hub Request) (stands : List Handle) : Prop where
  formed : hub.WellFormed
  known : ∀ listener ∈ hub.listeners, hub.Known listener.handle
  handles : hub.handles = stands.filter fun handle => handle.hub = hub.number
  active : ∀ handle, hub.isActive handle = true ↔ handle ∈ stands

theorem books_empty : (empty : Hub Request).Books [] :=
  ⟨wellFormed_empty, nofun, rfl, fun _ => ⟨nofun, nofun⟩⟩

theorem Books.find?_nextHandle (books : hub.Books stands) : hub.find? hub.nextHandle = none := by
  rw [Hub.find?, List.find?_eq_none]
  intro listener member same
  have next : listener.handle = hub.nextHandle := eq_of_beq same
  rcases books.known listener member with earlier | issued
  · rw [next] at earlier
    exact Nat.lt_irrefl _ earlier
  · exact not_issued_nextHandle (next ▸ issued)

theorem Books.hub_le (books : hub.Books stands) (member : handle ∈ stands) :
    handle.hub ≤ hub.number := by
  have active := (books.active handle).mpr member
  rw [isActive, Option.any_eq_true] at active
  obtain ⟨listener, found, -⟩ := active
  have known := books.known listener (List.mem_of_find?_eq_some found)
  rw [find?_handle found] at known
  exact known.hub_le

theorem Books.mem_handles_iff (books : hub.Books stands) {serial : Nat} :
    (⟨hub.number, serial⟩ : Handle) ∈ hub.handles ↔ ⟨hub.number, serial⟩ ∈ stands := by
  rw [books.handles, List.mem_filter]
  exact and_iff_left (decide_eq_true rfl)

theorem Books.subscribe (books : hub.Books stands) (name : String) (script : Script Request) :
    (hub.subscribe name script).Books (stands ++ [hub.nextHandle]) where
  formed := books.formed.subscribe name script
  known := by
    intro listener member
    rcases List.mem_append.mp member with older | last
    · exact (books.known listener older).imp id fun issued => ⟨issued.1, Nat.lt_succ_of_lt issued.2⟩
    · rw [List.mem_singleton.mp last]
      exact .inr ⟨rfl, Nat.lt_succ_self _⟩
  handles := by
    have number : (hub.subscribe name script).number = hub.number := rfl
    have here : hub.nextHandle.hub = hub.number := rfl
    simp [handles_subscribe, books.handles, number, here]
  active other := by
    rw [List.mem_append, List.mem_singleton]
    by_cases fresh : other = hub.nextHandle
    · subst fresh
      simp [isActive_subscribe_new name script books.find?_nextHandle]
    · rw [isActive_subscribe_other name script fresh, books.active]
      exact ⟨.inl, fun stands => stands.resolve_right fresh⟩

theorem Books.cancel (books : hub.Books stands) (handle : Handle) :
    (hub.cancel handle).Books (stands.filter (· ≠ handle)) where
  formed := books.formed.cancel handle
  known := by
    rw [cancel_eq]
    exact forall_handle_update books.known handle fun _ => rfl
  handles := by
    rw [handles_cancel, books.handles, number_cancel, List.filter_filter, List.filter_filter]
    simp only [Bool.and_comm]
  active other := by
    rw [isActive_cancel, List.mem_filter, Bool.and_eq_true, books.active]

theorem Books.call (books : hub.Books stands) (handle : Handle) :
    (hub.update handle fun listener =>
      { listener with script := listener.script.tail }).Books stands where
  formed := books.formed.update handle _
  known := forall_handle_update books.known handle fun _ => rfl
  handles := books.handles
  active other := by
    rw [isActive_script]
    exact books.active other

theorem Books.replace (books : hub.Books stands) : hub.replace.Books stands where
  formed := ⟨.nil, nofun⟩
  known := by
    intro listener member
    exact .inl (Nat.lt_succ_of_le (books.known listener member).hub_le)
  handles := by
    refine (List.filter_eq_nil_iff.mpr fun handle member => ?_).symm
    have earlier : handle.hub < hub.replace.number := Nat.lt_succ_of_le (books.hub_le member)
    simpa using Nat.ne_of_lt earlier
  active := books.active

theorem Books.perform (books : hub.Books stands) (deed : Deed Request) :
    (hub.perform deed).Books
      (stands.filter (fun handle => !deed.cancels handle) ++ (deed.gives? hub).toList) := by
  cases deed with
  | subscribe name script =>
    simpa [Deed.cancels, Deed.gives?, Hub.perform] using books.subscribe name script
  | cancel handle =>
    simpa [Deed.cancels, Deed.gives?, Hub.perform] using books.cancel handle
  | forget name =>
    simpa [Deed.cancels, Deed.gives?, Hub.perform] using
      (⟨books.formed.forget name, books.known, books.handles, books.active⟩ :
        (hub.forget name).Books stands)
  | call handle =>
    simpa [Deed.cancels, Deed.gives?, Hub.perform] using books.call handle
  | replace =>
    simpa [Deed.cancels, Deed.gives?, Hub.perform] using books.replace

theorem books_performAll (deeds : List (Deed Request)) :
    (empty.performAll deeds).Books (empty.standing deeds) := by
  induction deeds using List.reverseRecOn with
  | nil => exact books_empty
  | append_singleton deeds last ih =>
    rw [standing_concat, performAll_append]
    exact ih.perform last

end Hub

open Hub (Deed)

namespace Audience

variable {Host Request State Answer : Type}

/-- What is done to the hub of an audience by telling it a state. -/
abbrev Unrolled (Host Request State Answer : Type) :=
  Audience Host Request State Answer → State → List (Deed Request)

def unroll {Item : Type}
    (step : Audience Host Request State Answer → Item → Audience Host Request State Answer)
    (deeds : Audience Host Request State Answer → Item → List (Deed Request)) :
    Audience Host Request State Answer → List Item → List (Deed Request)
  | _, [] => []
  | audience, item :: rest => deeds audience item ++ unroll step deeds (step audience item) rest

def reactDeeds (commit : Commit Host Request State Answer)
    (told : Unrolled Host Request State Answer) (audience : Audience Host Request State Answer) :
    Reaction Request → List (Deed Request)
  | .cancel other =>
    match audience.hub.handleOf? other with
    | some handle => [.cancel handle]
    | none => []
  | .subscribe other script => [.subscribe other script]
  | .commit request =>
    match commit audience.host request with
    | (host, some state, _) => told { audience with host } state
    | (_, none, _) => []

def deliverDeeds (commit : Commit Host Request State Answer) (tell : Tell Host Request State Answer)
    (told : Unrolled Host Request State Answer) (state : State)
    (audience : Audience Host Request State Answer) (handle : Handle) : List (Deed Request) :=
  match audience.hub.find? handle with
  | none => []
  | some listener =>
    if listener.active then
      .call handle :: unroll (react commit tell handle listener.name) (reactDeeds commit told)
        (audience.called handle listener.name state) (listener.script.headD [])
    else []

def announceDeeds (commit : Commit Host Request State Answer) :
    Nat → Unrolled Host Request State Answer
  | 0, _, _ => []
  | depth + 1, audience, state =>
    unroll (deliver commit (announceWithin commit depth) state)
      (deliverDeeds commit (announceWithin commit depth) (announceDeeds commit depth) state)
      audience audience.hub.handles

/-- What is asked from outside: a call, or a new hub in the place of this one. -/
inductive Event (Request State : Type) where
  | act (act : Act Request State)
  | replace

def happen (commit : Commit Host Request State Answer)
    (audience : Audience Host Request State Answer) :
    Event Request State → Audience Host Request State Answer
  | .act act => audience.act commit act
  | .replace => { audience with hub := audience.hub.replace }

def eventDeeds (commit : Commit Host Request State Answer)
    (audience : Audience Host Request State Answer) : Event Request State → List (Deed Request)
  | .act (.subscribe name script) => [.subscribe name script]
  | .act (.cancel handle) => [.cancel handle]
  | .act (.forget name) => [.forget name]
  | .act (.announce state) => announceDeeds commit (audience.hub.commits + 1) audience state
  | .replace => [.replace]

section Unrolling

variable (commit : Commit Host Request State Answer) {tell : Tell Host Request State Answer}
  {told : Unrolled Host Request State Answer}

theorem hub_unroll {Item : Type}
    {step : Audience Host Request State Answer → Item → Audience Host Request State Answer}
    {deeds : Audience Host Request State Answer → Item → List (Deed Request)}
    (each : ∀ audience item,
      (step audience item).hub = audience.hub.performAll (deeds audience item))
    (items : List Item) (audience : Audience Host Request State Answer) :
    (items.foldl step audience).hub = audience.hub.performAll (unroll step deeds audience items) := by
  induction items generalizing audience with
  | nil => rfl
  | cons item rest ih =>
    rw [List.foldl_cons, ih, each, unroll, Hub.performAll_append]

theorem hub_react
    (tells : ∀ audience state, (tell audience state).hub = audience.hub.performAll (told audience state))
    (listener : Handle) (name : String) (audience : Audience Host Request State Answer)
    (reaction : Reaction Request) :
    (react commit tell listener name audience reaction).hub =
      audience.hub.performAll (reactDeeds commit told audience reaction) := by
  cases reaction with
  | cancel other =>
    simp only [react, reactDeeds, Hub.cancelNamed]
    cases audience.hub.handleOf? other <;> rfl
  | subscribe other script => rfl
  | commit request =>
    simp only [react, reactDeeds]
    obtain ⟨host, state?, answer⟩ := commit audience.host request
    cases state? with
    | none => rfl
    | some state => exact tells { audience with host } state

theorem hub_deliver
    (tells : ∀ audience state, (tell audience state).hub = audience.hub.performAll (told audience state))
    (state : State) (audience : Audience Host Request State Answer) (handle : Handle) :
    (deliver commit tell state audience handle).hub =
      audience.hub.performAll (deliverDeeds commit tell told state audience handle) := by
  rw [deliverDeeds]
  cases known : audience.hub.find? handle with
  | none => simp [deliver, known, Hub.performAll]
  | some listener =>
    cases active : listener.active with
    | false => simp [deliver, known, active, Hub.performAll]
    | true =>
      rw [deliver_called state known active]
      dsimp only
      rw [if_pos active]
      exact hub_unroll (hub_react commit tells handle listener.name) _ _

theorem hub_announceWithin (depth : Nat) (audience : Audience Host Request State Answer)
    (state : State) :
    (announceWithin commit depth audience state).hub =
      audience.hub.performAll (announceDeeds commit depth audience state) := by
  induction depth generalizing audience state with
  | zero => rfl
  | succ depth ih => exact hub_unroll (hub_deliver commit ih state) audience.hub.handles audience

theorem hub_happen (audience : Audience Host Request State Answer) (event : Event Request State) :
    (audience.happen commit event).hub = audience.hub.performAll (eventDeeds commit audience event) := by
  cases event with
  | act act =>
    cases act with
    | announce state => exact hub_announceWithin commit _ audience state
    | subscribe | cancel | forget => rfl
  | replace => rfl

end Unrolling

/-- After any deeds, and so at every moment of what listeners do and are told from the beginning on,
the hub calls just those whose subscription to it stands, in the order of subscription; a handle is
active as long as its subscription stands, which for one of this hub means that its listener is
registered. Cancelling a handle of a hub before this one ends that subscription and nothing else:
whatever is announced afterwards goes on as if it had not been cancelled. -/
theorem registrations_agree_with_activity :
    (∀ deeds : List (Deed Request),
      let hub := Hub.empty.performAll deeds
      let here := (Hub.empty.standing deeds).filter fun handle => handle.hub = hub.number
      hub.registered = here.map Handle.serial ∧ hub.count = here.length ∧
      (∀ handle, hub.isActive handle = true ↔ handle ∈ Hub.empty.standing deeds) ∧
      (∀ serial, hub.isActive ⟨hub.number, serial⟩ = true ↔ serial ∈ hub.registered) ∧
      hub.registered.Pairwise (· < ·) ∧ ∀ serial ∈ hub.registered, serial < hub.nextSerial) ∧
    (∀ (deeds : List (Deed Request)) (stale : Handle),
      let hub := Hub.empty.performAll deeds
      stale.hub ≠ hub.number →
      (hub.cancel stale).handles = hub.handles ∧ (hub.cancel stale).count = hub.count ∧
      (hub.cancel stale).nextHandle = hub.nextHandle ∧
      (∀ handle, (hub.cancel stale).isActive handle = (hub.isActive handle && handle ≠ stale)) ∧
      ∀ (commit : Commit Host Request State Answer) (host : Host) (heard : List (Heard State Answer))
        (state : State), announce commit ⟨host, hub.cancel stale, heard⟩ state =
          (announce commit ⟨host, hub, heard⟩ state).cancel stale) ∧
    ∀ (commit : Commit Host Request State Answer) (host : Host) (events : List (Event Request State)),
      (events.foldl (happen commit) { host }).hub =
        Hub.empty.performAll (unroll (happen commit) (eventDeeds commit) { host } events) := by
  refine ⟨?_, ?_, ?_⟩
  · intro deeds hub here
    have books := Hub.books_performAll deeds
    have serials : hub.registered = here.map Handle.serial := by
      have handles : hub.handles = here := books.handles
      rw [← handles, Hub.handles, List.map_map]
      exact (List.map_id _).symm
    refine ⟨serials, ?_, books.active, ?_, books.formed.rising, books.formed.issued⟩
    · rw [Hub.count, serials, List.length_map]
    · intro serial
      rw [books.active, ← books.mem_handles_iff]
      exact ⟨fun member => (Hub.mem_handles.mp member).2, fun member => Hub.mem_handles.mpr ⟨rfl, member⟩⟩
  · intro deeds stale hub elsewhere
    refine ⟨Hub.handles_cancel_stale elsewhere, ?_, Hub.nextHandle_cancel stale,
      fun handle => Hub.isActive_cancel handle, ?_⟩
    · rw [Hub.count, Hub.registered_cancel_stale elsewhere, Hub.count]
    · intro commit host heard state
      exact announce_cancel_stale commit ⟨host, hub, heard⟩ elsewhere state
  · intro commit host events
    exact hub_unroll (hub_happen commit) events { host }

def renewed : List (Deed Nat) :=
  [.subscribe "old" [], .replace, .subscribe "new" [], .forget "old"]

theorem renewed_not_silenced :
    let hub := Hub.empty.performAll renewed
    (hub.cancel ⟨0, 0⟩).handles = [⟨1, 0⟩] ∧ hub.isActive ⟨0, 0⟩ = true ∧
      (hub.cancel ⟨0, 0⟩).isActive ⟨0, 0⟩ = false ∧
      (announce (fun (host : Unit) (state : Nat) => (host, some state, ()))
        ⟨(), hub.cancel ⟨0, 0⟩, []⟩ 7).heard = [.delivered ⟨1, 0⟩ "new" 7] := by
  intro hub
  obtain ⟨handles, -, -, activity, told⟩ :=
    (@registrations_agree_with_activity Unit Nat Nat Unit).2.1 renewed ⟨0, 0⟩ (by decide)
  refine ⟨?_, rfl, ?_, ?_⟩
  · rw [handles]
    rfl
  · rw [activity]
    rfl
  · rw [told]
    rfl

end Audience
end StartPage
