import StartPage.Proofs.Listeners.Conduct
import StartPage.Proofs.Listeners.Newest
import StartPage.Proofs.Listeners.Registered

/-!
Notifications as they are carried out. A scene is an audience together with a log of what happened
among the listeners; telling a scene does to its audience what telling the audience does. Every
incident is one that the rules allow next, so all that is known of orderly logs holds of whatever
listeners are told, how deep their calls may nest.
-/
namespace StartPage

open Incident

namespace Audience

variable {Host Request State Answer : Type}

/-- A call from outside, while nobody is told anything. -/
inductive Act (Request State : Type) where
  | subscribe (name : String) (script : Script Request)
  | cancel (handle : Handle)
  | forget (name : String)
  | announce (state : State)

def act (commit : Commit Host Request State Answer)
    (audience : Audience Host Request State Answer) :
    Act Request State → Audience Host Request State Answer
  | .subscribe name script => { audience with hub := audience.hub.subscribe name script }
  | .cancel handle => { audience with hub := audience.hub.cancel handle }
  | .forget name => { audience with hub := audience.hub.forget name }
  | .announce state => audience.announce commit state

def deliveries (heard : List (Heard State Answer)) : List (Handle × State) :=
  heard.filterMap fun
    | .delivered listener _ state => some (listener, state)
    | .answered .. => none

end Audience

open Audience (deliveries Act)

structure Scene (Host Request State Answer : Type) where
  audience : Audience Host Request State Answer
  log : List (Incident State) := []

namespace Scene

variable {Host Request State Answer : Type}

def note (scene : Scene Host Request State Answer) (incident : Incident State) :
    Scene Host Request State Answer :=
  { scene with log := scene.log ++ [incident] }

def withHub (scene : Scene Host Request State Answer) (hub : Hub Request) :
    Scene Host Request State Answer :=
  { scene with audience := { scene.audience with hub } }

def subscribe (scene : Scene Host Request State Answer) (name : String) (script : Script Request) :
    Scene Host Request State Answer :=
  (scene.withHub (scene.audience.hub.subscribe name script)).note
    (.subscribed scene.audience.hub.nextHandle)

/-- Cancelling a handle that nobody was given is no incident. -/
def cancel (scene : Scene Host Request State Answer) (handle : Handle) :
    Scene Host Request State Answer :=
  if (scene.audience.hub.find? handle).isSome then
    (scene.withHub (scene.audience.hub.cancel handle)).note (.cancelled handle)
  else scene.withHub (scene.audience.hub.cancel handle)

abbrev Tell (Host Request State Answer : Type) :=
  Scene Host Request State Answer → State → Scene Host Request State Answer

def react (commit : Commit Host Request State Answer) (tell : Tell Host Request State Answer)
    (listener : Handle) (name : String) (scene : Scene Host Request State Answer) :
    Reaction Request → Scene Host Request State Answer
  | .cancel other =>
    match scene.audience.hub.handleOf? other with
    | some handle => scene.cancel handle
    | none => scene
  | .subscribe other script => scene.subscribe other script
  | .commit request =>
    let (host, state?, answer) := commit scene.audience.host request
    let scene := { scene with audience := { scene.audience with host } }
    let scene :=
      match state? with
      | some state => tell scene state
      | none => scene
    { scene with audience := scene.audience.note (.answered listener name answer) }

def deliver (commit : Commit Host Request State Answer) (tell : Tell Host Request State Answer)
    (number : Nat) (state : State) (scene : Scene Host Request State Answer) (handle : Handle) :
    Scene Host Request State Answer :=
  match scene.audience.hub.find? handle with
  | none => scene
  | some listener =>
    if listener.active then
      (listener.script.headD []).foldl (react commit tell handle listener.name)
        ⟨scene.audience.called handle listener.name state,
          scene.log ++ [.called number handle state]⟩
    else scene.note (.passed number handle)

/-- Out of depth a notification would begin and not end. -/
def announceWithin (commit : Commit Host Request State Answer) :
    Nat → Tell Host Request State Answer
  | 0, scene, state => scene.note (.began (begun scene.log) state)
  | depth + 1, scene, state =>
    (scene.audience.hub.handles.foldl
      (deliver commit (announceWithin commit depth) (begun scene.log) state)
      (scene.note (.began (begun scene.log) state))).note (.ended (begun scene.log))

def act (commit : Commit Host Request State Answer) (scene : Scene Host Request State Answer) :
    Act Request State → Scene Host Request State Answer
  | .subscribe name script => scene.subscribe name script
  | .cancel handle => scene.cancel handle
  | .forget name => scene.withHub (scene.audience.hub.forget name)
  | .announce state => announceWithin commit (scene.audience.hub.commits + 1) scene state

theorem cancel_log (scene : Scene Host Request State Answer) (handle : Handle) :
    scene.log <+: (scene.cancel handle).log := by
  unfold cancel
  split
  · exact List.prefix_append _ _
  · exact List.prefix_rfl

section Log

variable (commit : Commit Host Request State Answer) {tell : Tell Host Request State Answer}

theorem react_log (grows : ∀ scene state, scene.log <+: (tell scene state).log) (listener : Handle)
    (name : String) (scene : Scene Host Request State Answer) (reaction : Reaction Request) :
    scene.log <+: (react commit tell listener name scene reaction).log := by
  cases reaction with
  | cancel other =>
    simp only [react]
    split
    · exact scene.cancel_log _
    · exact List.prefix_rfl
  | subscribe other script => exact List.prefix_append _ _
  | commit request =>
    simp only [react]
    split
    · let committed := { scene.audience with host := (commit scene.audience.host request).1 }
      exact grows ⟨committed, scene.log⟩ _
    · exact List.prefix_rfl

theorem foldl_log {Item : Type}
    {step : Scene Host Request State Answer → Item → Scene Host Request State Answer}
    (grows : ∀ scene item, scene.log <+: (step scene item).log) (items : List Item)
    (scene : Scene Host Request State Answer) : scene.log <+: (items.foldl step scene).log := by
  induction items generalizing scene with
  | nil => exact List.prefix_rfl
  | cons item rest ih => exact (grows scene item).trans (ih (step scene item))

theorem deliver_log (grows : ∀ scene state, scene.log <+: (tell scene state).log) (number : Nat)
    (state : State) (scene : Scene Host Request State Answer) (handle : Handle) :
    scene.log <+: (deliver commit tell number state scene handle).log := by
  unfold deliver
  split
  case h_1 => exact List.prefix_rfl
  case h_2 listener found =>
    split
    case isTrue active =>
      have reacted := foldl_log (react_log commit grows handle listener.name)
        (listener.script.headD []) ⟨scene.audience.called handle listener.name state,
          scene.log ++ [.called number handle state]⟩
      exact (List.prefix_append _ _).trans reacted
    case isFalse => exact List.prefix_append _ _

theorem announceWithin_log (depth : Nat) (scene : Scene Host Request State Answer) (state : State) :
    scene.log ++ [.began (begun scene.log) state] <+:
      (announceWithin commit depth scene state).log := by
  induction depth generalizing scene state with
  | zero => exact List.prefix_rfl
  | succ depth ih =>
    have grows (scene : Scene Host Request State Answer) (state : State) :
        scene.log <+: (announceWithin commit depth scene state).log :=
      (List.prefix_append _ _).trans (ih scene state)
    have visited := foldl_log (deliver_log commit grows (begun scene.log) state)
      scene.audience.hub.handles (scene.note (.began (begun scene.log) state))
    exact visited.trans (List.prefix_append _ _)

theorem act_log (scene : Scene Host Request State Answer) (act : Act Request State) :
    scene.log <+: (scene.act commit act).log := by
  cases act with
  | subscribe => exact List.prefix_append _ _
  | cancel handle => exact scene.cancel_log handle
  | forget => exact List.prefix_rfl
  | announce state => exact (List.prefix_append _ _).trans (announceWithin_log commit _ scene state)

end Log

section Audience

variable {commit : Commit Host Request State Answer} {tell : Tell Host Request State Answer}
  {plain : Audience.Tell Host Request State Answer}

theorem cancel_audience (scene : Scene Host Request State Answer) (handle : Handle) :
    (scene.cancel handle).audience =
      { scene.audience with hub := scene.audience.hub.cancel handle } := by
  unfold cancel
  split <;> rfl

theorem react_audience
    (same : ∀ scene state, (tell scene state).audience = plain scene.audience state)
    (listener : Handle) (name : String) (scene : Scene Host Request State Answer)
    (reaction : Reaction Request) : (react commit tell listener name scene reaction).audience =
      Audience.react commit plain listener name scene.audience reaction := by
  cases reaction with
  | cancel other =>
    cases found : scene.audience.hub.handleOf? other with
    | none => simp only [react, Audience.react, Hub.cancelNamed, found]
    | some handle =>
      simp only [react, Audience.react, Hub.cancelNamed, found]
      exact cancel_audience scene handle
  | subscribe other script => rfl
  | commit request =>
    -- What is told meanwhile is the same with a log and without one.
    cases announced : (commit scene.audience.host request).2.1 with
    | none => simp only [react, Audience.react, announced]
    | some state => simp only [react, Audience.react, announced, same]

theorem deliver_audience
    (same : ∀ scene state, (tell scene state).audience = plain scene.audience state) (number : Nat)
    (state : State) (scene : Scene Host Request State Answer) (handle : Handle) :
    (deliver commit tell number state scene handle).audience =
      Audience.deliver commit plain state scene.audience handle := by
  cases found : scene.audience.hub.find? handle with
  | none => simp only [deliver, Audience.deliver, found]
  | some listener =>
    cases active : listener.active with
    | false =>
      simp only [deliver, Audience.deliver, found, active, note, Bool.false_eq_true, if_false]
    | true =>
      rw [Audience.deliver_called state found active]
      simp only [deliver, found, active, if_true]
      refine (List.foldl_hom Scene.audience fun scene reaction => ?_).symm
      exact (react_audience same handle listener.name scene reaction).symm

/-- The audience of a scene is told what it would be told without a log. -/
theorem announceWithin_audience (commit : Commit Host Request State Answer) (depth : Nat)
    (scene : Scene Host Request State Answer) (state : State) :
    (announceWithin commit depth scene state).audience =
      Audience.announceWithin commit depth scene.audience state := by
  induction depth generalizing scene state with
  | zero => rfl
  | succ depth ih =>
    refine (List.foldl_hom Scene.audience fun scene handle => ?_).symm
    exact (deliver_audience ih _ state scene handle).symm

theorem act_audience (commit : Commit Host Request State Answer)
    (scene : Scene Host Request State Answer) (act : Act Request State) :
    (scene.act commit act).audience = scene.audience.act commit act := by
  cases act with
  | subscribe | forget => rfl
  | cancel handle => exact scene.cancel_audience handle
  | announce state => exact announceWithin_audience commit _ scene state

end Audience

/-- The log of a scene keeps to the rules and says who listens and what was heard. -/
structure Faithful (scene : Scene Host Request State Answer) (rounds : List (Round State)) :
    Prop where
  orderly : Orderly scene.log rounds
  genuine : scene.audience.hub.Genuine
  handles : scene.audience.hub.handles = registrations scene.log
  known : ∀ handle,
    (scene.audience.hub.find? handle).isSome = true ↔ handle ∈ subscriptions scene.log
  heard : deliveries scene.audience.heard = calls scene.log

section Faithful

variable {scene : Scene Host Request State Answer} {rounds : List (Round State)} {number : Nat}
  {state : State} {handle : Handle} {ahead : List Handle}

theorem faithful_new (host : Host) :
    Faithful (⟨{ host }, []⟩ : Scene Host Request State Answer) [] :=
  ⟨.empty, Hub.genuine_empty, rfl, fun _ => ⟨nofun, nofun⟩, rfl⟩

theorem Faithful.unlogged (faithful : scene.Faithful rounds)
    {after : Audience Host Request State Answer} (hub : after.hub = scene.audience.hub)
    (heard : deliveries after.heard = deliveries scene.audience.heard) :
    Faithful ⟨after, scene.log⟩ rounds :=
  ⟨faithful.orderly, hub ▸ faithful.genuine, (congrArg Hub.handles hub).trans faithful.handles,
    hub ▸ faithful.known, heard.trans faithful.heard⟩

theorem Faithful.subscribe (faithful : scene.Faithful rounds) (name : String)
    (script : Script Request) : (scene.subscribe name script).Faithful rounds := by
  have fresh : scene.audience.hub.nextHandle ∉ subscriptions scene.log := by
    rw [← faithful.known, faithful.genuine.find?_eq_none Hub.not_issued_nextHandle]
    exact Bool.false_ne_true
  have listens : scene.audience.hub.nextHandle ∉ cancellations scene.log := fun gone =>
    fresh (faithful.orderly.cancellations_subset gone)
  refine ⟨faithful.orderly.subscribed fresh, faithful.genuine.subscribe name script, ?_, ?_, ?_⟩
  · exact (Hub.handles_subscribe name script).trans
      (faithful.handles ▸ (registrations_subscribed listens).symm)
  · intro handle
    refine (Hub.isSome_find?_subscribe name script).trans ?_
    rw [faithful.known]
    simp [Scene.subscribe, note, withHub, subscribed?]
  · refine faithful.heard.trans ?_
    simp [Scene.subscribe, note, withHub, call?]

theorem Faithful.cancel (faithful : scene.Faithful rounds) (handle : Handle) :
    (scene.cancel handle).Faithful rounds := by
  have genuine := faithful.genuine.cancel handle
  have handles : (scene.audience.hub.cancel handle).handles =
      (registrations scene.log).filter (· ≠ handle) := by
    rw [Hub.handles_cancel, faithful.handles]
  have known (other : Handle) : ((scene.audience.hub.cancel handle).find? other).isSome = true ↔
      other ∈ subscriptions scene.log := by
    rw [Hub.isSome_find?_cancel, faithful.known]
  unfold Scene.cancel
  split
  case isTrue given =>
    refine ⟨faithful.orderly.cancelled ((faithful.known handle).mp given), genuine,
      handles.trans registrations_cancelled.symm, fun other => ?_, ?_⟩
    · refine (known other).trans ?_
      simp [note, withHub, subscribed?]
    · refine faithful.heard.trans ?_
      simp [note, withHub, call?]
  case isFalse strange =>
    -- Nobody has the handle, so nobody is taken off the registrations.
    have unknown : handle ∉ scene.audience.hub.handles := by
      rw [faithful.handles, mem_registrations, ← faithful.known]
      exact fun registered => strange registered.1
    have same : registrations scene.log = (registrations scene.log).filter (· ≠ handle) := by
      refine (List.filter_eq_self.mpr fun other member => decide_eq_true ?_).symm
      rintro rfl
      exact unknown (faithful.handles ▸ member)
    exact ⟨faithful.orderly, genuine, handles.trans same.symm, known, faithful.heard⟩

theorem Faithful.note {incident : Incident State} {next : List (Round State)}
    (faithful : scene.Faithful rounds) (orderly : Orderly (scene.log ++ [incident]) next)
    (subscribes : incident.subscribed? = none) (cancels : incident.cancelled? = none)
    (silent : incident.call? = none) : (scene.note incident).Faithful next where
  orderly := orderly
  genuine := faithful.genuine
  handles := faithful.handles.trans (registrations_concat subscribes cancels).symm
  known handle := by
    refine (faithful.known handle).trans ?_
    simp [Scene.note, subscribes]
  heard := by
    refine faithful.heard.trans ?_
    simp [Scene.note, silent]

theorem Faithful.began (faithful : scene.Faithful rounds) (state : State) :
    (scene.note (.began (begun scene.log) state)).Faithful
      (⟨begun scene.log, state, scene.audience.hub.handles⟩ :: rounds) := by
  rw [faithful.handles]
  exact faithful.note (faithful.orderly.began state) rfl rfl rfl

theorem Faithful.ended (faithful : scene.Faithful (⟨number, state, []⟩ :: rounds)) :
    (scene.note (.ended number)).Faithful rounds :=
  faithful.note faithful.orderly.ended rfl rfl rfl

theorem Faithful.isActive (faithful : scene.Faithful rounds) :
    scene.audience.hub.isActive handle = true ↔
      handle ∈ subscriptions scene.log ∧ handle ∉ cancellations scene.log := by
  rw [faithful.genuine.active, faithful.handles, mem_registrations]

theorem Faithful.called (faithful : scene.Faithful (⟨number, state, handle :: ahead⟩ :: rounds))
    (active : scene.audience.hub.isActive handle = true) (name : String) :
    Faithful ⟨scene.audience.called handle name state, scene.log ++ [.called number handle state]⟩
      (⟨number, state, ahead⟩ :: rounds) where
  orderly := faithful.orderly.called (faithful.isActive.mp active).2
  genuine := faithful.genuine.script handle
  handles := faithful.handles.trans (registrations_concat rfl rfl).symm
  known other := by
    have same : ((scene.audience.called handle name state).hub.find? other).isSome =
        (scene.audience.hub.find? other).isSome := Hub.isSome_find?_update fun _ => rfl
    simpa [same, subscribed?] using faithful.known other
  heard := by
    rw [calls_concat, ← faithful.heard]
    exact List.filterMap_append

theorem Faithful.passed (faithful : scene.Faithful (⟨number, state, handle :: ahead⟩ :: rounds))
    (inactive : scene.audience.hub.isActive handle = false) :
    (scene.note (.passed number handle)).Faithful (⟨number, state, ahead⟩ :: rounds) := by
  have subscribed : handle ∈ subscriptions scene.log :=
    faithful.orderly.ahead_subset _ List.mem_cons_self List.mem_cons_self
  -- It was registered when the notification began, so nothing but a cancellation made it inactive.
  have gone : handle ∈ cancellations scene.log := by
    by_contra listens
    have active := faithful.isActive.mpr ⟨subscribed, listens⟩
    cases inactive.symm.trans active
  exact faithful.note (faithful.orderly.passed gone) rfl rfl rfl

end Faithful

/-- A way of telling that keeps to the rules, if no more than so many commits are left. -/
def Keeps (depth : Nat) (tell : Tell Host Request State Answer) : Prop :=
  ∀ (scene : Scene Host Request State Answer) (rounds : List (Round State)) (state : State),
    scene.Faithful rounds → scene.audience.hub.commits < depth →
      (tell scene state).Faithful rounds ∧
        (tell scene state).audience.hub.commits ≤ scene.audience.hub.commits

section Keeping

variable (commit : Commit Host Request State Answer) {tell : Tell Host Request State Answer}
  {depth : Nat} {scene : Scene Host Request State Answer} {rounds : List (Round State)}
  {number : Nat} {state : State} {handle : Handle} {ahead : List Handle}

theorem commits_cancel (scene : Scene Host Request State Answer) (handle : Handle) :
    (scene.cancel handle).audience.hub.commits = scene.audience.hub.commits := by
  rw [cancel_audience]
  exact Hub.commits_cancel handle

theorem react_faithful (keeps : Keeps depth tell) (faithful : scene.Faithful rounds)
    (listener : Handle) (name : String) (reaction : Reaction Request)
    (enough : scene.audience.hub.commits + reaction.commits ≤ depth) :
    (react commit tell listener name scene reaction).Faithful rounds ∧
      (react commit tell listener name scene reaction).audience.hub.commits ≤
        scene.audience.hub.commits + reaction.commits := by
  cases reaction with
  | cancel other =>
    simp only [react]
    split
    · exact ⟨faithful.cancel _, Nat.le_of_eq (scene.commits_cancel _)⟩
    · exact ⟨faithful, Nat.le_add_right _ _⟩
  | subscribe other script =>
    exact ⟨faithful.subscribe other script, Nat.le_of_eq (Hub.commits_subscribe other script)⟩
  | commit request =>
    have committed : Faithful
        ⟨{ scene.audience with host := (commit scene.audience.host request).1 }, scene.log⟩
        rounds := faithful.unlogged rfl rfl
    have answered {after : Scene Host Request State Answer} (kept : after.Faithful rounds)
        (answer : Answer) :
        Faithful ⟨after.audience.note (.answered listener name answer), after.log⟩ rounds :=
      kept.unlogged rfl (by simp [deliveries, Audience.note])
    simp only [react]
    split
    · -- The commit itself counts for one, which leaves fewer than the depth for what it announces.
      obtain ⟨told, left⟩ := keeps _ rounds _ committed (Nat.lt_of_succ_le enough)
      exact ⟨answered told _, Nat.le_add_right_of_le left⟩
    · exact ⟨answered committed _, Nat.le_add_right _ _⟩

theorem reactions_faithful (keeps : Keeps depth tell) (faithful : scene.Faithful rounds)
    (listener : Handle) (name : String) (reactions : List (Reaction Request))
    (enough : scene.audience.hub.commits + commitsOfCall reactions ≤ depth) :
    (reactions.foldl (react commit tell listener name) scene).Faithful rounds ∧
      (reactions.foldl (react commit tell listener name) scene).audience.hub.commits ≤
        scene.audience.hub.commits + commitsOfCall reactions := by
  induction reactions generalizing scene with
  | nil => exact ⟨faithful, Nat.le_refl _⟩
  | cons reaction rest ih =>
    rw [commitsOfCall] at enough ⊢
    obtain ⟨kept, left⟩ :=
      react_faithful commit keeps faithful listener name reaction (by omega)
    obtain ⟨kept, later⟩ := ih kept (by omega)
    exact ⟨kept, Nat.le_trans later (by omega)⟩

theorem deliver_faithful (keeps : Keeps depth tell)
    (faithful : scene.Faithful (⟨number, state, handle :: ahead⟩ :: rounds))
    (enough : scene.audience.hub.commits ≤ depth) :
    (deliver commit tell number state scene handle).Faithful (⟨number, state, ahead⟩ :: rounds) ∧
      (deliver commit tell number state scene handle).audience.hub.commits ≤
        scene.audience.hub.commits := by
  have subscribed : handle ∈ subscriptions scene.log :=
    faithful.orderly.ahead_subset _ List.mem_cons_self List.mem_cons_self
  obtain ⟨listener, found⟩ := Option.isSome_iff_exists.mp ((faithful.known handle).mpr subscribed)
  have activity : scene.audience.hub.isActive handle = listener.active := by
    rw [Hub.isActive, found, Option.any_some]
  cases active : listener.active with
  | false =>
    simp only [deliver, found, active, Bool.false_eq_true, if_false]
    exact ⟨faithful.passed (activity.trans active), Nat.le_refl _⟩
  | true =>
    -- What the script holds for this call is taken out of the hub before the listener does it.
    have spent := Hub.commits_script found
    have called := faithful.called (activity.trans active) listener.name
    simp only [deliver, found, active, if_true]
    obtain ⟨kept, left⟩ := reactions_faithful commit keeps called handle listener.name
      (listener.script.headD []) (Nat.le_trans spent enough)
    exact ⟨kept, Nat.le_trans left spent⟩

theorem deliveries_faithful (keeps : Keeps depth tell)
    (faithful : scene.Faithful (⟨number, state, ahead⟩ :: rounds))
    (enough : scene.audience.hub.commits ≤ depth) :
    (ahead.foldl (deliver commit tell number state) scene).Faithful
        (⟨number, state, []⟩ :: rounds) ∧
      (ahead.foldl (deliver commit tell number state) scene).audience.hub.commits ≤
        scene.audience.hub.commits := by
  induction ahead generalizing scene with
  | nil => exact ⟨faithful, Nat.le_refl _⟩
  | cons handle rest ih =>
    obtain ⟨kept, left⟩ := deliver_faithful commit keeps faithful enough
    obtain ⟨kept, later⟩ := ih kept (Nat.le_trans left enough)
    exact ⟨kept, Nat.le_trans later left⟩

/-- Every level of nesting uses up a commit of some listener's script, so a notification with as
many levels as there are commits left goes through. -/
theorem announceWithin_keeps (depth : Nat) :
    Keeps depth (announceWithin commit depth) := by
  induction depth with
  | zero => exact fun _ _ _ _ impossible => absurd impossible (Nat.not_lt_zero _)
  | succ depth ih =>
    intro scene rounds state faithful enough
    have enough := Nat.le_of_lt_succ enough
    -- All who are registered have their turn, and then the notification ends with none ahead.
    obtain ⟨kept, left⟩ :=
      deliveries_faithful commit ih (faithful.began state) enough
    exact ⟨kept.ended, left⟩

theorem act_faithful (faithful : scene.Faithful [])
    (act : Act Request State) : (scene.act commit act).Faithful [] := by
  cases act with
  | subscribe name script => exact faithful.subscribe name script
  | cancel handle => exact faithful.cancel handle
  | forget name =>
    exact ⟨faithful.orderly, faithful.genuine.forget name, faithful.handles, faithful.known,
      faithful.heard⟩
  | announce state =>
    exact (announceWithin_keeps commit _ scene [] state faithful (Nat.lt_succ_self _)).1

end Keeping

def perform (commit : Commit Host Request State Answer) (host : Host)
    (acts : List (Act Request State)) : Scene Host Request State Answer :=
  acts.foldl (act commit) ⟨{ host }, []⟩

/-- Whatever is subscribed, cancelled and announced, from outside or from inside a call, every
notification goes through: it visits the listeners that were registered when it began, in the order
of subscription, tells each its own state at most once, and passes over those cancelled before their
turn and no others. What begins meanwhile ends before it goes on, and who has been cancelled is
called no more by any of them. The log is that of what the audience did, and every announcement
begins a notification. -/
theorem notifications_go_through (commit : Commit Host Request State Answer) (host : Host)
    (acts : List (Act Request State)) :
    (perform commit host acts).audience = acts.foldl (Audience.act commit) { host } ∧
    deliveries (perform commit host acts).audience.heard = calls (perform commit host acts).log ∧
    (perform commit host acts).audience.hub.handles =
      registrations (perform commit host acts).log ∧
    (∀ before state after, acts = before ++ .announce state :: after →
      (perform commit host before).log ++
          [.began (begun (perform commit host before).log) state] <+:
        (perform commit host acts).log) ∧
    Conducted (perform commit host acts).log := by
  have faithful : (perform commit host acts).Faithful [] :=
    List.foldlRecOn _ _ (motive := fun scene : Scene Host Request State Answer => scene.Faithful [])
      (faithful_new host) fun _ faithful act _ => act_faithful commit faithful act
  refine ⟨?_, faithful.heard, faithful.handles, ?_, faithful.orderly.conducted⟩
  · refine (List.foldl_hom Scene.audience fun scene act => ?_).symm
    exact (scene.act_audience commit act).symm
  · rintro before state after rfl
    have split : perform commit host (before ++ .announce state :: after) =
        after.foldl (act commit) ((perform commit host before).act commit (.announce state)) := by
      rw [perform, List.foldl_append, List.foldl_cons]
      rfl
    rw [split]
    exact (announceWithin_log commit _ _ state).trans (foldl_log (act_log commit) after _)

/-- The first of three listeners cancels the second and notifies again. -/
example : (perform (fun (host : Unit) (state : Nat) => (host, some state, ())) ()
    [.subscribe "first" [[.cancel "second", .commit 2]], .subscribe "second" [],
      .subscribe "third" [], .announce 1]).log =
    [.subscribed ⟨0, 0⟩, .subscribed ⟨0, 1⟩, .subscribed ⟨0, 2⟩, .began 0 1, .called 0 ⟨0, 0⟩ 1,
      .cancelled ⟨0, 1⟩, .began 1 2, .called 1 ⟨0, 0⟩ 2, .called 1 ⟨0, 2⟩ 2, .ended 1,
      .passed 0 ⟨0, 1⟩, .called 0 ⟨0, 2⟩ 1, .ended 0] := by
  decide +kernel

end Scene
end StartPage
