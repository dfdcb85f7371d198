import StartPage.Proofs.Listeners.Newest
import StartPage.Proofs.Listeners.Registered

/-!
Listeners that only take note. An announcement to them is heard by each listener that is registered,
once, and does nothing else.
-/
namespace StartPage

namespace Hub

variable {Request : Type} {hub : Hub Request}

/-- No listener has anything left to do but to take note. -/
def Attentive (hub : Hub Request) : Prop :=
  ∀ listener ∈ hub.listeners, ∀ call ∈ listener.script, call = []

theorem attentive_empty : (empty : Hub Request).Attentive := nofun

theorem Attentive.update (attentive : hub.Attentive) (handle : Handle)
    {change : Listener Request → Listener Request}
    (shorter : ∀ listener, (change listener).script ⊆ listener.script) :
    (hub.update handle change).Attentive := by
  intro listener member call called
  obtain ⟨older, known, rfl⟩ := List.mem_map.mp member
  refine attentive older known call ?_
  split at called
  · exact shorter older called
  · exact called

theorem Attentive.cancel (attentive : hub.Attentive) (handle : Handle) :
    (hub.cancel handle).Attentive := by
  rw [cancel_eq]
  exact attentive.update handle fun _ => List.Subset.refl _

theorem Attentive.subscribe (attentive : hub.Attentive) (name : String) {script : Script Request}
    (quiet : ∀ call ∈ script, call = []) : (hub.subscribe name script).Attentive := by
  intro listener member
  rcases List.mem_append.mp member with older | last
  · exact attentive listener older
  · rw [List.mem_singleton.mp last]
    exact quiet

theorem Attentive.headD (attentive : hub.Attentive) {listener : Listener Request}
    (member : listener ∈ hub.listeners) : listener.script.headD [] = [] := by
  have quiet := attentive listener member
  cases script : listener.script with
  | nil => rfl
  | cons call rest => exact quiet call (script ▸ List.mem_cons_self)

end Hub

namespace Audience

variable {Host Request State Answer : Type} {commit : Commit Host Request State Answer}
  {tell : Tell Host Request State Answer} {audience after : Audience Host Request State Answer}
  {state : State} {handle : Handle}

/-- Listeners that take note have been told: each that is listed has heard the state once more, and
nothing else happened. -/
structure Told (audience : Audience Host Request State Answer) (listed : List Handle)
    (state : State) (after : Audience Host Request State Answer) : Prop where
  host : after.host = audience.host
  genuine : after.hub.Genuine
  attentive : after.hub.Attentive
  handles : after.hub.handles = audience.hub.handles
  nextHandle : after.hub.nextHandle = audience.hub.nextHandle
  heard : ∀ handle, delivered handle after.heard =
    delivered handle audience.heard ++ if handle ∈ listed then [state] else []

theorem deliver_told (genuine : audience.hub.Genuine) (attentive : audience.hub.Attentive)
    (registered : handle ∈ audience.hub.handles) :
    Told audience [handle] state (deliver commit tell state audience handle) := by
  obtain ⟨listener, member, found, active⟩ := genuine.find? registered
  rw [deliver_called state found active, attentive.headD member]
  refine ⟨rfl, genuine.script handle, attentive.update handle fun listener => ?_, rfl, rfl, ?_⟩
  · exact (List.tail_sublist listener.script).subset
  · intro other
    rw [List.foldl_nil, called, delivered_append]
    by_cases same : other = handle
    · rw [same, delivered_self, if_pos (List.mem_singleton_self _)]
    · rw [delivered_other (Ne.symm same), if_neg (List.mem_singleton.not.mpr same)]

theorem deliveries_told (genuine : audience.hub.Genuine) (attentive : audience.hub.Attentive)
    {listed : List Handle} (distinct : listed.Nodup)
    (registered : ∀ handle ∈ listed, handle ∈ audience.hub.handles) :
    Told audience listed state (listed.foldl (deliver commit tell state) audience) := by
  induction listed generalizing audience with
  | nil => exact ⟨rfl, genuine, attentive, rfl, rfl, fun _ => (List.append_nil _).symm⟩
  | cons handle rest ih =>
    obtain ⟨fresh, distinct⟩ := List.nodup_cons.mp distinct
    have first : Told audience [handle] state (deliver commit tell state audience handle) :=
      deliver_told genuine attentive (registered handle List.mem_cons_self)
    obtain ⟨host, genuine, attentive, handles, next, heard⟩ := first
    have later := ih genuine attentive distinct fun other member =>
      handles ▸ registered other (List.mem_cons_of_mem _ member)
    refine ⟨later.host.trans host, later.genuine, later.attentive, later.handles.trans handles,
      later.nextHandle.trans next, fun other => ?_⟩
    rw [List.foldl_cons, later.heard, heard]
    -- Nobody is listed twice, so who is told first is not told again.
    by_cases same : other = handle
    · subst same
      simp [fresh]
    · simp [same]

theorem announce_told (genuine : audience.hub.Genuine) (attentive : audience.hub.Attentive) :
    Told audience audience.hub.handles state (announce commit audience state) :=
  deliveries_told genuine attentive (Hub.nodup_handles genuine.formed) fun _ member => member

end Audience
end StartPage
