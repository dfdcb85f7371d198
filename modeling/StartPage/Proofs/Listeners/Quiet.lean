import StartPage.Listeners.Announcement
import StartPage.Proofs.Listeners.Seats

/-!
Listeners that commit nothing. They may cancel and subscribe as they like; an announcement among
them leaves the host alone, and nothing is heard in it but the state that is announced.
-/
namespace StartPage.Audience

variable {Host Request State Answer : Type} {commit : Commit Host Request State Answer}
variable {tell : Tell Host Request State Answer} {state : State}
variable {audience before middle after : Audience Host Request State Answer}

/-- What telling a state to listeners that commit nothing does. -/
structure Hears (state : State) (before after : Audience Host Request State Answer) : Prop where
  host : after.host = before.host
  quiet : after.hub.commits = 0
  heard : ∀ event ∈ after.heard,
    event ∈ before.heard ∨ ∃ listener name, event = .delivered listener name state

theorem Hears.refl (quiet : audience.hub.commits = 0) : Hears state audience audience :=
  ⟨rfl, quiet, fun _ => .inl⟩

theorem Hears.trans (first : Hears state before middle) (second : Hears state middle after) :
    Hears state before after where
  host := second.host.trans first.host
  quiet := second.quiet
  heard event member := (second.heard event member).elim (first.heard event) .inr

theorem react_hears (quiet : audience.hub.commits = 0) (listener : Handle) (name : String)
    {reaction : Reaction Request} (none : reaction.commits = 0) :
    Hears state audience (react commit tell listener name audience reaction) := by
  cases reaction with
  | cancel other => exact ⟨rfl, (Hub.commits_cancelNamed other).trans quiet, fun _ => .inl⟩
  | subscribe other script =>
    refine ⟨rfl, ?_, fun _ => .inl⟩
    have total := audience.hub.commits_subscribe other script
    rw [Reaction.commits] at none
    rwa [quiet, none] at total
  | commit => cases none

theorem reactions_hear (quiet : audience.hub.commits = 0) (listener : Handle) (name : String)
    {reactions : List (Reaction Request)} (none : commitsOfCall reactions = 0) :
    Hears state audience (reactions.foldl (react commit tell listener name) audience) := by
  induction reactions generalizing audience with
  | nil => exact .refl quiet
  | cons reaction rest ih =>
    rw [commitsOfCall] at none
    have first : Hears state audience (react commit tell listener name audience reaction) :=
      react_hears quiet listener name (by omega)
    exact first.trans (ih first.quiet (by omega))

theorem deliver_hears (quiet : audience.hub.commits = 0) (handle : Handle) :
    Hears state audience (deliver commit tell state audience handle) := by
  rw [deliver]
  split
  · exact .refl quiet
  · rename_i listener found
    split
    · -- The call uses up its entry of the script, which has no commits to make.
      have spent := Hub.commits_script found
      let called : Audience Host Request State Answer :=
        { audience.note (.delivered handle listener.name state) with
          hub := audience.hub.update handle fun listener =>
            { listener with script := listener.script.tail } }
      have told : Hears state audience called := by
        refine ⟨rfl, by change Hub.commits (Hub.update _ _ _) = 0; omega, fun event member => ?_⟩
        rcases List.mem_append.mp member with older | last
        · exact .inl older
        · exact .inr ⟨_, _, List.mem_singleton.mp last⟩
      exact told.trans (reactions_hear told.quiet handle listener.name (by omega))
    · exact .refl quiet

theorem deliveries_hear (quiet : audience.hub.commits = 0) (handles : List Handle) :
    Hears state audience (handles.foldl (deliver commit tell state) audience) := by
  induction handles generalizing audience with
  | nil => exact .refl quiet
  | cons handle rest ih =>
    have first : Hears state audience (deliver commit tell state audience handle) :=
      deliver_hears quiet handle
    exact first.trans (ih first.quiet)

theorem announce_hears (commit : Commit Host Request State Answer)
    (audience : Audience Host Request State Answer) (quiet : audience.hub.commits = 0)
    (state : State) :
    Hears state audience (announce commit audience state) :=
  deliveries_hear quiet _

end StartPage.Audience
