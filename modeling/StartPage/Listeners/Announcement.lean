import StartPage.Listeners

/-!
Telling the listeners. An announcement visits the listeners that are registered when it
begins, in the order of subscription, and passes over those cancelled before their turn; all
of them hear the value it began with. A listener may commit from inside its call: the
announcement of that commit is finished before the listener goes on. Commits are nested only
as deep as the listeners' scripts are, which bounds the recursion.
-/
namespace StartPage

inductive Heard (State Answer : Type) where
  | delivered (listener : Handle) (name : String) (state : State)
  | answered (listener : Handle) (name : String) (answer : Answer)

/-- The effect of a request on the host: the host afterwards, what to announce if anything,
and the answer to whoever asked. -/
abbrev Commit (Host Request State Answer : Type) := Host → Request → Host × Option State × Answer

/-- A host together with those who listen to it, and all that they heard, oldest first. -/
structure Audience (Host Request State Answer : Type) where
  host : Host
  hub : Hub Request := {}
  heard : List (Heard State Answer) := []

namespace Audience

variable {Host Request State Answer : Type}

abbrev Tell (Host Request State Answer : Type) :=
  Audience Host Request State Answer → State → Audience Host Request State Answer

def note (audience : Audience Host Request State Answer) (event : Heard State Answer) :
    Audience Host Request State Answer :=
  { audience with heard := audience.heard ++ [event] }

def react (commit : Commit Host Request State Answer) (tell : Tell Host Request State Answer)
    (listener : Handle) (name : String) (audience : Audience Host Request State Answer) :
    Reaction Request → Audience Host Request State Answer
  | .cancel other => { audience with hub := audience.hub.cancelNamed other }
  | .subscribe other script => { audience with hub := audience.hub.subscribe other script }
  | .commit request =>
    let (host, state?, answer) := commit audience.host request
    let audience := { audience with host := host }
    let audience :=
      match state? with
      | some state => tell audience state
      | none => audience
    audience.note (.answered listener name answer)

def deliver (commit : Commit Host Request State Answer) (tell : Tell Host Request State Answer)
    (state : State) (audience : Audience Host Request State Answer) (handle : Handle) :
    Audience Host Request State Answer :=
  match audience.hub.find? handle with
  | none => audience
  | some listener =>
    if listener.active then
      let audience := audience.note (.delivered handle listener.name state)
      -- The script moves on before the reactions, so a nested delivery finds its next entry.
      let audience :=
        { audience with
          hub := audience.hub.update handle fun listener =>
            { listener with script := listener.script.tail } }
      (listener.script.headD []).foldl (react commit tell handle listener.name) audience
    else audience

def announceWithin (commit : Commit Host Request State Answer) :
    Nat → Tell Host Request State Answer
  | 0, audience, _ => audience
  | depth + 1, audience, state =>
    (audience.hub.registered.map fun serial => (⟨audience.hub.number, serial⟩ : Handle)).foldl
      (deliver commit (announceWithin commit depth) state) audience

/-- Every level below the first uses up one commit of some listener's script. -/
def announce (commit : Commit Host Request State Answer) : Tell Host Request State Answer :=
  fun audience state => announceWithin commit (audience.hub.commits + 1) audience state

end Audience
end StartPage
