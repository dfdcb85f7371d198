/-!
Who listens. A hub holds listeners under rising serial numbers and keeps every one it ever
had, so a handle stays meaningful after its listener is cancelled and after the hub is
replaced. A listener is data: for each of its calls, the reactions it then has, in order;
when none are left it only takes note. Reactions name other listeners by the name under which
their handle was last kept.
-/
namespace StartPage

/-- Serial numbers start again with every hub. -/
structure Handle where
  hub : Nat
  serial : Nat
deriving DecidableEq, Repr, Inhabited

/-- What a listener does from inside a delivery; `Request` is what it may ask to commit. -/
inductive Reaction (Request : Type) where
  | cancel (name : String)
  | subscribe (name : String) (script : List (List (Reaction Request)))
  | commit (request : Request)

abbrev Script (Request : Type) := List (List (Reaction Request))

mutual
/-- How often a reaction, and the listeners it brings along, can ask to commit. -/
def Reaction.commits {Request : Type} : Reaction Request → Nat
  | .cancel _ => 0
  | .subscribe _ script => commitsOfScript script
  | .commit _ => 1
def commitsOfScript {Request : Type} : List (List (Reaction Request)) → Nat
  | [] => 0
  | call :: rest => commitsOfCall call + commitsOfScript rest
def commitsOfCall {Request : Type} : List (Reaction Request) → Nat
  | [] => 0
  | reaction :: rest => reaction.commits + commitsOfCall rest
end

structure Listener (Request : Type) where
  handle : Handle
  name : String
  active : Bool
  script : Script Request

structure Hub (Request : Type) where
  number : Nat := 0
  nextSerial : Nat := 0
  /-- Serial numbers of the listeners that are called, in the order of subscription. -/
  registered : List Nat := []
  /-- Every listener there ever was, of this hub and of those it replaced. -/
  listeners : List (Listener Request) := []
  names : List (String × Handle) := []

namespace Hub

variable {Request : Type}

def empty : Hub Request := {}

instance : Inhabited (Hub Request) := ⟨empty⟩

def count (hub : Hub Request) : Nat := hub.registered.length

def find? (hub : Hub Request) (handle : Handle) : Option (Listener Request) :=
  hub.listeners.find? fun listener => listener.handle == handle

def update (hub : Hub Request) (handle : Handle)
    (change : Listener Request → Listener Request) : Hub Request :=
  { hub with
    listeners := hub.listeners.map fun listener =>
      if listener.handle = handle then change listener else listener }

def handleOf? (hub : Hub Request) (name : String) : Option Handle := hub.names.lookup name

def isActive (hub : Hub Request) (handle : Handle) : Bool :=
  (hub.find? handle).any (·.active)

def subscribe (hub : Hub Request) (name : String) (script : Script Request) : Hub Request :=
  let handle : Handle := ⟨hub.number, hub.nextSerial⟩
  { hub with
    nextSerial := hub.nextSerial + 1
    registered := hub.registered ++ [hub.nextSerial]
    listeners := hub.listeners ++ [⟨handle, name, true, script⟩]
    names := (name, handle) :: hub.names.filter fun kept => kept.1 != name }

/-- The listener of the handle is not called again. A handle of a replaced hub leaves the
registrations of this one alone. -/
def cancel (hub : Hub Request) (handle : Handle) : Hub Request :=
  let hub := hub.update handle fun listener => { listener with active := false }
  if handle.hub = hub.number then
    { hub with registered := hub.registered.filter fun serial => serial != handle.serial }
  else hub

def cancelNamed (hub : Hub Request) (name : String) : Hub Request :=
  match hub.handleOf? name with
  | some handle => hub.cancel handle
  | none => hub

def forget (hub : Hub Request) (name : String) : Hub Request :=
  { hub with names := hub.names.filter fun kept => kept.1 != name }

def replace (hub : Hub Request) : Hub Request :=
  { hub with number := hub.number + 1, nextSerial := 0, registered := [] }

def commits (hub : Hub Request) : Nat :=
  hub.listeners.foldr (fun listener total => commitsOfScript listener.script + total) 0

end Hub
end StartPage
