import StartPage.Settings

/-!
Loads of a store, known by tickets. They pass a gate one at a time, in the order of arrival:
one load reads, the others wait. A load that is cancelled leaves the gate to the next one.
-/
namespace StartPage

inductive LoadFate where
  | loaded (settings : Settings)
  | cancelled

inductive ReadFate where
  | used
  | cut
deriving DecidableEq, Repr

structure Loads where
  nextTicket : Nat := 0
  waiting : List Nat := []
  /-- The load that reads, and when its read ends. -/
  reading : Option (Nat × Nat) := none
  fates : List (Nat × LoadFate) := []
  /-- Every read that has ended, the latest first. -/
  reads : List (Nat × ReadFate) := []

namespace Loads

def enter (loads : Loads) : Loads :=
  { loads with nextTicket := loads.nextTicket + 1, waiting := loads.waiting ++ [loads.nextTicket] }

def fate? (loads : Loads) (ticket : Nat) : Option LoadFate := loads.fates.lookup ticket

def isReading (loads : Loads) (ticket : Nat) : Bool :=
  loads.reading.any fun (reader, _) => reader == ticket

def isQuiet (loads : Loads) : Bool := loads.reading.isNone && loads.waiting.isEmpty

def cancel (loads : Loads) (ticket : Nat) : Loads :=
  if loads.isReading ticket then
    { loads with
      reading := none
      fates := (ticket, .cancelled) :: loads.fates
      reads := (ticket, .cut) :: loads.reads }
  else if ticket ∈ loads.waiting then
    { loads with
      waiting := loads.waiting.filter fun other => other != ticket
      fates := (ticket, .cancelled) :: loads.fates }
  else loads

/-- Bounds how many steps are left when no more loads come. -/
def work (loads : Loads) : Nat :=
  2 * loads.waiting.length + if loads.reading.isSome then 1 else 0

end Loads
end StartPage
