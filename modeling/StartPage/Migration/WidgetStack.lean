import StartPage.Migration

/-!
The page's own chain. Version 1 is the flat record from before the card stack: one flag for
each card, and one key that names the card in front. From version 2 on the stack order is
explicit, from version 3 on so is the list of removed cards; version 4 places cards that
nobody placed at the back of the stack, version 5 does so with cards that are shown although
they were removed. A step works on its record in place, and reads all that it needs before it
writes.
-/
namespace StartPage.Migration

/-- Retired by version 2: the card in front is the end of the stack order. -/
def legacyFrontKey : String := "currentStackWidget"

def isShown (record : Record) (card : Widget) : Except CorruptField Bool := do
  return (← record.flag? card.showKey).getD false

def shownAmong (record : Record) : List Widget → Except CorruptField (List Widget)
  | [] => .ok []
  | card :: rest => do
    let shown ← isShown record card
    let others ← shownAmong record rest
    return if shown then card :: others else others

def stackOrder (record : Record) : Except CorruptField (List Widget) := do
  return (← record.widgets? Field.stackOrder.key).getD []

def removedCards (record : Record) : Except CorruptField (List Widget) := do
  return (← record.widgets? Field.removed.key).getD []

def legacyFront (record : Record) : Except CorruptField (Option Widget) :=
  match record.present? legacyFrontKey with
  | none => .ok none
  | some (.string name) => .ok (Widget.ofName? name)
  | some other => .error ⟨legacyFrontKey, "a widget name", other.kind⟩

def hasStackOrder (record : Record) : Bool := (record.present? Field.stackOrder.key).isSome

def hasRemoved (record : Record) : Bool := (record.present? Field.removed.key).isSome

def isPlaced (order removed : List Widget) (card : Widget) : Bool :=
  order.contains card || removed.contains card

def everyCardPlaced (record : Record) : Bool :=
  match stackOrder record, removedCards record with
  | .ok order, .ok removed => Widget.all.all (isPlaced order removed)
  | _, _ => false

def noShownCardRemoved (record : Record) : Bool :=
  match stackOrder record, removedCards record with
  | .ok _, .ok removed =>
    removed.all fun card => match isShown record card with
      | .ok shown => !shown
      | .error _ => false
  | _, _ => false

namespace Edit

def storeLists (order removed : List Widget) : Edit Unit := do
  modify fun record => record.insert Field.stackOrder.key (widgetList order)
  modify fun record => record.insert Field.removed.key (widgetList removed)

/-- Where the record has no stack order, shown cards in table order, and the legacy front card on
top whether shown or not. -/
def arrange (front : Option Widget) : Edit Unit := do
  unless hasStackOrder (← get) do
    let behind ← look fun record =>
      shownAmong record (Widget.all.filter fun card => some card ≠ front)
    modify fun record =>
      record.insert Field.stackOrder.key (widgetList (behind ++ front.toList))

def buildStackOrder : Edit Unit := do
  let front ← look legacyFront
  arrange front
  modify fun record => record.erase legacyFrontKey

def introduceRemoved : Edit Unit := do
  let order ← look stackOrder
  let removed ← look removedCards
  storeLists order removed

def addNewCards : Edit Unit := do
  let order ← look stackOrder
  let removed ← look removedCards
  let unplaced := Widget.all.filter fun card => !isPlaced order removed card
  storeLists (unplaced ++ order) removed

def replaceCards : Edit Unit := do
  let order ← look stackOrder
  let removed ← look removedCards
  let shown ← look fun record => shownAmong record removed
  let restored := shown.filter fun card => !order.contains card
  storeLists (restored ++ order) (removed.filter fun card => !shown.contains card)

end Edit

def widgetStackSteps : List Step :=
  [{ version := 2, name := "stack-widget-order", probe := some hasStackOrder
     transform := Edit.buildStackOrder.transform },
    { version := 3, name := "removed-stack-widgets", probe := some hasRemoved
      transform := Edit.introduceRemoved.transform },
    { version := 4, name := "add-new-stack-widgets", probe := some everyCardPlaced
      transform := Edit.addNewCards.transform },
    { version := 5, name := "replace-stack-widgets", probe := some noShownCardRemoved
      transform := Edit.replaceCards.transform }]

def widgetStack : Chain where
  base := 1
  steps := widgetStackSteps
  ascending := by decide

theorem addAll_widgetStackSteps : (Chain.empty 1).addAll widgetStackSteps = .ok widgetStack := by
  rfl

end StartPage.Migration
