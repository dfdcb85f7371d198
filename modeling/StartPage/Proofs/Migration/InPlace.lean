import StartPage.Migration.WidgetStack

/-!
The steps of the page's chain as functions of the record. A step works on its record in place,
where a fault leaves behind what was written before it. None of the four steps writes before its
last reader is through, so a step is all or nothing: it gives a new record, or a fault and the
record as it was. What it gives is stated here once for each step.
-/
namespace StartPage.Migration

/-- A transformation that leaves the record as it was when it fails. -/
def atomic (change : Record → Except CorruptField Record) (record : Record) :
    Record × Option CorruptField :=
  match change record with
  | .ok after => (after, none)
  | .error fault => (record, some fault)

def withLists (record : Record) (order removed : List Widget) : Record :=
  (record.insert Field.stackOrder.key (widgetList order)).insert Field.removed.key
    (widgetList removed)

def arrange (record : Record) (front : Option Widget) : Except CorruptField Record :=
  if hasStackOrder record then .ok record
  else do
    let behind ← shownAmong record (Widget.all.filter fun card => some card ≠ front)
    return record.insert Field.stackOrder.key (widgetList (behind ++ front.toList))

def buildStackOrder (record : Record) : Except CorruptField Record := do
  let front ← legacyFront record
  let arranged ← arrange record front
  return arranged.erase legacyFrontKey

def introduceRemoved (record : Record) : Except CorruptField Record := do
  let order ← stackOrder record
  let removed ← removedCards record
  return withLists record order removed

def addNewCards (record : Record) : Except CorruptField Record := do
  let order ← stackOrder record
  let removed ← removedCards record
  let unplaced := Widget.all.filter fun card => !isPlaced order removed card
  return withLists record (unplaced ++ order) removed

def replaceCards (record : Record) : Except CorruptField Record := do
  let order ← stackOrder record
  let removed ← removedCards record
  let shown ← shownAmong record removed
  let restored := shown.filter fun card => !order.contains card
  return withLists record (restored ++ order) (removed.filter fun card => !shown.contains card)

variable {change : Record → Except CorruptField Record}

namespace Edit

variable {α : Type} {edit : Edit Unit}

/-- A reader writes nothing, so to read before what is all or nothing is all or nothing. -/
theorem transform_look {reader : Record → Except CorruptField α} {next : α → Edit Unit}
    {changes : α → Record → Except CorruptField Record}
    (whole : ∀ found, (next found).transform = atomic (changes found)) :
    (look reader >>= next).transform =
      atomic fun record => reader record >>= fun found => changes found record := by
  funext record
  have ran : (look reader >>= next).run.run record =
      StateT.run (ExceptT.bindCont next (reader record)) record := rfl
  rw [transform, ran, atomic]
  cases reader record with
  | error fault => rfl
  | ok found => exact congrFun (whole found) record

/-- A write cannot fail, so it may come after what is all or nothing. -/
theorem transform_modify (whole : edit.transform = atomic change) (write : Record → Record) :
    (edit >>= fun _ => modify write).transform =
      atomic fun record => write <$> change record := by
  funext record
  have before := congrFun whole record
  have split : (edit >>= fun _ => modify write).run.run record =
      (edit.run.run record >>= fun ended =>
        StateT.run (ExceptT.bindCont (fun _ => modify write) ended.1) ended.2) := rfl
  rw [transform, atomic] at before
  rw [transform, split, atomic]
  generalize edit.run.run record = ended at before ⊢
  generalize change record = result at before ⊢
  rcases ended with ⟨fault | _, after⟩ <;> cases result <;> cases before <;> rfl

theorem transform_storeLists (order removed : List Widget) :
    (storeLists order removed).transform = atomic fun record => .ok (withLists record order removed) :=
  rfl

theorem transform_arrange (front : Option Widget) :
    (arrange front).transform = atomic fun record => Migration.arrange record front := by
  have placed : ∀ behind, transform (modify fun record =>
        record.insert Field.stackOrder.key (widgetList (behind ++ front.toList))) =
      atomic fun record =>
        .ok (record.insert Field.stackOrder.key (widgetList (behind ++ front.toList))) :=
    fun _ => rfl
  funext record
  have ran : (arrange front).transform record =
      transform (if hasStackOrder record then pure () else
        (look fun record => shownAmong record (Widget.all.filter fun card => some card ≠ front)) >>=
          fun behind => modify fun record =>
            record.insert Field.stackOrder.key (widgetList (behind ++ front.toList))) record := rfl
  rw [ran, atomic, Migration.arrange]
  cases hasStackOrder record with
  | true => rfl
  | false => exact congrFun (transform_look placed) record

end Edit

theorem transform_buildStackOrder : Edit.buildStackOrder.transform = atomic buildStackOrder :=
  Edit.transform_look fun front =>
    Edit.transform_modify (Edit.transform_arrange front) fun record => record.erase legacyFrontKey

theorem transform_introduceRemoved : Edit.introduceRemoved.transform = atomic introduceRemoved :=
  Edit.transform_look fun order => Edit.transform_look fun removed =>
    Edit.transform_storeLists order removed

theorem transform_addNewCards : Edit.addNewCards.transform = atomic addNewCards :=
  Edit.transform_look fun _ => Edit.transform_look fun removed =>
    Edit.transform_storeLists _ removed

theorem transform_replaceCards : Edit.replaceCards.transform = atomic replaceCards :=
  Edit.transform_look fun _ => Edit.transform_look fun _ => Edit.transform_look fun _ =>
    Edit.transform_storeLists _ _

theorem Step.apply_atomic {step : Step} (whole : step.transform = atomic change) :
    step.apply = change := by
  funext record
  rw [Step.apply, whole, atomic]
  cases change record <;> rfl

structure Step.Is (step : Step) (version : Version) (looks : Record → Bool)
    (change : Record → Except CorruptField Record) : Prop where
  version : step.version = version
  knows : step.knows = looks
  transform : step.transform = atomic change

theorem Step.Is.apply {step : Step} {version : Version} {looks : Record → Bool}
    (same : step.Is version looks change) : step.apply = change :=
  Step.apply_atomic same.transform

theorem step_cases {step : Step} (member : step ∈ widgetStackSteps) :
    step.Is 2 hasStackOrder buildStackOrder ∨ step.Is 3 hasRemoved introduceRemoved ∨
    step.Is 4 everyCardPlaced addNewCards ∨ step.Is 5 noShownCardRemoved replaceCards := by
  simp only [widgetStackSteps, List.mem_cons, List.not_mem_nil, or_false] at member
  rcases member with rfl | rfl | rfl | rfl
  · exact .inl ⟨rfl, rfl, transform_buildStackOrder⟩
  · exact .inr (.inl ⟨rfl, rfl, transform_introduceRemoved⟩)
  · exact .inr (.inr (.inl ⟨rfl, rfl, transform_addNewCards⟩))
  · exact .inr (.inr (.inr ⟨rfl, rfl, transform_replaceCards⟩))

end StartPage.Migration
