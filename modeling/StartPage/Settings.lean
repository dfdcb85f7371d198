import StartPage.Error
import StartPage.Record
import StartPage.Widget

/-!
The preferences that outlive a session, and how they stand in a record: sixteen fields, each
under its own key. Reading goes through the fields in wire order, so of several corrupt
fields the first in that order is reported; an absent field keeps its default, and keys of no
field are passed over.
-/
namespace StartPage

inductive ClockFormat where
  | locale
  | twelveHour
  | twentyFourHour
deriving DecidableEq, Repr, Inhabited

namespace ClockFormat

def text : ClockFormat → String
  | locale => ""
  | twelveHour => "12"
  | twentyFourHour => "24"

def all : List ClockFormat := [locale, twelveHour, twentyFourHour]

def parse? (text : String) : Option ClockFormat := all.find? fun format => format.text == text

end ClockFormat

inductive Flag where
  | backgroundImage
  | stats
  | clock
  | topSites
  | customLinks
  | wallpaperDismissed
  | emptyPage
  | widget (widget : Widget)
deriving DecidableEq, Repr, Inhabited

namespace Flag

def key : Flag → String
  | backgroundImage => "showBackgroundImage"
  | stats => "showStats"
  | clock => "showClock"
  | topSites => "showTopSites"
  | customLinks => "customLinksEnabled"
  | wallpaperDismissed => "isBrandedWallpaperNotificationDismissed"
  | emptyPage => "showEmptyPage"
  | widget card => card.showKey

def all : List Flag :=
  [backgroundImage, stats, clock, topSites, customLinks, wallpaperDismissed, emptyPage] ++
    Widget.all.map widget

@[simp] theorem mem_all (flag : Flag) : flag ∈ all := by
  cases flag <;> simp [all]

end Flag

inductive Field where
  | flag (flag : Flag)
  | clockFormat
  | stackOrder
  | removed
deriving DecidableEq, Repr, Inhabited

namespace Field

def key : Field → String
  | flag f => f.key
  | clockFormat => "clockFormat"
  | stackOrder => "widgetStackOrder"
  | removed => "removedStackWidgets"

def all : List Field :=
  [flag .backgroundImage, flag .stats, flag .clock, clockFormat, flag .topSites,
    flag .customLinks, flag .wallpaperDismissed, flag .emptyPage] ++
    Widget.all.map (fun card => flag (.widget card)) ++ [stackOrder, removed]

def ofKey? (key : String) : Option Field := all.find? fun field => field.key == key

@[simp] theorem mem_all (field : Field) : field ∈ all := by
  cases field with
  | flag f => cases f <;> simp [all]
  | _ => decide

end Field

/-- Key of the shape version that every stored record is stamped with. -/
def versionKey : String := "schemaVersion"

structure Settings where
  flag : Flag → Bool
  clockFormat : ClockFormat
  /-- Back of the stack first; the last card is in front. -/
  stackOrder : List Widget
  removed : List Widget

instance : DecidableEq Settings := fun a b =>
  decidable_of_iff
    ((∀ f ∈ Flag.all, a.flag f = b.flag f) ∧ a.clockFormat = b.clockFormat ∧
      a.stackOrder = b.stackOrder ∧ a.removed = b.removed) <| by
    obtain ⟨flagA, clockA, orderA, removedA⟩ := a
    obtain ⟨flagB, clockB, orderB, removedB⟩ := b
    simp only [Flag.mem_all, forall_const, Settings.mk.injEq, and_congr_left_iff]
    intro _
    exact ⟨funext, congrFun⟩

namespace Settings

def default : Settings where
  flag := fun f => f == .wallpaperDismissed
  clockFormat := .locale
  stackOrder := Widget.all
  removed := []

instance : Inhabited Settings := ⟨default⟩

def isShown (settings : Settings) (card : Widget) : Bool := settings.flag (.widget card)

/-- The card on top of the stack: the last that is shown and not removed. -/
def foreground (settings : Settings) : Option Widget :=
  settings.stackOrder.reverse.find? fun card =>
    settings.isShown card && !settings.removed.contains card

def setFlag (settings : Settings) (flag : Flag) (value : Bool) : Settings :=
  { settings with flag := fun other => if other = flag then value else settings.flag other }

end Settings

def widgetList (cards : List Widget) : Value := .list (cards.map fun card => .string card.name)

namespace Record

def flag? (record : Record) (key : String) : Except CorruptField (Option Bool) :=
  match record.present? key with
  | none => .ok none
  | some (.boolean value) => .ok (some value)
  | some other => .error ⟨key, "a boolean", other.kind⟩

def clockFormat? (record : Record) : Except CorruptField (Option ClockFormat) :=
  match record.present? Field.clockFormat.key with
  | none => .ok none
  | some value =>
    match value.text?.bind ClockFormat.parse? with
    | some format => .ok (some format)
    | none => .error ⟨Field.clockFormat.key, "one of \"\", \"12\", \"24\"", value.kind⟩

def widgetListFault (key : String) (found : Value) : CorruptField :=
  ⟨key, "a list of widget names", found.kind⟩

/-- A list of card names; unknown names and repeats are dropped. -/
def widgets? (record : Record) (key : String) : Except CorruptField (Option (List Widget)) :=
  match record.present? key with
  | none => .ok none
  | some (.list items) =>
    match items.find? fun item => item.text?.isNone with
    | some wrong => .error (widgetListFault key wrong)
    | none => .ok (some ((items.filterMap Value.text?).filterMap Widget.ofName?).eraseDups)
  | some other => .error (widgetListFault key other)

end Record

namespace Settings

def readField (record : Record) (settings : Settings) : Field → Except CorruptField Settings
  | .flag flag => do return ((← record.flag? flag.key).map (settings.setFlag flag)).getD settings
  | .clockFormat => do
    return { settings with clockFormat := (← record.clockFormat?).getD settings.clockFormat }
  | .stackOrder => do
    return { settings with
      stackOrder := (← record.widgets? Field.stackOrder.key).getD settings.stackOrder }
  | .removed => do
    return { settings with removed := (← record.widgets? Field.removed.key).getD settings.removed }

def ofRecord (record : Record) : Except CorruptField Settings :=
  Field.all.foldlM (readField record) default

def value (settings : Settings) : Field → Value
  | .flag flag => .boolean (settings.flag flag)
  | .clockFormat => .string settings.clockFormat.text
  | .stackOrder => widgetList settings.stackOrder
  | .removed => widgetList settings.removed

def entries (settings : Settings) : List (String × Value) :=
  Field.all.map fun field => (field.key, settings.value field)

def fields (settings : Settings) : Record := Record.ofList settings.entries

def toRecord (settings : Settings) (version : Version) : Record :=
  settings.fields.insert versionKey (.ofNat version.toNat)

end Settings
end StartPage
