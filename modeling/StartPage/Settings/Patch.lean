import StartPage.Settings

/-!
Partial updates of the settings. A field that a patch does not set keeps its value. A patch
read from a record is stricter than settings are: a key of no field is refused, whatever it
holds.
-/
namespace StartPage

structure Patch where
  flag : Flag → Option Bool := fun _ => none
  clockFormat : Option ClockFormat := none
  stackOrder : Option (List Widget) := none
  removed : Option (List Widget) := none

namespace Patch

def empty : Patch := {}

instance : EmptyCollection Patch := ⟨empty⟩
instance : Inhabited Patch := ⟨empty⟩

def setFlag (patch : Patch) (flag : Flag) (value : Bool) : Patch :=
  { patch with flag := fun other => if other = flag then some value else patch.flag other }

def showWidget (patch : Patch) (card : Widget) (value : Bool) : Patch :=
  patch.setFlag (.widget card) value

def setClockFormat (patch : Patch) (format : ClockFormat) : Patch :=
  { patch with clockFormat := some format }

def setStackOrder (patch : Patch) (order : List Widget) : Patch :=
  { patch with stackOrder := some order }

def setRemoved (patch : Patch) (removed : List Widget) : Patch :=
  { patch with removed := some removed }

def isEmpty (patch : Patch) : Bool :=
  (Flag.all.all fun flag => (patch.flag flag).isNone) && patch.clockFormat.isNone &&
    patch.stackOrder.isNone && patch.removed.isNone

/-- The value that the patch gives a field, as it stands in a record. -/
def value? (patch : Patch) : Field → Option Value
  | .flag flag => (patch.flag flag).map .boolean
  | .clockFormat => patch.clockFormat.map fun format => .string format.text
  | .stackOrder => patch.stackOrder.map widgetList
  | .removed => patch.removed.map widgetList

def readField (record : Record) (patch : Patch) : Field → Except CorruptField Patch
  | .flag flag => do return ((← record.flag? flag.key).map (patch.setFlag flag)).getD patch
  | .clockFormat => do return { patch with clockFormat := ← record.clockFormat? }
  | .stackOrder => do return { patch with stackOrder := ← record.widgets? Field.stackOrder.key }
  | .removed => do return { patch with removed := ← record.widgets? Field.removed.key }

def ofRecord (record : Record) : Except Error Patch :=
  match record.keys.find? fun key => (Field.ofKey? key).isNone with
  | some key => .error (.unknownField key)
  | none =>
    match Field.all.foldlM (readField record) empty with
    | .ok patch => .ok patch
    | .error fault => .error (.corrupt fault)

end Patch

namespace Settings

def apply (settings : Settings) (patch : Patch) : Settings where
  flag := fun flag => (patch.flag flag).getD (settings.flag flag)
  clockFormat := patch.clockFormat.getD settings.clockFormat
  stackOrder := patch.stackOrder.getD settings.stackOrder
  removed := patch.removed.getD settings.removed

def applyAll (settings : Settings) (patches : List Patch) : Settings := patches.foldl apply settings

end Settings
end StartPage
