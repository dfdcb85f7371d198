import StartPage.Value

/-!
Records: mappings from names to values, as they are stored. `insert` keeps the keys
ascending, which is the order of their UTF-8 bytes; the equations for `get?` hold of any
record, ascending or not. A null counts as absent wherever a field is read, so fields are
read through `present?`.
-/
namespace StartPage

structure Record where
  entries : List (String × Value)
deriving DecidableEq, Inhabited

namespace Record

def empty : Record := ⟨[]⟩

instance : EmptyCollection Record := ⟨empty⟩

def keys (record : Record) : List String := record.entries.map (·.1)

def get? (record : Record) (key : String) : Option Value := record.entries.lookup key

def contains (record : Record) (key : String) : Bool := (record.get? key).isSome

def place (key : String) (value : Value) : List (String × Value) → List (String × Value)
  | [] => [(key, value)]
  | entry :: rest =>
    if key = entry.1 then (key, value) :: rest
    else if key < entry.1 then (key, value) :: entry :: rest
    else entry :: place key value rest

def insert (record : Record) (key : String) (value : Value) : Record :=
  ⟨place key value record.entries⟩

def erase (record : Record) (key : String) : Record :=
  ⟨record.entries.filter fun entry => entry.1 != key⟩

/-- Later entries win over earlier ones of the same key. -/
def ofList (entries : List (String × Value)) : Record :=
  entries.foldl (fun record entry => record.insert entry.1 entry.2) {}

/-- The value under a key, a null counting as absent. -/
def present? (record : Record) (key : String) : Option Value :=
  (record.get? key).filter fun value => !value.isNull

def toValue (record : Record) : Value := .mapping record.entries

def depth (record : Record) : Nat := record.toValue.depth

def Ascending (record : Record) : Prop := record.toValue.Ascending

def WholeNumbers (record : Record) : Prop := record.toValue.WholeNumbers

theorem lookup_place (key other : String) (value : Value) (entries : List (String × Value)) :
    (place key value entries).lookup other =
      if other = key then some value else entries.lookup other := by
  induction entries with
  | nil => simp [place, List.lookup_cons]; grind
  | cons entry rest ih => grind [place]

@[simp] theorem get?_insert (record : Record) (key other : String) (value : Value) :
    (record.insert key value).get? other = if other = key then some value else record.get? other :=
  lookup_place key other value record.entries

@[simp] theorem get?_erase (record : Record) (key other : String) :
    (record.erase key).get? other = if other = key then none else record.get? other := by
  obtain ⟨entries⟩ := record
  simp only [erase, get?]
  induction entries with
  | nil => simp
  | cons entry rest ih => grind

theorem present?_insert (record : Record) (key other : String) (value : Value) :
    (record.insert key value).present? other =
      if other = key then (if value.isNull then none else some value) else record.present? other := by
  by_cases same : other = key
  · by_cases null : value.isNull = true <;> simp [present?, same, null, Option.filter]
  · simp [present?, same]

theorem present?_erase (record : Record) (key other : String) :
    (record.erase key).present? other = if other = key then none else record.present? other := by
  by_cases same : other = key <;> simp [present?, same]

end Record
end StartPage
