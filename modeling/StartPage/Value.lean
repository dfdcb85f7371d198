import StartPage.Decimal.Binary64

/-!
Dynamic values of a stored record: what a record may hold before it is typed. A mapping
is a list of entries; the order of entries carries no meaning in a stored record, whose
mappings are `Ascending`, and is kept as given in a document that is only written.
-/
namespace StartPage

/-- Whole numbers keep their exact value; every other number is a finite double. -/
inductive Number where
  | integer (value : Int)
  | double (value : Binary64)
deriving DecidableEq, Inhabited

inductive Value where
  | null
  | boolean (value : Bool)
  | number (value : Number)
  | string (text : String)
  | list (items : List Value)
  | mapping (entries : List (String × Value))
deriving Inhabited

inductive Kind where
  | null | boolean | number | string | list | mapping
deriving DecidableEq, Repr, Inhabited

def Kind.name : Kind → String
  | .null => "null"
  | .boolean => "boolean"
  | .number => "number"
  | .string => "string"
  | .list => "list"
  | .mapping => "mapping"

namespace Value

def kind : Value → Kind
  | .null => .null
  | .boolean _ => .boolean
  | .number _ => .number
  | .string _ => .string
  | .list _ => .list
  | .mapping _ => .mapping

def isNull (value : Value) : Bool := value.kind == .null

def text? : Value → Option String
  | .string text => some text
  | _ => none

def natural? : Value → Option Nat
  | .number (.integer value) => if 0 ≤ value then some value.toNat else none
  | _ => none

def ofNat (n : Nat) : Value := .number (.integer n)

mutual
/-- How many containers are nested in one another, this one counted. -/
def depth : Value → Nat
  | .list items => depthOfItems items + 1
  | .mapping entries => depthOfEntries entries + 1
  | _ => 0
def depthOfItems : List Value → Nat
  | [] => 0
  | item :: rest => max item.depth (depthOfItems rest)
def depthOfEntries : List (String × Value) → Nat
  | [] => 0
  | (_, item) :: rest => max item.depth (depthOfEntries rest)
end

def KeysAscend (entries : List (String × Value)) : Prop :=
  (entries.map (·.1)).Pairwise (· < ·)

mutual
def Ascending : Value → Prop
  | .list items => ItemsAscending items
  | .mapping entries => KeysAscend entries ∧ EntriesAscending entries
  | _ => True
def ItemsAscending : List Value → Prop
  | [] => True
  | item :: rest => item.Ascending ∧ ItemsAscending rest
def EntriesAscending : List (String × Value) → Prop
  | [] => True
  | (_, item) :: rest => item.Ascending ∧ EntriesAscending rest
end

mutual
/-- Every number inside is a whole number of 64 bits, signed or unsigned. -/
def WholeNumbers : Value → Prop
  | .number (.integer value) => -0x8000000000000000 ≤ value ∧ value < 0x10000000000000000
  | .number (.double _) => False
  | .list items => ItemsWhole items
  | .mapping entries => EntriesWhole entries
  | _ => True
def ItemsWhole : List Value → Prop
  | [] => True
  | item :: rest => item.WholeNumbers ∧ ItemsWhole rest
def EntriesWhole : List (String × Value) → Prop
  | [] => True
  | (_, item) :: rest => item.WholeNumbers ∧ EntriesWhole rest
end

mutual
def same : (a b : Value) → Decidable (a = b)
  | .null, .null => isTrue rfl
  | .boolean a, .boolean b => decidable_of_iff (a = b) (by simp)
  | .number a, .number b => decidable_of_iff (a = b) (by simp)
  | .string a, .string b => decidable_of_iff (a = b) (by simp)
  | .list a, .list b =>
    match sameItems a b with
    | isTrue h => isTrue (by rw [h])
    | isFalse h => isFalse (by simp [h])
  | .mapping a, .mapping b =>
    match sameEntries a b with
    | isTrue h => isTrue (by rw [h])
    | isFalse h => isFalse (by simp [h])
  | .null, .boolean _ | .null, .number _ | .null, .string _ | .null, .list _ | .null, .mapping _
  | .boolean _, .null | .boolean _, .number _ | .boolean _, .string _ | .boolean _, .list _
  | .boolean _, .mapping _ | .number _, .null | .number _, .boolean _ | .number _, .string _
  | .number _, .list _ | .number _, .mapping _ | .string _, .null | .string _, .boolean _
  | .string _, .number _ | .string _, .list _ | .string _, .mapping _ | .list _, .null
  | .list _, .boolean _ | .list _, .number _ | .list _, .string _ | .list _, .mapping _
  | .mapping _, .null | .mapping _, .boolean _ | .mapping _, .number _ | .mapping _, .string _
  | .mapping _, .list _ => isFalse (by simp)
def sameItems : (a b : List Value) → Decidable (a = b)
  | [], [] => isTrue rfl
  | [], _ :: _ => isFalse (by simp)
  | _ :: _, [] => isFalse (by simp)
  | a :: as, b :: bs =>
    match same a b, sameItems as bs with
    | isTrue h, isTrue t => isTrue (by rw [h, t])
    | isFalse h, _ => isFalse (by simp [h])
    | _, isFalse t => isFalse (by simp [t])
def sameEntries : (a b : List (String × Value)) → Decidable (a = b)
  | [], [] => isTrue rfl
  | [], _ :: _ => isFalse (by simp)
  | _ :: _, [] => isFalse (by simp)
  | (k, a) :: as, (l, b) :: bs =>
    if key : k = l then
      match same a b, sameEntries as bs with
      | isTrue h, isTrue t => isTrue (by rw [key, h, t])
      | isFalse h, _ => isFalse (by simp [h])
      | _, isFalse t => isFalse (by simp [t])
    else isFalse (by simp [key])
end

instance : DecidableEq Value := same

end Value
end StartPage
