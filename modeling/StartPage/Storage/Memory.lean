import StartPage.Storage.Backend

/-!
Bytes kept in memory. Reads and writes can be told to fail, and successful writes are
counted. A failed write changes nothing.
-/
namespace StartPage

structure Memory where
  entries : List (String × Bytes) := []
  writes : Nat := 0
  failReads : Bool := false
  failWrites : Bool := false
deriving DecidableEq, Repr, Inhabited

namespace Memory

def get? (memory : Memory) (key : String) : Option Bytes := memory.entries.lookup key

def put (memory : Memory) (key : String) (bytes : Bytes) : Memory :=
  { memory with entries := (key, bytes) :: memory.entries.filter fun entry => entry.1 != key }

def read (memory : Memory) (key : String) : Except StorageError (Option Bytes) :=
  if memory.failReads then .error (.readRejected key) else .ok (memory.get? key)

def write (memory : Memory) (key : String) (bytes : Bytes) : Memory × Except StorageError Unit :=
  if memory.failWrites then (memory, .error (.writeRejected key))
  else ({ memory.put key bytes with writes := memory.writes + 1 }, .ok ())

instance : Backend Memory := ⟨read, write⟩

@[simp] theorem get?_put (memory : Memory) (key other : String) (bytes : Bytes) :
    (memory.put key bytes).get? other = if other = key then some bytes else memory.get? other := by
  simp only [put, get?, List.lookup_cons]
  by_cases same : other = key
  · simp [same]
  · rw [beq_false_of_ne same, if_neg same]
    induction memory.entries with
    | nil => rfl
    | cons entry rest ih => grind

end Memory
end StartPage
