import StartPage.Value

/-!
Everything that can go wrong, as causes; `message` puts a cause into words. Details that a
byte format or an operating system would add are not kept.
-/
namespace StartPage

inductive Format where
  | json
  | messagePack
deriving DecidableEq, Repr, Inhabited

def Format.name : Format → String
  | .json => "json"
  | .messagePack => "msgpack"

abbrev Version := UInt32

inductive DecodeError where
  | empty
  | malformed (format : Format)
  | notMapping (found : Kind)
deriving DecidableEq, Repr

def DecodeError.message : DecodeError → String
  | .empty => "persisted settings are empty"
  | .malformed .json => "persisted settings are malformed:"
  | .malformed .messagePack => "persisted settings are malformed: Failed to deserialize settings:"
  | .notMapping found => "persisted settings are a " ++ found.name ++ ", expected a mapping"

structure CorruptField where
  field : String
  expected : String
  found : Kind
deriving DecidableEq, Repr

def CorruptField.message (fault : CorruptField) : String :=
  "field '" ++ fault.field ++ "' expects " ++ fault.expected ++ ", found " ++ fault.found.name

inductive StorageError where
  | readRejected (key : String)
  | writeRejected (key : String)
  | unreadable (path : String)
  | unwritable (path : String)
deriving DecidableEq, Repr

def StorageError.isRead : StorageError → Bool
  | .readRejected _ | .unreadable _ => true
  | .writeRejected _ | .unwritable _ => false

def StorageError.message : StorageError → String
  | .readRejected key => "Backend read failed: read of '" ++ key ++ "' rejected"
  | .writeRejected key => "Backend write failed: write of '" ++ key ++ "' rejected"
  | .unreadable path => "Backend read failed: Failed to read '" ++ path ++ "'"
  | .unwritable path => "Backend write failed: Failed to write '" ++ path ++ "'"

/-- A step that does not lead beyond the versions already in its chain. -/
structure OrderError where
  name : String
  version : Version
  floor : Version
deriving DecidableEq, Repr

def OrderError.message (fault : OrderError) : String :=
  "Invalid migration chain: step '" ++ fault.name ++ "' targets version " ++
    toString fault.version.toNat ++ " which does not exceed " ++ toString fault.floor.toNat

inductive ConfigError where
  | unknownFormat (name : String)
  | windowNotNumber (source text : String)
  | emptyKey
  | zeroWindow
deriving DecidableEq, Repr

def ConfigError.message (fault : ConfigError) : String :=
  "Invalid configuration: " ++
    match fault with
    | .unknownFormat name => "unknown codec '" ++ name ++ "'"
    | .windowNotNumber source text =>
      source ++ " must be a whole number of milliseconds, got '" ++ text ++ "'"
    | .emptyKey => "storage_key cannot be empty"
    | .zeroWindow => "debounce window must be > 0"

inductive Error where
  | decode (fault : DecodeError)
  | corrupt (fault : CorruptField)
  | encode
  | storage (fault : StorageError)
  | order (fault : OrderError)
  | config (fault : ConfigError)
  | unknownField (name : String)
  | writerStopped
deriving DecidableEq, Repr

def Error.message : Error → String
  | .decode fault => fault.message
  | .corrupt fault => fault.message
  | .encode => "Encode error"
  | .storage fault => fault.message
  | .order fault => fault.message
  | .config fault => fault.message
  | .unknownField name => "Unknown field '" ++ name ++ "'"
  | .writerStopped => "Persistence writer stopped"

end StartPage
