import StartPage.Config
import StartPage.Listeners.Announcement
import StartPage.Migration.WidgetStack
import StartPage.Session
import StartPage.Settings.Patch
import StartPage.Store.Writer

/-!
The settings store: one current copy of the settings. Until it has been loaded it holds the
defaults and queues updates; once ready it applies each at once, hands the result to the
writer and announces it. Loading never fails: whatever is wrong with the stored bytes, the
defaults take their place, and the bytes stay as they are until something is written.
-/
namespace StartPage

open Migration (Chain)

inductive Phase where
  | uninitialized
  | loading
  | ready
deriving DecidableEq, Repr, Inhabited

def Phase.name : Phase → String
  | .uninitialized => "Uninitialized"
  | .loading => "Loading"
  | .ready => "Ready"

structure Tally where
  scheduled : Nat := 0
  completed : Nat := 0
  failed : Nat := 0
deriving DecidableEq, Repr, Inhabited

structure Store where
  config : Config
  chain : Chain
  codec : Codec
  phase : Phase := .uninitialized
  settings : Settings := .default
  session : Session
  /-- Updates from before the store was ready, in the order of the calls. -/
  queued : List Patch := []
  writer : Option Writer := none

namespace Store

def new (config : Config) (chain : Chain) (host : Host) : Except ConfigError Store := do
  let config ← config.validate
  return { config, chain, codec := config.format.codec, session := .ofHost host }

def withCodec (store : Store) (codec : Codec) : Store := { store with codec }

def encode (store : Store) (settings : Settings) : Option Bytes :=
  store.codec.encode (store.chain.stamp settings)

def snapshot (store : Store) : Snapshot := ⟨store.settings, store.session⟩

def provisional (store : Store) : Settings := store.settings.applyAll store.queued

/-- What an update that changes nothing answers. -/
def view (store : Store) : Settings :=
  if store.phase = .ready then store.settings else store.provisional

def tally (store : Store) : Tally :=
  match store.writer with
  | some writer => ⟨writer.scheduled, writer.completed, writer.failed⟩
  | none => {}

def schedule (store : Store) : Store :=
  { store with writer := store.writer.map fun writer => writer.schedule store.settings }

/-- An empty patch changes nothing. Before the store is ready a patch is queued and nothing is
announced. -/
def update (store : Store) (patch : Patch) : Store × Option Snapshot × Settings :=
  if patch.isEmpty then (store, none, store.view)
  else if store.phase = .ready then
    let store := { store with settings := store.settings.apply patch }.schedule
    (store, some store.snapshot, store.settings)
  else
    let store := { store with queued := store.queued ++ [patch] }
    (store, none, store.provisional)

def commit : Commit Store (Except Error Patch) Snapshot (Except Error Settings)
  | store, .ok patch =>
    let (store, snapshot?, settings) := store.update patch
    (store, snapshot?, .ok settings)
  | store, .error fault => (store, none, .error fault)

def readBack (store : Store) (stored : Except StorageError (Option Bytes)) : Settings × Bool :=
  match stored with
  | .ok (some bytes) =>
    match store.codec.decode bytes with
    | .ok record =>
      match store.chain.run record with
      | .ok outcome => (outcome.settings, outcome.migrated)
      | .error _ => (.default, false)
    | .error _ => (.default, false)
  | _ => (.default, false)

def freshWriter (store : Store) : Writer :=
  { key := store.config.key, window := store.config.window, encode := store.encode }

/-- The store made ready: queued updates come on top of what was loaded, and what differs from
the stored bytes is scheduled. -/
def becomeReady (store : Store) (loaded : Settings) (migrated : Bool) : Store :=
  let ready :=
    { store with
      settings := loaded.applyAll store.queued
      session := { store.session with loaded := true }
      phase := .ready
      queued := []
      writer := some store.freshWriter }
  if migrated || !store.queued.isEmpty then ready.schedule else ready

end Store

abbrev LiveStore := Audience Store (Except Error Patch) Snapshot (Except Error Settings)

namespace LiveStore

def announce (live : LiveStore) (snapshot : Snapshot) : LiveStore :=
  Audience.announce Store.commit live snapshot

/-- The answer is the state right after the patch, whatever listeners do later. -/
def update (live : LiveStore) (patch : Patch) : LiveStore × Settings :=
  let (store, snapshot?, settings) := live.host.update patch
  let live := { live with host := store }
  match snapshot? with
  | some snapshot => (LiveStore.announce live snapshot, settings)
  | none => (live, settings)

def becomeReady (live : LiveStore) (stored : Except StorageError (Option Bytes)) :
    LiveStore × Settings :=
  let (loaded, migrated) := live.host.readBack stored
  let store := live.host.becomeReady loaded migrated
  (LiveStore.announce { live with host := store } store.snapshot, store.settings)

end LiveStore
end StartPage
