import StartPage.Store
import StartPage.Store.Loads

/-!
A store that works on a place: with its listeners, the loads in progress on it, and its writer.

The load at the gate reads the place, which takes as long as the place needs, and makes the
store ready; a load that passes the gate afterwards finds the store ready and reads nothing.

A store that was let go of lives on as long as one of its loads. When the last has ended, its
writer is closed: what is pending is then written without waiting.
-/
namespace StartPage

structure Tenant where
  live : LiveStore
  loads : Loads := {}
  /-- Nothing but its own loads holds the store any more. -/
  released : Bool := false

namespace Tenant

variable {Place : Type} [Backend Place]

def store (tenant : Tenant) : Store := tenant.live.host

def withStore (tenant : Tenant) (store : Store) : Tenant :=
  { tenant with live := { tenant.live with host := store } }

def withWriter (tenant : Tenant) (writer : Writer) : Tenant :=
  tenant.withStore { tenant.store with writer := some writer }

/-- Those who listen are still told what the loads in progress bring about. -/
def release (tenant : Tenant) : Tenant := { tenant with released := true }

def closable? (tenant : Tenant) : Option Writer :=
  if tenant.released && tenant.loads.isQuiet then
    tenant.store.writer.filter fun writer => !writer.closed
  else none

def stepWriter? (tenant : Tenant) (now delay : Nat) (place : Place) : Option (Tenant × Place) :=
  match tenant.store.writer with
  | none => none
  | some writer =>
    (writer.step? now delay place).map fun (writer, place) => (tenant.withWriter writer, place)

def stepLoad? (tenant : Tenant) (now delay : Nat) (place : Place) : Option Tenant :=
  match tenant.loads.reading, tenant.loads.waiting with
  | some (ticket, ends), _ =>
    if ends ≤ now then
      -- The place is looked at when the read ends, not when it began.
      let (live, settings) := tenant.live.becomeReady (Backend.read place tenant.store.config.key)
      some { tenant with
        live
        loads := { tenant.loads with
          reading := none
          fates := (ticket, .loaded settings) :: tenant.loads.fates
          reads := (ticket, .used) :: tenant.loads.reads } }
    else none
  | none, ticket :: rest =>
    if tenant.store.phase = .ready then
      some { tenant with
        loads := { tenant.loads with
          waiting := rest
          fates := (ticket, .loaded tenant.store.settings) :: tenant.loads.fates } }
    else
      some { tenant.withStore { tenant.store with phase := .loading } with
        loads := { tenant.loads with waiting := rest, reading := some (ticket, now + delay) } }
  | none, [] => none

def step? (tenant : Tenant) (now readDelay writeDelay : Nat) (place : Place) :
    Option (Tenant × Place) :=
  match tenant.closable? with
  | some writer => some (tenant.withWriter writer.close, place)
  | none =>
    (tenant.stepWriter? now writeDelay place).or
      ((tenant.stepLoad? now readDelay place).map fun tenant => (tenant, place))

def due (tenant : Tenant) : List Nat :=
  (tenant.store.writer.bind Writer.due?).toList ++ (tenant.loads.reading.map (·.2)).toList

def writerWork (tenant : Tenant) : Nat :=
  match tenant.store.writer with
  | none => 0
  | some writer => writer.work + if writer.closed then 0 else 1

theorem writerWork_of_writer {tenant : Tenant} {writer : Writer}
    (present : tenant.store.writer = some writer) :
    tenant.writerWork = writer.work + if writer.closed then 0 else 1 := by
  simp [writerWork, present]

theorem store_withWriter (tenant : Tenant) (writer : Writer) :
    (tenant.withWriter writer).store.writer = some writer := rfl

theorem closable?_writer {tenant : Tenant} {writer : Writer}
    (found : tenant.closable? = some writer) :
    tenant.store.writer = some writer ∧ writer.closed = false := by
  unfold closable? at found
  split at found
  · simpa [Option.filter_eq_some_iff] using found
  · contradiction

theorem stepLoad?_work {tenant after : Tenant} {now delay : Nat} {place : Place}
    (stepped : tenant.stepLoad? now delay place = some after) :
    after.loads.work < tenant.loads.work := by
  unfold stepLoad? at stepped
  split at stepped
  · rename_i reading
    obtain ⟨_, same⟩ := Option.ite_none_right_eq_some.mp stepped
    cases same
    simp [Loads.work, reading]
  · rename_i reading waiting
    split at stepped <;> cases stepped <;> simp [Loads.work, reading, waiting]
    omega
  · contradiction

/-- A load may schedule any number of writes, so the work of loads counts first. -/
theorem step?_work {tenant after : Tenant} {now readDelay writeDelay : Nat} {place left : Place}
    (stepped : tenant.step? now readDelay writeDelay place = some (after, left)) :
    after.loads.work < tenant.loads.work ∨
      after.loads.work = tenant.loads.work ∧ after.writerWork < tenant.writerWork := by
  unfold step? at stepped
  split at stepped
  · rename_i writer found
    cases stepped
    obtain ⟨present, opened⟩ := closable?_writer found
    refine .inr ⟨rfl, ?_⟩
    rw [writerWork_of_writer (store_withWriter ..), writerWork_of_writer present, opened]
    exact Nat.lt_succ_self _
  · rcases Option.or_eq_some_iff.mp stepped with stepped | ⟨_, stepped⟩
    · unfold stepWriter? at stepped
      split at stepped
      · contradiction
      · rename_i writer present
        obtain ⟨⟨writer, place⟩, found, same⟩ := Option.map_eq_some_iff.mp stepped
        cases same
        have less := Writer.step?_work found
        have closed := Writer.step?_closed found
        refine .inr ⟨rfl, ?_⟩
        rw [writerWork_of_writer (store_withWriter ..), writerWork_of_writer present, closed]
        omega
    · obtain ⟨found, advanced, same⟩ := Option.map_eq_some_iff.mp stepped
      cases same
      exact .inl (stepLoad?_work advanced)

end Tenant
end StartPage
