import StartPage.Store.Tenant

/-!
A place over time: the store that works on it, and those before it that are not done yet. The
clock is virtual; it moves only when nothing can be done at the present time, and then straight
to the next thing that is due.
-/
namespace StartPage

structure Timeline (Place : Type) where
  now : Nat := 0
  tenant : Tenant
  place : Place
  readDelay : Nat := 0
  writeDelay : Nat := 0
  /-- Stores that were let go of, the oldest first. -/
  leaving : List Tenant := []

namespace Timeline

variable {Place : Type} [Backend Place]

def start (store : Store) (place : Place) : Timeline Place :=
  { tenant := { live := { host := store } }, place }

def store (time : Timeline Place) : Store := time.tenant.store

def withTenant (time : Timeline Place) (change : Tenant → Tenant) : Timeline Place :=
  { time with tenant := change time.tenant }

def withStore (time : Timeline Place) (change : Store → Store) : Timeline Place :=
  time.withTenant fun tenant => tenant.withStore (change tenant.store)

def withHub (time : Timeline Place)
    (change : Hub (Except Error Patch) → Hub (Except Error Patch)) : Timeline Place :=
  time.withTenant fun tenant =>
    { tenant with live := { tenant.live with hub := change tenant.live.hub } }

def stepFirst? (now readDelay writeDelay : Nat) (place : Place) :
    List Tenant → Option (List Tenant × Place)
  | [] => none
  | tenant :: rest =>
    match tenant.step? now readDelay writeDelay place with
    | some (tenant, place) => some (tenant :: rest, place)
    | none =>
      (stepFirst? now readDelay writeDelay place rest).map fun (rest, place) =>
        (tenant :: rest, place)

def stepLeaving? (time : Timeline Place) : Option (Timeline Place) :=
  (stepFirst? time.now time.readDelay time.writeDelay time.place time.leaving).map
    fun (leaving, place) => { time with leaving, place }

def stepTenant? (time : Timeline Place) : Option (Timeline Place) :=
  (time.tenant.step? time.now time.readDelay time.writeDelay time.place).map
    fun (tenant, place) => { time with tenant, place }

/-- Something that can be done at the present time; of things due together those of stores that
were let go of come first. -/
def ready? (time : Timeline Place) : Option (Timeline Place) :=
  time.stepLeaving?.or time.stepTenant?

def due? (time : Timeline Place) : Option Nat :=
  (time.tenant.due ++ time.leaving.flatMap Tenant.due).min?

def next? (limit : Option Nat) (time : Timeline Place) : Option (Timeline Place) :=
  match time.ready? with
  | some after => some after
  | none =>
    match time.due? with
    | none => none
    | some due =>
      if limit.all fun last => due ≤ last then { time with now := max time.now due }.ready?
      else none

def total (measure : Tenant → Nat) : List Tenant → Nat
  | [] => 0
  | tenant :: rest => measure tenant + total measure rest

def work (time : Timeline Place) : Nat × Nat :=
  (total (·.loads.work) (time.tenant :: time.leaving),
    total Tenant.writerWork (time.tenant :: time.leaving))

theorem stepFirst?_work {now readDelay writeDelay : Nat} {place left : Place}
    {tenants after : List Tenant}
    (stepped : stepFirst? now readDelay writeDelay place tenants = some (after, left)) :
    total (·.loads.work) after < total (·.loads.work) tenants ∨
      total (·.loads.work) after = total (·.loads.work) tenants ∧
        total Tenant.writerWork after < total Tenant.writerWork tenants := by
  induction tenants generalizing after left with
  | nil => contradiction
  | cons tenant rest ih =>
    rw [stepFirst?] at stepped
    split at stepped
    · rename_i first
      cases stepped
      have := Tenant.step?_work first
      simp only [total]
      omega
    · obtain ⟨⟨others, place⟩, found, same⟩ := Option.map_eq_some_iff.mp stepped
      cases same
      have := ih found
      simp only [total]
      omega

theorem ready?_work {time after : Timeline Place} (stepped : time.ready? = some after) :
    Prod.Lex (· < ·) (· < ·) after.work time.work := by
  rw [Prod.lex_def]
  rcases Option.or_eq_some_iff.mp stepped with stepped | ⟨_, stepped⟩
  · obtain ⟨⟨leaving, place⟩, found, same⟩ := Option.map_eq_some_iff.mp stepped
    cases same
    have := stepFirst?_work found
    simp only [work, total]
    omega
  · obtain ⟨⟨tenant, place⟩, found, same⟩ := Option.map_eq_some_iff.mp stepped
    cases same
    have := Tenant.step?_work found
    simp only [work, total]
    omega

theorem next?_work {limit : Option Nat} {time after : Timeline Place}
    (stepped : time.next? limit = some after) :
    Prod.Lex (· < ·) (· < ·) after.work time.work := by
  unfold next? at stepped
  split at stepped
  · rename_i found
    cases stepped
    exact ready?_work found
  · split at stepped
    · contradiction
    · split at stepped
      · have less := ready?_work stepped
        exact less
      · contradiction

/-- Steps until the goal is met, or nothing is left to do up to the limit. -/
def run (goal : Timeline Place → Bool) (limit : Option Nat) (time : Timeline Place) :
    Timeline Place :=
  if goal time then time
  else
    match _stepped : time.next? limit with
    | some after => run goal limit after
    | none => time
termination_by time.work
decreasing_by exact next?_work (by assumption)

def settle (time : Timeline Place) : Timeline Place := time.run (fun _ => false) (some time.now)

def elapse (time : Timeline Place) (duration : Nat) : Timeline Place :=
  let last := time.now + duration
  { time.run (fun _ => false) (some last) with now := last }

def update (time : Timeline Place) (patch : Patch) : Timeline Place × Settings :=
  let (live, settings) := time.tenant.live.update patch
  (time.withTenant fun tenant => { tenant with live }, settings)

def enterLoad (time : Timeline Place) : Timeline Place × Nat :=
  (time.withTenant fun tenant => { tenant with loads := tenant.loads.enter },
    time.tenant.loads.nextTicket)

def startLoad (time : Timeline Place) : Timeline Place × Nat :=
  let (time, ticket) := time.enterLoad
  (time.settle, ticket)

def fate? (time : Timeline Place) (ticket : Nat) : Option LoadFate :=
  (time.tenant :: time.leaving).findSome? fun tenant => tenant.loads.fate? ticket

def awaitLoads (time : Timeline Place) (tickets : List Nat) : Timeline Place :=
  (time.run (fun time => tickets.all fun ticket => (time.fate? ticket).isSome) none).settle

def cancelLoads (time : Timeline Place) (tickets : List Nat) : Timeline Place :=
  let cancel (tenant : Tenant) : Tenant :=
    { tenant with loads := tickets.foldl Loads.cancel tenant.loads }
  { time with tenant := cancel time.tenant, leaving := time.leaving.map cancel }.settle

def load (time : Timeline Place) : Timeline Place × Option LoadFate :=
  let (time, ticket) := time.startLoad
  let time := time.awaitLoads [ticket]
  (time, time.fate? ticket)

def askFlush (time : Timeline Place) : Timeline Place :=
  time.withStore fun store => { store with writer := store.writer.map Writer.flush }

def isAnswered (time : Timeline Place) (ticket : Nat) : Bool :=
  time.store.writer.any fun writer => ticket < writer.answered

def awaitFlush (time : Timeline Place) (ticket : Nat) : Timeline Place :=
  time.run (fun time => time.isAnswered ticket || time.store.writer.all Writer.isStopped) none

/-- A store that was never loaded has nothing to write. A stopped writer answers no flush. -/
def flush (time : Timeline Place) : Timeline Place × Except Error Unit :=
  match time.store.writer with
  | none => (time, .ok ())
  | some writer =>
    if writer.isStopped then (time, .error .writerStopped)
    else
      let time := time.askFlush.awaitFlush writer.asked
      if time.isAnswered writer.asked then (time, .ok ()) else (time, .error .writerStopped)

/-- The store is let go of; its writer writes what is pending, as far as it can at once. -/
def drop (time : Timeline Place) : Timeline Place := (time.withTenant Tenant.release).settle

/-- Another store takes the place of this one, whose listeners go with whoever held it. -/
def restart (time : Timeline Place) (store : Store) : Timeline Place :=
  let time := (time.withHub fun _ => .empty).drop
  { time with
    tenant := { live := { host := store }, loads := { nextTicket := time.tenant.loads.nextTicket } }
    leaving := time.leaving ++ [time.tenant] }

/-- The writer stops where it stands. -/
def orphan (time : Timeline Place) : Timeline Place :=
  time.withStore fun store => { store with writer := store.writer.map Writer.abandon }

end Timeline
end StartPage
