import StartPage.Proofs.Store.Turns

/-!
Runs as lists of acts. An act is a call, a turn of one of the store's tasks, or a change of the
surroundings; where it cannot happen, it changes nothing. What a list of acts makes of a timeline is
a run of it, and two runs can be compared act by act.
-/
namespace StartPage

namespace Writer

/-- The timer of a writer that is idle, whether or not commands wait. -/
def expire? (writer : Writer) (now delay : Nat) : Option Writer :=
  match writer.activity, writer.pending, writer.deadline with
  | .idle, some revision, some due =>
    if due ≤ now then some (writer.begin now delay revision .resume) else none
  | _, _, _ => none

variable {Place : Type} [Backend Place] {writer after : Writer} {now delay : Nat}
variable {place left : Place}

theorem expire?_step (expired : writer.expire? now delay = some after) :
    Step now delay writer place after place := by
  unfold expire? at expired
  split at expired
  · rename_i idle pending deadline
    obtain ⟨late, same⟩ := Option.ite_none_right_eq_some.mp expired
    exact Option.some.inj same ▸ .move idle (.expire pending deadline late)
  · contradiction

end Writer

namespace Timeline

inductive Task where
  | writer
  | timer
  | gate
  | closing

inductive Act (Place : Type) where
  | update (patch : Patch)
  | load
  | cancel (ticket : Nat)
  | listen (change : Hub (Except Error Patch) → Hub (Except Error Patch))
  | flush
  | release
  | turn (task : Task)
  | wait (duration : Nat)
  | pace (readDelay writeDelay : Nat)
  | refuse (accepts : Settings → Bool)
  | disturb (change : Place → Place)

variable {Place : Type} [Backend Place]

def turn? (time : Timeline Place) : Task → Option (Timeline Place)
  | .writer =>
    (time.tenant.stepWriter? time.now time.writeDelay time.place).map
      fun (tenant, place) => { time with tenant, place }
  | .timer =>
    (time.store.writer.bind fun writer => writer.expire? time.now time.writeDelay).map
      fun writer => { time with tenant := time.tenant.withWriter writer }
  | .gate =>
    (time.tenant.stepLoad? time.now time.readDelay time.place).map
      fun tenant => { time with tenant }
  | .closing =>
    time.tenant.closable?.map fun writer =>
      { time with tenant := time.tenant.withWriter writer.close }

/-- A store that was let go of cannot be called. -/
def call (time called : Timeline Place) : Timeline Place :=
  if time.tenant.released then time else called

def occur (time : Timeline Place) : Act Place → Timeline Place
  | .update patch => time.call (time.update patch).1
  | .load => time.call time.enterLoad.1
  | .cancel ticket =>
    time.withTenant fun tenant => { tenant with loads := tenant.loads.cancel ticket }
  | .listen change => time.withHub change
  | .flush => time.call time.askFlush
  | .release => time.withTenant Tenant.release
  | .turn task => (time.turn? task).getD time
  | .wait duration => { time with now := time.now + duration }
  | .pace readDelay writeDelay => { time with readDelay, writeDelay }
  | .refuse accepts => time.refuse accepts
  | .disturb change => { time with place := change time.place }

def perform (time : Timeline Place) (acts : List (Act Place)) : Timeline Place :=
  acts.foldl occur time

/-- What an update answers at once. -/
def answer? (time : Timeline Place) : Act Place → Option Settings
  | .update patch => if time.tenant.released then none else some (time.update patch).2
  | _ => none

def answers (time : Timeline Place) : List (Act Place) → List Settings
  | [] => []
  | act :: acts => (time.answer? act).toList ++ (time.occur act).answers acts

variable {start time after : Timeline Place}

omit [Backend Place] in
theorem call_cases (time called : Timeline Place) :
    time.call called = time ∨ time.tenant.released = false ∧ time.call called = called := by
  cases released : time.tenant.released with
  | true => exact .inl (if_pos released)
  | false => exact .inr ⟨rfl, if_neg (by rw [released]; exact Bool.false_ne_true)⟩

theorem turn?_turn {task : Task} (taken : time.turn? task = some after) : Turn time after := by
  cases task with
  | writer =>
    obtain ⟨⟨tenant, place⟩, found, same⟩ := Option.map_eq_some_iff.mp taken
    cases same
    unfold Tenant.stepWriter? at found
    split at found
    · contradiction
    · rename_i writer present
      obtain ⟨⟨after, left⟩, advanced, same⟩ := Option.map_eq_some_iff.mp found
      cases same
      exact .writer present (Writer.step?_step advanced)
  | timer =>
    obtain ⟨after, found, rfl⟩ := Option.map_eq_some_iff.mp taken
    obtain ⟨writer, present, expired⟩ := Option.bind_eq_some_iff.mp found
    exact .writer present (Writer.expire?_step expired)
  | gate =>
    obtain ⟨tenant, found, rfl⟩ := Option.map_eq_some_iff.mp taken
    exact .gate found
  | closing =>
    obtain ⟨writer, closable, rfl⟩ := Option.map_eq_some_iff.mp taken
    exact .close closable

theorem occur_run (run : Run (fun _ _ => True) start time) (act : Act Place) :
    Run (fun _ _ => True) start (time.occur act) := by
  have called {called : Timeline Place}
      (ran : time.tenant.released = false → Run (fun _ _ => True) start called) :
      Run (fun _ _ => True) start (time.call called) := by
    rcases time.call_cases called with same | ⟨held, same⟩ <;> rw [same]
    · exact run
    · exact ran held
  cases act with
  | update patch => exact called fun held => run.update held patch
  | load => exact called fun held => run.step (.call (.load held))
  | cancel ticket => exact run.step (.call (.cancel time ticket))
  | listen change => exact run.step (.call (.listen time change))
  | flush => exact called fun held => run.step (.flush held)
  | release => exact run.step (.release time)
  | turn task =>
    change Run _ start ((time.turn? task).getD time)
    cases taken : time.turn? task with
    | none => exact run
    | some after => exact run.step (.turn (turn?_turn taken))
  | wait duration => exact run.step (.wait time _ (Nat.le_add_right _ _))
  | pace readDelay writeDelay => exact run.step (.pace time readDelay writeDelay)
  | refuse accepts => exact run.step (.refuse time accepts)
  | disturb change => exact run.step (.disturb time trivial)

theorem perform_run (run : Run (fun _ _ => True) start time) (acts : List (Act Place)) :
    Run (fun _ _ => True) start (time.perform acts) := by
  induction acts generalizing time with
  | nil => exact run
  | cons act acts ih => exact ih (occur_run run act)

end Timeline
end StartPage
