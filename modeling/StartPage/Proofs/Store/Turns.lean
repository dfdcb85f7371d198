import StartPage.Store.Timeline

/-!
Everything that can happen to a store and its place. The tasks of a store (its writer, the gate
of its loads, the closing of the writer) take turns in any order, and calls, the passing of time
and faults of the surroundings fall anywhere between the turns. `Timeline.next?` is one way of
ordering the turns; `Run` has them all, and also the turn that `Writer.step?` never takes: a
timer that goes off while commands wait.
-/
namespace StartPage

/-- What an idle writer may do. The timer may win over commands that wait as well. -/
inductive Writer.Move (writer : Writer) (now delay : Nat) : Writer → Prop where
  | receive {revision : Revision} {rest : List Command}
      (queue : writer.queue = .schedule revision :: rest) :
      Move writer now delay
        { writer with
          queue := rest
          pending := some revision
          deadline := some (now + writer.window) }
  | flush {revision : Revision} {rest : List Command} (queue : writer.queue = .flush :: rest)
      (pending : writer.pending = some revision) :
      Move writer now delay ({ writer with queue := rest }.begin now delay revision .answerFlush)
  | answer {rest : List Command} (queue : writer.queue = .flush :: rest)
      (pending : writer.pending = none) :
      Move writer now delay
        { writer with queue := rest, deadline := none, answered := writer.answered + 1 }
  | expire {revision : Revision} {due : Nat} (pending : writer.pending = some revision)
      (deadline : writer.deadline = some due) (late : due ≤ now) :
      Move writer now delay (writer.begin now delay revision .resume)
  | drain {revision : Revision} (queue : writer.queue = [])
      (pending : writer.pending = some revision) (closed : writer.closed = true) :
      Move writer now delay (writer.begin now delay revision .stop)
  | stop (queue : writer.queue = []) (pending : writer.pending = none)
      (closed : writer.closed = true) : Move writer now delay { writer with activity := .stopped }

inductive Writer.Step {Place : Type} [Backend Place] (now delay : Nat) :
    Writer → Place → Writer → Place → Prop where
  | move {writer after : Writer} {place : Place} (idle : writer.activity = .idle)
      (move : writer.Move now delay after) : Step now delay writer place after place
  | finish {writer : Writer} {attempt : Attempt} {place : Place}
      (writing : writer.activity = .writing attempt) (ended : attempt.ends ≤ now) :
      Step now delay writer place (writer.finish attempt place).1 (writer.finish attempt place).2

namespace Writer

theorem advance?_move {writer after : Writer} {now delay : Nat}
    (advanced : writer.advance? now delay = some after) : writer.Move now delay after := by
  unfold advance? at advanced
  split at advanced
  · rename_i queue
    exact Option.some.inj advanced ▸ .receive queue
  · rename_i queue pending
    exact Option.some.inj advanced ▸ .flush queue pending
  · rename_i queue pending
    exact Option.some.inj advanced ▸ .answer queue pending
  · rename_i queue pending
    split at advanced
    · rename_i closed
      exact Option.some.inj advanced ▸ .drain queue pending closed
    · split at advanced
      · rename_i deadline
        obtain ⟨late, same⟩ := Option.ite_none_right_eq_some.mp advanced
        exact Option.some.inj same ▸ .expire pending deadline late
      · contradiction
  · rename_i queue pending
    obtain ⟨closed, same⟩ := Option.ite_none_right_eq_some.mp advanced
    exact Option.some.inj same ▸ .stop queue pending closed

theorem step?_step {Place : Type} [Backend Place] {writer after : Writer} {now delay : Nat}
    {place left : Place} (stepped : writer.step? now delay place = some (after, left)) :
    Step now delay writer place after left := by
  unfold step? at stepped
  split at stepped
  · contradiction
  · rename_i attempt writing
    obtain ⟨ended, same⟩ := Option.ite_none_right_eq_some.mp stepped
    obtain ⟨rfl, rfl⟩ := Prod.mk.inj (Option.some.inj same)
    exact .finish writing ended
  · rename_i idle
    obtain ⟨found, advanced, same⟩ := Option.map_eq_some_iff.mp stepped
    obtain ⟨rfl, rfl⟩ := Prod.mk.inj same
    exact .move idle (advance?_move advanced)

end Writer

theorem Writer.Step.closed {Place : Type} [Backend Place] {writer after : Writer} {now delay : Nat}
    {place left : Place} (step : Writer.Step now delay writer place after left) :
    after.closed = writer.closed := by
  cases step with
  | move _ move => cases move <;> rfl
  | finish => exact Writer.finish_closed ..

/-- What the gate may do: the load that reads makes the store ready, a load that waits finds it
ready, or begins to read. -/
inductive Tenant.Gate {Place : Type} [Backend Place] (tenant : Tenant) (now delay : Nat)
    (place : Place) : Tenant → Prop where
  | finish {ticket ends : Nat} (reading : tenant.loads.reading = some (ticket, ends))
      (ended : ends ≤ now) :
      Gate tenant now delay place
        { tenant with
          live := (tenant.live.becomeReady (Backend.read place tenant.store.config.key)).1
          loads :=
            { tenant.loads with
              reading := none
              fates :=
                (ticket, .loaded
                  (tenant.live.becomeReady (Backend.read place tenant.store.config.key)).2) ::
                  tenant.loads.fates
              reads := (ticket, .used) :: tenant.loads.reads } }
  | pass {ticket : Nat} {rest : List Nat} (reading : tenant.loads.reading = none)
      (waiting : tenant.loads.waiting = ticket :: rest) (ready : tenant.store.phase = .ready) :
      Gate tenant now delay place
        { tenant with
          loads :=
            { tenant.loads with
              waiting := rest
              fates := (ticket, .loaded tenant.store.settings) :: tenant.loads.fates } }
  | begin {ticket : Nat} {rest : List Nat} (reading : tenant.loads.reading = none)
      (waiting : tenant.loads.waiting = ticket :: rest) (unready : tenant.store.phase ≠ .ready) :
      Gate tenant now delay place
        { tenant.withStore { tenant.store with phase := .loading } with
          loads :=
            { tenant.loads with waiting := rest, reading := some (ticket, now + delay) } }

theorem Tenant.stepLoad?_gate {Place : Type} [Backend Place] {tenant after : Tenant}
    {now delay : Nat} {place : Place} (stepped : tenant.stepLoad? now delay place = some after) :
    tenant.Gate now delay place after := by
  unfold Tenant.stepLoad? at stepped
  split at stepped
  · rename_i reading
    obtain ⟨ended, same⟩ := Option.ite_none_right_eq_some.mp stepped
    exact Option.some.inj same ▸ .finish reading ended
  · rename_i reading waiting
    split at stepped
    · rename_i ready
      exact Option.some.inj stepped ▸ .pass reading waiting ready
    · rename_i unready
      exact Option.some.inj stepped ▸ .begin reading waiting unready
  · contradiction

namespace Timeline

variable {Place : Type} [Backend Place]

inductive Turn : Timeline Place → Timeline Place → Prop where
  | writer {time : Timeline Place} {writer after : Writer} {left : Place}
      (present : time.store.writer = some writer)
      (step : Writer.Step time.now time.writeDelay writer time.place after left) :
      Turn time { time with tenant := time.tenant.withWriter after, place := left }
  | gate {time : Timeline Place} {tenant : Tenant}
      (step : time.tenant.stepLoad? time.now time.readDelay time.place = some tenant) :
      Turn time { time with tenant }
  | close {time : Timeline Place} {writer : Writer}
      (closable : time.tenant.closable? = some writer) :
      Turn time { time with tenant := time.tenant.withWriter writer.close }

/-- Calls that the writer does not hear of. -/
inductive Call : Timeline Place → Timeline Place → Prop where
  | load {time : Timeline Place} (held : time.tenant.released = false) : Call time time.enterLoad.1
  | cancel (time : Timeline Place) (ticket : Nat) :
      Call time (time.withTenant fun tenant =>
        { tenant with loads := tenant.loads.cancel ticket })
  /-- A handle can be used for as long as there are loads that could tell its listener anything. -/
  | listen (time : Timeline Place)
      (change : Hub (Except Error Patch) → Hub (Except Error Patch)) :
      Call time (time.withHub change)

/-- From now on the codec refuses the settings that are not accepted. -/
def refuse (accepts : Settings → Bool) (time : Timeline Place) : Timeline Place :=
  time.withStore fun store =>
    { store with
      writer := store.writer.map fun writer =>
        { writer with encode := fun settings => if accepts settings then store.encode settings else none } }

/-- Anything that may happen but for an update. `disturb` is what others may do to the place. -/
inductive Step (disturb : Place → Place → Prop) : Timeline Place → Timeline Place → Prop where
  | turn {time after : Timeline Place} (turn : Turn time after) : Step disturb time after
  | call {time after : Timeline Place} (call : Call time after) : Step disturb time after
  | flush {time : Timeline Place} (held : time.tenant.released = false) :
      Step disturb time time.askFlush
  | release (time : Timeline Place) : Step disturb time (time.withTenant Tenant.release)
  | wait (time : Timeline Place) (later : Nat) (forward : time.now ≤ later) :
      Step disturb time { time with now := later }
  | pace (time : Timeline Place) (readDelay writeDelay : Nat) :
      Step disturb time { time with readDelay, writeDelay }
  | refuse (time : Timeline Place) (accepts : Settings → Bool) :
      Step disturb time (time.refuse accepts)
  | disturb (time : Timeline Place) {place : Place} (disturbed : disturb time.place place) :
      Step disturb time { time with place }

/-- The timelines that a timeline can grow into. Nobody can update a store that was let go of. -/
inductive Run (disturb : Place → Place → Prop) (start : Timeline Place) :
    Timeline Place → Prop where
  | start : Run disturb start start
  | step {time after : Timeline Place} (run : Run disturb start time)
      (step : Step disturb time after) : Run disturb start after
  | update {time : Timeline Place} (run : Run disturb start time)
      (held : time.tenant.released = false) (patch : Patch) :
      Run disturb start (time.update patch).1

inductive Happens (disturb : Place → Place → Prop) (time : Timeline Place) :
    Timeline Place → Prop where
  | step {after : Timeline Place} (step : Step disturb time after) : Happens disturb time after
  | update (held : time.tenant.released = false) (patch : Patch) :
      Happens disturb time (time.update patch).1

/-- Runs in which no update changes anything. -/
inductive Calm (disturb : Place → Place → Prop) (start : Timeline Place) :
    Timeline Place → Prop where
  | start : Calm disturb start start
  | step {time after : Timeline Place} (calm : Calm disturb start time)
      (step : Step disturb time after) : Calm disturb start after
  | update {time : Timeline Place} (calm : Calm disturb start time) {patch : Patch}
      (empty : patch.isEmpty = true) : Calm disturb start (time.update patch).1

theorem Calm.trans {disturb : Place → Place → Prop} {start middle time : Timeline Place}
    (first : Calm disturb start middle) (second : Calm disturb middle time) :
    Calm disturb start time := by
  induction second with
  | start => exact first
  | step _ step ih => exact ih.step step
  | update _ empty ih => exact ih.update empty

theorem Run.trans {disturb : Place → Place → Prop} {start middle time : Timeline Place}
    (first : Run disturb start middle) (second : Run disturb middle time) :
    Run disturb start time := by
  induction second with
  | start => exact first
  | step _ step ih => exact ih.step step
  | update _ held patch ih => exact ih.update held patch

theorem Turn.leaving {time after : Timeline Place} (turn : Turn time after) :
    after.leaving = time.leaving := by
  cases turn <;> rfl

theorem Turn.now {time after : Timeline Place} (turn : Turn time after) :
    after.now = time.now := by
  cases turn <;> rfl

theorem stepTenant?_turn {time after : Timeline Place} (stepped : time.stepTenant? = some after) :
    Turn time after := by
  obtain ⟨⟨tenant, place⟩, found, same⟩ := Option.map_eq_some_iff.mp stepped
  cases same
  unfold Tenant.step? at found
  split at found
  · rename_i writer closable
    cases found
    exact .close closable
  · rcases Option.or_eq_some_iff.mp found with found | ⟨_, found⟩
    · unfold Tenant.stepWriter? at found
      split at found
      · contradiction
      · rename_i writer present
        obtain ⟨⟨after, left⟩, advanced, same⟩ := Option.map_eq_some_iff.mp found
        cases same
        exact .writer present (Writer.step?_step advanced)
    · obtain ⟨tenant, advanced, same⟩ := Option.map_eq_some_iff.mp found
      cases same
      exact .gate advanced

theorem ready?_turn {time after : Timeline Place} (alone : time.leaving = [])
    (stepped : time.ready? = some after) : Turn time after := by
  have others : time.stepLeaving? = none := by simp [stepLeaving?, alone, stepFirst?]
  rw [ready?, others, Option.none_or] at stepped
  exact stepTenant?_turn stepped

theorem next?_turn {time after : Timeline Place} {limit : Option Nat} (alone : time.leaving = [])
    (stepped : time.next? limit = some after) :
    ∃ later, time.now ≤ later ∧ Turn { time with now := later } after := by
  unfold next? at stepped
  split at stepped
  · rename_i found
    cases stepped
    exact ⟨time.now, Nat.le_refl _, ready?_turn alone found⟩
  · split at stepped
    · contradiction
    · rename_i due _
      obtain ⟨_, found⟩ := Option.ite_none_right_eq_some.mp stepped
      exact ⟨max time.now due, Nat.le_max_left _ _, ready?_turn alone found⟩

/-- What every next step keeps, the clock's own order of turns keeps. -/
theorem run_keep (goal : Timeline Place → Bool) (limit : Option Nat)
    (Kept : Timeline Place → Prop)
    (kept : ∀ {time after : Timeline Place}, Kept time → time.next? limit = some after → Kept after)
    {time : Timeline Place} (start : Kept time) : Kept (time.run goal limit) := by
  -- The equation of `run` splits on `next?` again, which must be the same step each time.
  induction time using Timeline.run.induct goal limit with
  | case1 time reached => rwa [run, if_pos reached]
  | case2 time unreached after stepped ih =>
    rw [run, if_neg unreached]
    split
    · rename_i other stepped'
      cases stepped.symm.trans stepped'
      exact ih (kept start stepped)
    · rename_i stuck
      cases stepped.symm.trans stuck
  | case3 time unreached stuck =>
    rw [run, if_neg unreached]
    split
    · rename_i other stepped
      cases stepped.symm.trans stuck
    · exact start

theorem run_stops (goal : Timeline Place → Bool) (limit : Option Nat) (time : Timeline Place) :
    goal (time.run goal limit) = true ∨ (time.run goal limit).next? limit = none := by
  induction time using Timeline.run.induct goal limit with
  | case1 time reached =>
    rw [run, if_pos reached]
    exact .inl reached
  | case2 time unreached after stepped ih =>
    rw [run, if_neg unreached]
    split
    · rename_i other stepped'
      cases stepped.symm.trans stepped'
      exact ih
    · rename_i stuck
      cases stepped.symm.trans stuck
  | case3 time unreached stuck =>
    rw [run, if_neg unreached]
    split
    · rename_i other stepped
      cases stepped.symm.trans stuck
    · exact .inr stuck

theorem run_stuck (limit : Option Nat) (time : Timeline Place) :
    (time.run (fun _ => false) limit).next? limit = none :=
  (run_stops (fun _ => false) limit time).resolve_left Bool.false_ne_true

def turns (time : Timeline Place) : Nat → Timeline Place
  | 0 => time
  | count + 1 =>
    match time.next? none with
    | some after => after.turns count
    | none => time

theorem run_eq_turns (goal : Timeline Place → Bool) (time : Timeline Place) (count : Nat)
    (unmet : ∀ earlier < count, goal (time.turns earlier) = false)
    (met : goal (time.turns count) = true) : time.run goal none = time.turns count := by
  induction count generalizing time with
  | zero =>
    have reached : goal time = true := met
    rw [run, if_pos reached, turns]
  | succ count ih =>
    have first : goal time = false := unmet 0 (Nat.succ_pos count)
    rw [run, if_neg (by rw [first]; exact Bool.false_ne_true)]
    split
    · rename_i after stepped
      have later : ∀ number, time.turns (number + 1) = after.turns number := by
        intro number
        rw [turns, stepped]
      rw [later] at met ⊢
      exact ih after (fun earlier below => later earlier ▸ unmet (earlier + 1) (by omega)) met
    · rename_i stuck
      rw [turns, stuck] at met
      cases first.symm.trans met

namespace Run

variable {disturb : Place → Place → Prop} {start time : Timeline Place}

theorem leaving (run : Run disturb start time) : time.leaving = start.leaving := by
  induction run with
  | start => rfl
  | step _ step ih =>
    cases step with
    | turn turn => exact turn.leaving.trans ih
    | call call => cases call <;> exact ih
    | flush | release | wait | pace | refuse | disturb => exact ih
  | update _ _ _ ih => exact ih

theorem next {after : Timeline Place} {limit : Option Nat} (run : Run disturb start time)
    (alone : time.leaving = []) (stepped : time.next? limit = some after) :
    Run disturb start after ∧ after.leaving = [] := by
  obtain ⟨later, forward, turn⟩ := next?_turn alone stepped
  have waited := run.step (.wait time later forward)
  exact ⟨waited.step (.turn turn), turn.leaving.trans alone⟩

theorem turns (found : Run disturb start time) (alone : time.leaving = []) (count : Nat) :
    Run disturb start (time.turns count) ∧ (time.turns count).leaving = [] := by
  induction count generalizing time with
  | zero => exact ⟨found, alone⟩
  | succ count ih =>
    rw [Timeline.turns]
    split
    · rename_i after stepped
      obtain ⟨found, alone⟩ := found.next alone stepped
      exact ih found alone
    · exact ⟨found, alone⟩

/-- Whatever the clock's own order of turns makes of a timeline is one of its runs. -/
theorem run (found : Run disturb start time) (alone : time.leaving = [])
    (goal : Timeline Place → Bool) (limit : Option Nat) :
    Run disturb start (time.run goal limit) ∧ (time.run goal limit).leaving = [] :=
  run_keep goal limit (fun time => Run disturb start time ∧ time.leaving = [])
    (fun kept stepped => kept.1.next kept.2 stepped) ⟨found, alone⟩

end Run

end Timeline
end StartPage
