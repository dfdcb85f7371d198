import StartPage.Proofs.Store.Loading

/-!
A load of a store that is held and not ready. It waits its turn at the gate; the first load whose
read ends, this one or one before it, makes the store ready with what stands in the place, and
those still at the gate find it ready. However slow the place is, the load is answered, and from
the end of that read on nothing comes upon the store but the turns of its tasks.
-/
namespace StartPage

namespace Loads

structure Numbered (loads : Loads) : Prop where
  fates : ∀ ticket fate, (ticket, fate) ∈ loads.fates → ticket < loads.nextTicket
  waiting : ∀ ticket ∈ loads.waiting, ticket < loads.nextTicket
  reading : ∀ ticket ends, loads.reading = some (ticket, ends) → ticket < loads.nextTicket

namespace Numbered

variable {loads : Loads} {ticket : Nat}

theorem unanswered (numbered : loads.Numbered) : loads.fate? loads.nextTicket = none := by
  rw [fate?, List.lookup_eq_none_iff]
  rintro ⟨ticket, fate⟩ member
  have given := numbered.fates ticket fate member
  simpa using Nat.ne_of_gt given

theorem enter (numbered : loads.Numbered) : loads.enter.Numbered where
  fates ticket fate member := Nat.lt_succ_of_lt (numbered.fates ticket fate member)
  waiting ticket member := by
    rcases List.mem_append.mp member with older | last
    · exact Nat.lt_succ_of_lt (numbered.waiting ticket older)
    · rw [List.mem_singleton.mp last]
      exact Nat.lt_succ_self _
  reading ticket ends reads := Nat.lt_succ_of_lt (numbered.reading ticket ends reads)

theorem fates_cons (numbered : loads.Numbered) (given : ticket < loads.nextTicket)
    (fate : LoadFate) (other : Nat) (later : LoadFate)
    (member : (other, later) ∈ (ticket, fate) :: loads.fates) : other < loads.nextTicket := by
  rcases List.mem_cons.mp member with same | older
  · cases same
    exact given
  · exact numbered.fates other later older

theorem cancel (numbered : loads.Numbered) (ticket : Nat) : (loads.cancel ticket).Numbered := by
  unfold Loads.cancel
  split
  · rename_i reads
    cases found : loads.reading with
    | none =>
      rw [isReading, found] at reads
      cases reads
    | some read =>
      rw [isReading, found] at reads
      obtain rfl : read.1 = ticket := eq_of_beq reads
      exact ⟨numbered.fates_cons (numbered.reading _ _ found) _, numbered.waiting, nofun⟩
  · split
    · rename_i waits
      exact ⟨numbered.fates_cons (numbered.waiting ticket waits) _,
        fun other member => numbered.waiting other (List.mem_filter.mp member).1,
        numbered.reading⟩
    · exact numbered

end Numbered

/-- The load waits at the gate or reads, and when it is the only one no other does. -/
structure Awaits (loads : Loads) (ticket : Nat) (only : Prop) : Prop where
  unanswered : loads.fate? ticket = none
  pending : ticket ∈ loads.waiting ∨ ∃ ends, loads.reading = some (ticket, ends)
  sole : only →
    (loads.waiting = [ticket] ∧ loads.reading = none) ∨
      (loads.waiting = [] ∧ ∃ ends, loads.reading = some (ticket, ends))

/-- The load was answered with what its own read gave or, when it was not the only one, with what
the store had when it was let in. -/
def Answered (loads : Loads) (ticket : Nat) (only : Prop) (own late : Settings) : Prop :=
  ∃ settings, loads.fate? ticket = some (.loaded settings) ∧
    (settings = own ∨ ¬ only ∧ settings = late)

structure Passing (loads : Loads) (ticket : Nat) (only : Prop) (own late : Settings) : Prop where
  unread : loads.reading = none
  sole : only → loads.waiting = []
  told : loads.Answered ticket only own late ∨
    loads.fate? ticket = none ∧ ticket ∈ loads.waiting

variable {loads : Loads} {ticket other : Nat} {rest : List Nat} {only : Prop}
variable {own late : Settings}

theorem fate?_cons_self (loads : Loads) (ticket : Nat) (fate : LoadFate) :
    { loads with fates := (ticket, fate) :: loads.fates }.fate? ticket = some fate :=
  List.lookup_cons_self

theorem fate?_cons_of_ne (loads : Loads) (fate : LoadFate) (apart : other ≠ ticket) :
    { loads with fates := (other, fate) :: loads.fates }.fate? ticket = loads.fate? ticket := by
  rw [fate?, List.lookup_cons, beq_false_of_ne apart.symm]
  rfl

theorem awaits_enter (unanswered : loads.fate? loads.nextTicket = none) :
    loads.enter.Awaits loads.nextTicket (loads.isQuiet = true) where
  unanswered := unanswered
  pending := .inl (by simp [enter])
  sole quiet := by
    simp only [isQuiet, Bool.and_eq_true, Option.isNone_iff_eq_none, List.isEmpty_iff] at quiet
    exact .inl ⟨by simp [enter, quiet.2], quiet.1⟩

theorem Awaits.begin (awaits : loads.Awaits ticket only) (free : loads.reading = none)
    (next : loads.waiting = other :: rest) (ends : Nat) :
    { loads with waiting := rest, reading := some (other, ends) }.Awaits ticket only where
  unanswered := awaits.unanswered
  pending := by
    rcases awaits.pending with waits | ⟨_, reads⟩
    · rw [next] at waits
      rcases List.mem_cons.mp waits with rfl | later
      · exact .inr ⟨_, rfl⟩
      · exact .inl later
    · cases free.symm.trans reads
  sole alone := by
    rcases awaits.sole alone with ⟨waits, _⟩ | ⟨_, _, reads⟩
    · obtain ⟨rfl, rfl⟩ := List.cons.inj (next.symm.trans waits)
      exact .inr ⟨rfl, _, rfl⟩
    · cases free.symm.trans reads

theorem Awaits.finish {ends : Nat} (awaits : loads.Awaits ticket only)
    (reads : loads.reading = some (other, ends)) (late : Settings) :
    { loads with
      reading := none
      fates := (other, .loaded own) :: loads.fates
      reads := (other, .used) :: loads.reads }.Passing ticket only own late where
  unread := rfl
  sole alone := by
    rcases awaits.sole alone with ⟨_, free⟩ | ⟨none, _⟩
    · cases free.symm.trans reads
    · exact none
  told := by
    by_cases mine : other = ticket
    · subst mine
      exact .inl ⟨own, fate?_cons_self .., .inl rfl⟩
    · refine .inr ⟨(fate?_cons_of_ne _ _ mine).trans awaits.unanswered, ?_⟩
      rcases awaits.pending with waits | ⟨_, same⟩
      · exact waits
      · cases reads.symm.trans same
        exact absurd rfl mine

theorem Passing.pass {given : Settings} (passing : loads.Passing ticket only own late)
    (next : loads.waiting = other :: rest) (same : given = late) :
    { loads with waiting := rest, fates := (other, .loaded given) :: loads.fates }.Passing ticket
        only own late ∧
      (loads.Answered ticket only own late →
        { loads with waiting := rest, fates := (other, .loaded given) :: loads.fates }.Answered
          ticket only own late) := by
  subst same
  have shared : ¬ only := by
    intro alone
    cases next.symm.trans (passing.sole alone)
  by_cases mine : other = ticket
  · subst mine
    have found := fate?_cons_self { loads with waiting := rest } other (.loaded given)
    have answered := (⟨given, found, .inr ⟨shared, rfl⟩⟩ : Answered _ other only own given)
    exact ⟨⟨passing.unread, (absurd · shared), .inl answered⟩, fun _ => answered⟩
  · have same := fate?_cons_of_ne { loads with waiting := rest } (.loaded given) mine
    have kept : loads.Answered ticket only own given → Answered _ ticket only own given :=
      fun ⟨settings, found, answer⟩ => ⟨settings, same.trans found, answer⟩
    refine ⟨⟨passing.unread, (absurd · shared), passing.told.imp kept ?_⟩, kept⟩
    rintro ⟨unanswered, waits⟩
    rw [next] at waits
    exact ⟨same.trans unanswered, (List.mem_cons.mp waits).resolve_left (Ne.symm mine)⟩

end Loads

namespace Timeline

variable {Place : Type}

theorem fate?_of_alone {time : Timeline Place} (alone : time.leaving = []) (ticket : Nat) :
    time.fate? ticket = time.tenant.loads.fate? ticket := by
  rw [fate?, alone, List.findSome?_cons, List.findSome?_nil]
  cases time.tenant.loads.fate? ticket <;> rfl

variable [Backend Place] {disturb : Place → Place → Prop}
variable {begun time after ended : Timeline Place} {limit : Option Nat}

/-- The store as what stands in the place makes it ready, its listeners told, and the settings to
answer with. -/
def madeReady (time : Timeline Place) : LiveStore × Settings :=
  time.tenant.live.becomeReady time.readNow

/-- The load that was called at `begun` waits at the gate or reads, and no read has ended since. -/
structure UnderWay (disturb : Place → Place → Prop) (begun time : Timeline Place) : Prop where
  alone : time.leaving = []
  untouched : time.place = begun.place
  held : time.tenant.released = false
  live : ∃ phase, phase ≠ .ready ∧
    time.tenant.live =
      { begun.tenant.live with host := { begun.tenant.live.host with phase } }
  awaits : time.tenant.loads.Awaits begun.tenant.loads.nextTicket
    (begun.tenant.loads.isQuiet = true)
  calm : Calm disturb begun time

/-- Since a read ended at `ended` nobody asked for anything. -/
structure Since (disturb : Place → Place → Prop) (begun ended time : Timeline Place) : Prop where
  alone : time.leaving = []
  held : time.tenant.released = false
  ready : time.store.phase = .ready
  settings : time.store.settings = ended.store.settings
  passing : time.tenant.loads.Passing begun.tenant.loads.nextTicket
    (begun.tenant.loads.isQuiet = true) begun.madeReady.2 ended.store.settings
  calm : Calm disturb ended time

structure Ends (disturb : Place → Place → Prop) (begun ended : Timeline Place) : Prop where
  untouched : ended.place = begun.place
  live : ended.tenant.live = begun.madeReady.1
  calm : Calm disturb begun ended
  since : Since disturb begun ended ended

theorem UnderWay.turn (underWay : UnderWay disturb begun time)
    (unwritten : begun.store.writer = none) (turn : Turn time after) :
    UnderWay disturb begun after ∨ Ends disturb begun after := by
  have calm := underWay.calm.step (.turn turn)
  obtain ⟨now, ⟨live, loads, released⟩, here, readDelay, writeDelay, leaving⟩ := time
  obtain ⟨alone, same, held, ⟨phase, unready, still⟩, awaits, -⟩ := underWay
  cases same
  cases still
  cases turn with
  | writer present => cases unwritten.symm.trans present
  | close closable => cases unwritten.symm.trans (Tenant.closable?_writer closable).1
  | gate step =>
    cases Tenant.stepLoad?_gate step with
    | pass _ _ ready => exact absurd ready unready
    | begin free next =>
      exact .inl ⟨alone, rfl, held, ⟨.loading, nofun, rfl⟩, awaits.begin free next _, calm⟩
    | finish reads =>
      have ready := Tenant.stepLoad?_ready (by rw [reads]; rfl) step
      exact .inr ⟨rfl, rfl, calm, alone, held, ready, rfl, awaits.finish reads _, .start⟩

theorem Since.turn (since : Since disturb begun ended time) (turn : Turn time after) :
    Since disturb begun ended after ∧
      (time.tenant.loads.Answered begun.tenant.loads.nextTicket (begun.tenant.loads.isQuiet = true)
          begun.madeReady.2 ended.store.settings →
        after.tenant.loads.Answered begun.tenant.loads.nextTicket (begun.tenant.loads.isQuiet = true)
          begun.madeReady.2 ended.store.settings) := by
  have calm := since.calm.step (.turn turn)
  cases turn with
  | writer => exact ⟨{ since with calm }, id⟩
  | close => exact ⟨{ since with calm }, id⟩
  | gate step =>
    cases Tenant.stepLoad?_gate step with
    | finish reads => cases since.passing.unread.symm.trans reads
    | begin _ _ unready => exact absurd since.ready unready
    | pass _ next =>
      have passed := since.passing.pass next since.settings
      exact ⟨{ since with passing := passed.1, calm }, passed.2⟩

theorem UnderWay.next (underWay : UnderWay disturb begun time)
    (unwritten : begun.store.writer = none) (stepped : time.next? limit = some after) :
    UnderWay disturb begun after ∨ Ends disturb begun after := by
  obtain ⟨later, forward, turn⟩ := next?_turn underWay.alone stepped
  have waited : UnderWay disturb begun { time with now := later } :=
    { underWay with calm := underWay.calm.step (.wait time later forward) }
  exact waited.turn unwritten turn

theorem Since.next (since : Since disturb begun ended time)
    (stepped : time.next? limit = some after) :
    Since disturb begun ended after ∧
      (time.tenant.loads.Answered begun.tenant.loads.nextTicket (begun.tenant.loads.isQuiet = true)
          begun.madeReady.2 ended.store.settings →
        after.tenant.loads.Answered begun.tenant.loads.nextTicket (begun.tenant.loads.isQuiet = true)
          begun.madeReady.2 ended.store.settings) := by
  obtain ⟨later, forward, turn⟩ := next?_turn since.alone stepped
  have waited : Since disturb begun ended { time with now := later } :=
    { since with calm := since.calm.step (.wait time later forward) }
  exact waited.turn turn

theorem ready?_isSome (held : time.tenant.released = false) (alone : time.leaving = [])
    (step : (time.tenant.stepLoad? time.now time.readDelay time.place).isSome = true) :
    time.ready?.isSome = true := by
  have others : time.stepLeaving? = none := by simp [stepLeaving?, alone, stepFirst?]
  have opened : time.tenant.closable? = none := by simp [Tenant.closable?, held]
  simp [ready?, others, stepTenant?, Tenant.step?, opened, step]

theorem next?_isSome_of_waiting (held : time.tenant.released = false) (alone : time.leaving = [])
    (free : time.tenant.loads.reading = none) {ticket : Nat}
    (waits : ticket ∈ time.tenant.loads.waiting) : (time.next? limit).isSome = true := by
  have step : (time.tenant.stepLoad? time.now time.readDelay time.place).isSome = true := by
    cases next : time.tenant.loads.waiting with
    | nil =>
      rw [next] at waits
      cases waits
    | cons first rest =>
      rw [Tenant.stepLoad?, free, next]
      dsimp only
      split <;> rfl
  obtain ⟨stepped, found⟩ := Option.isSome_iff_exists.mp (ready?_isSome held alone step)
  rw [next?, found]
  rfl

theorem next?_isSome_of_reading (held : time.tenant.released = false) (alone : time.leaving = [])
    (unwritten : time.store.writer = none) {ticket ends : Nat}
    (reads : time.tenant.loads.reading = some (ticket, ends)) :
    (time.next? none).isSome = true := by
  have none : time.tenant.store.writer = none := unwritten
  have due : time.due? = some ends := by
    rw [due?, alone, Tenant.due, none, reads]
    rfl
  let later : Timeline Place := { time with now := max time.now ends }
  have step : (later.tenant.stepLoad? later.now later.readDelay later.place).isSome = true := by
    have passed : ends ≤ max time.now ends := Nat.le_max_right _ _
    have reads : later.tenant.loads.reading = some (ticket, ends) := reads
    rw [Tenant.stepLoad?, reads]
    dsimp only
    rw [if_pos passed]
    rfl
  have ready : later.ready?.isSome = true := ready?_isSome held alone step
  rw [next?]
  split
  · rfl
  · rw [due]
    exact ready

theorem UnderWay.next?_isSome (underWay : UnderWay disturb begun time)
    (unwritten : begun.store.writer = none) : (time.next? none).isSome = true := by
  cases reads : time.tenant.loads.reading with
  | none =>
    rcases underWay.awaits.pending with waits | ⟨_, same⟩
    · exact next?_isSome_of_waiting underWay.held underWay.alone reads waits
    · cases reads.symm.trans same
  | some read =>
    have none : time.store.writer = none := by
      obtain ⟨_, _, still⟩ := underWay.live
      rw [Timeline.store, Tenant.store, still]
      exact unwritten
    exact next?_isSome_of_reading underWay.held underWay.alone none reads

theorem Step.numbered (step : Step disturb time after) (numbered : time.tenant.loads.Numbered) :
    after.tenant.loads.Numbered := by
  cases step with
  | turn turn =>
    cases turn with
    | writer | close => exact numbered
    | gate step =>
      cases Tenant.stepLoad?_gate step with
      | finish reads =>
        exact ⟨numbered.fates_cons (numbered.reading _ _ reads) _, numbered.waiting, nofun⟩
      | pass _ next =>
        have waiting := numbered.waiting
        rw [next] at waiting
        exact ⟨numbered.fates_cons (waiting _ List.mem_cons_self) _,
          fun ticket member => waiting ticket (List.mem_cons_of_mem _ member), numbered.reading⟩
      | begin _ next =>
        have waiting := numbered.waiting
        rw [next] at waiting
        refine ⟨numbered.fates,
          fun ticket member => waiting ticket (List.mem_cons_of_mem _ member), ?_⟩
        rintro _ _ ⟨⟩
        exact waiting _ List.mem_cons_self
  | call call =>
    cases call with
    | load => exact numbered.enter
    | cancel ticket => exact numbered.cancel ticket
    | listen => exact numbered
  | flush | release | wait | pace | refuse | disturb => exact numbered

theorem Run.numbered {start : Timeline Place} (run : Run disturb start time)
    (numbered : start.tenant.loads.Numbered) : time.tenant.loads.Numbered := by
  induction run with
  | start => exact numbered
  | step _ step ih => exact step.numbered ih
  | update _ _ _ ih => exact ih

def Loading (disturb : Place → Place → Prop) (begun time : Timeline Place) : Prop :=
  UnderWay disturb begun time ∨ ∃ ended, Ends disturb begun ended ∧ Since disturb begun ended time

theorem Loading.run (loading : Loading disturb begun time) (unwritten : begun.store.writer = none)
    (goal : Timeline Place → Bool) : Loading disturb begun (time.run goal limit) := by
  refine run_keep goal limit (Loading disturb begun) ?_ loading
  rintro time after (underWay | ⟨ended, ends, since⟩) stepped
  · exact (underWay.next unwritten stepped).imp_right fun ends => ⟨_, ends, ends.since⟩
  · exact .inr ⟨ended, ends, (since.next stepped).1⟩

theorem Loading.awaited (loading : Loading disturb begun time)
    (unwritten : begun.store.writer = none) :
    ∃ ended, Ends disturb begun ended ∧
      Since disturb begun ended (time.awaitLoads [begun.tenant.loads.nextTicket]) ∧
      (time.awaitLoads [begun.tenant.loads.nextTicket]).tenant.loads.Answered
        begun.tenant.loads.nextTicket (begun.tenant.loads.isQuiet = true) begun.madeReady.2
        ended.store.settings := by
  let goal : Timeline Place → Bool := fun time =>
    [begun.tenant.loads.nextTicket].all fun ticket => (time.fate? ticket).isSome
  let stopped := time.run goal none
  have told : stopped.leaving = [] → (stopped.next? none).isSome = true →
      stopped.tenant.loads.fate? begun.tenant.loads.nextTicket ≠ none := by
    intro alone goesOn unanswered
    rcases run_stops goal none time with reached | stuck
    · have found : (stopped.fate? begun.tenant.loads.nextTicket).isSome = true :=
        List.all_eq_true.mp reached _ (List.mem_singleton_self _)
      rw [fate?_of_alone alone, unanswered] at found
      cases found
    · rw [stuck] at goesOn
      cases goesOn
  rcases loading.run unwritten goal with still | ⟨ended, ends, since⟩
  · exact absurd still.awaits.unanswered (told still.alone (still.next?_isSome unwritten))
  · rcases since.passing.told with answered | ⟨unanswered, waits⟩
    · exact ⟨ended, ends, run_keep _ _
        (fun time => Since disturb begun ended time ∧ time.tenant.loads.Answered _ _ _ _)
        (fun kept stepped => (kept.1.next stepped).imp_right (· kept.2)) ⟨since, answered⟩⟩
    · have goesOn : (stopped.next? none).isSome = true :=
        next?_isSome_of_waiting since.held since.alone since.passing.unread waits
      exact absurd unanswered (told since.alone goesOn)

/-- A load is always answered: with the settings that its own read gave or, when other loads were
under way, with those that the store had when it was let in. -/
theorem load_ends (disturb : Place → Place → Prop) (held : begun.tenant.released = false)
    (unready : begun.store.phase ≠ .ready) (unwritten : begun.store.writer = none)
    (unanswered : begun.tenant.loads.fate? begun.tenant.loads.nextTicket = none)
    (alone : begun.leaving = []) :
    ∃ ended settings, Ends disturb begun ended ∧ Since disturb begun ended begun.load.1 ∧
      begun.load.2 = some (.loaded settings) ∧
      (settings = begun.madeReady.2 ∨
        begun.tenant.loads.isQuiet ≠ true ∧ settings = ended.store.settings) := by
  have entered : Loading disturb begun begun.enterLoad.1 :=
    .inl ⟨alone, rfl, held, ⟨begun.store.phase, unready, rfl⟩, Loads.awaits_enter unanswered,
      Calm.start.step (.call (.load held))⟩
  have started : Loading disturb begun begun.startLoad.1 := entered.run unwritten fun _ => false
  obtain ⟨ended, ends, since, settings, found, answer⟩ := started.awaited unwritten
  exact ⟨ended, settings, ends, since, (fate?_of_alone since.alone _).trans found, answer⟩

theorem load_new {store : Store} (unwritten : store.writer = none) (unready : store.phase ≠ .ready)
    (empty : store.queued = []) (place : Place) (now readDelay writeDelay : Nat) :
    ({ start store place with now, readDelay, writeDelay } : Timeline Place).load.2 =
      some (.loaded (store.readBack (Backend.read place store.config.key)).1) := by
  let begun : Timeline Place := { start store place with now, readDelay, writeDelay }
  have unready : begun.store.phase ≠ .ready := unready
  obtain ⟨ended, settings, -, -, found, answer⟩ :=
    load_ends (fun _ _ => False) rfl unready unwritten rfl rfl
  obtain rfl : settings = begun.madeReady.2 := answer.resolve_right fun late => late.1 rfl
  rw [found, madeReady, LiveStore.becomeReady_answer]
  have queued : begun.tenant.live.host.queued = [] := empty
  rw [queued]
  rfl

end Timeline
end StartPage
