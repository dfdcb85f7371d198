import StartPage.Settings
import StartPage.Storage.Backend

/-!
The debounced writer. It takes commands from a queue, one after another, and only while it
does not write: a scheduled revision becomes the pending one and starts the quiet window
anew, a flush writes the pending revision at once and is answered afterwards. When the window
has passed, or when the store is gone and the queue is empty, the pending revision is written.
A failed write is counted and forgotten; the next revision holds everything again.

Time is a number of milliseconds. A write takes as long as the place needs and looks at the
place when it ends. Revisions are numbered from one in the order in which they are scheduled:
`history` keeps all of them, the oldest first, and `attempts` every write ever begun, the
latest first.
-/
namespace StartPage

structure Revision where
  number : Nat
  settings : Settings

inductive Command where
  | schedule (revision : Revision)
  | flush

inductive Sequel where
  | resume
  | answerFlush
  | stop
deriving DecidableEq, Repr

structure Attempt where
  revision : Revision
  began : Nat
  ends : Nat
  /-- Nothing when the codec refused to encode. -/
  bytes : Option Bytes
  sequel : Sequel

inductive Activity where
  | idle
  | writing (attempt : Attempt)
  | stopped

structure Writer where
  key : String
  window : Nat
  encode : Settings → Option Bytes
  queue : List Command := []
  pending : Option Revision := none
  deadline : Option Nat := none
  activity : Activity := .idle
  /-- The store is gone: nothing will be sent any more. -/
  closed : Bool := false
  scheduled : Nat := 0
  history : List Settings := []
  completed : Nat := 0
  failed : Nat := 0
  lastSucceeded : Bool := false
  /-- Flushes sent, and flushes answered; they are answered in the order of sending. -/
  asked : Nat := 0
  answered : Nat := 0
  attempts : List Attempt := []

namespace Writer

def isStopped (writer : Writer) : Bool :=
  match writer.activity with
  | .stopped => true
  | _ => false

/-- A stopped writer takes no commands. -/
def send (writer : Writer) (command : Command) : Writer :=
  if writer.isStopped then writer else { writer with queue := writer.queue ++ [command] }

def schedule (writer : Writer) (settings : Settings) : Writer :=
  if writer.isStopped then writer
  else
    { writer.send (.schedule ⟨writer.scheduled + 1, settings⟩) with
      scheduled := writer.scheduled + 1
      history := writer.history ++ [settings] }

def flush (writer : Writer) : Writer :=
  if writer.isStopped then writer
  else { writer.send .flush with asked := writer.asked + 1 }

def close (writer : Writer) : Writer := { writer with closed := true }

def abandon (writer : Writer) : Writer :=
  { writer with activity := .stopped, queue := [], pending := none, deadline := none }

/-- Begins to write; refused bytes take no time. -/
def begin (writer : Writer) (now delay : Nat) (revision : Revision) (sequel : Sequel) : Writer :=
  let bytes := writer.encode revision.settings
  let attempt : Attempt :=
    { revision, began := now, ends := if bytes.isSome then now + delay else now, bytes, sequel }
  { writer with
    pending := none
    deadline := none
    activity := .writing attempt
    attempts := attempt :: writer.attempts }

def conclude (writer : Writer) (sequel : Sequel) (succeeded : Bool) : Writer :=
  { writer with
    completed := writer.completed + if succeeded then 1 else 0
    failed := writer.failed + if succeeded then 0 else 1
    lastSucceeded := succeeded
    answered := writer.answered + if sequel = .answerFlush then 1 else 0
    activity := if sequel = .stop then .stopped else .idle }

def finish {Place : Type} [Backend Place] (writer : Writer) (attempt : Attempt) (place : Place) :
    Writer × Place :=
  match attempt.bytes with
  | none => (writer.conclude attempt.sequel false, place)
  | some bytes =>
    match Backend.write place writer.key bytes with
    | (place, .ok ()) => (writer.conclude attempt.sequel true, place)
    | (place, .error _) => (writer.conclude attempt.sequel false, place)

def advance? (writer : Writer) (now delay : Nat) : Option Writer :=
  match writer.queue, writer.pending with
  | .schedule revision :: rest, _ =>
    some { writer with
      queue := rest
      pending := some revision
      deadline := some (now + writer.window) }
  | .flush :: rest, some revision =>
    some ({ writer with queue := rest }.begin now delay revision .answerFlush)
  | .flush :: rest, none =>
    some { writer with queue := rest, deadline := none, answered := writer.answered + 1 }
  -- That the store is gone is noticed only when the queue is empty.
  | [], some revision =>
    if writer.closed then some (writer.begin now delay revision .stop)
    else
      match writer.deadline with
      | some due => if due ≤ now then some (writer.begin now delay revision .resume) else none
      | none => none
  | [], none => if writer.closed then some { writer with activity := .stopped } else none

def step? {Place : Type} [Backend Place] (writer : Writer) (now delay : Nat) (place : Place) :
    Option (Writer × Place) :=
  match writer.activity with
  | .stopped => none
  | .writing attempt => if attempt.ends ≤ now then some (writer.finish attempt place) else none
  | .idle => (writer.advance? now delay).map fun writer => (writer, place)

def due? (writer : Writer) : Option Nat :=
  match writer.activity with
  | .stopped => none
  | .writing attempt => some attempt.ends
  | .idle => writer.deadline

def activityWork : Activity → Nat
  | .stopped => 0
  | .idle => 1
  | .writing _ => 2

/-- Bounds how many steps are left when nothing more is sent. -/
def work (writer : Writer) : Nat :=
  3 * writer.queue.length + (if writer.pending.isSome then 2 else 0) + activityWork writer.activity

theorem begin_work (writer : Writer) (now delay : Nat) (revision : Revision) (sequel : Sequel) :
    (writer.begin now delay revision sequel).work = 3 * writer.queue.length + 2 := by
  simp [begin, work, activityWork]

theorem advance?_work {writer after : Writer} {now delay : Nat}
    (idle : writer.activity = .idle) (stepped : writer.advance? now delay = some after) :
    after.work < writer.work := by
  cases queue : writer.queue with
  | cons command rest =>
    have before : writer.work = 3 * rest.length + 3 + (if writer.pending.isSome then 2 else 0) + 1 := by
      simp only [work, queue, idle, activityWork, List.length_cons]
      omega
    cases command with
    | schedule revision =>
      simp only [advance?, queue, Option.some.injEq] at stepped
      rw [before, ← stepped]
      simp only [work, idle, activityWork, Option.isSome_some, if_true]
      omega
    | flush =>
      cases pending : writer.pending with
      | none =>
        simp only [advance?, queue, pending, Option.some.injEq] at stepped
        rw [before, ← stepped]
        simp [work, idle, pending, activityWork]
      | some revision =>
        simp only [advance?, queue, pending, Option.some.injEq] at stepped
        rw [before, ← stepped, begin_work]
        simp only [pending, Option.isSome_some, if_true]
        omega
  | nil =>
    cases pending : writer.pending with
    | none =>
      simp only [advance?, queue, pending, Option.ite_none_right_eq_some, Option.some.injEq] at stepped
      rw [← stepped.2]
      simp [work, queue, pending, idle, activityWork]
    | some revision =>
      have less : ∀ sequel, (writer.begin now delay revision sequel).work < writer.work := by
        intro sequel
        rw [begin_work]
        simp [work, queue, pending, idle, activityWork]
      simp only [advance?, queue, pending] at stepped
      split at stepped
      · exact Option.some.inj stepped ▸ less _
      · split at stepped
        · simp only [Option.ite_none_right_eq_some, Option.some.injEq] at stepped
          exact stepped.2 ▸ less _
        · contradiction

theorem conclude_work (writer : Writer) (sequel : Sequel) (succeeded : Bool)
    {attempt : Attempt} (writing : writer.activity = .writing attempt) :
    (writer.conclude sequel succeeded).work < writer.work := by
  cases sequel <;> simp [conclude, work, writing, activityWork]

theorem step?_work {Place : Type} [Backend Place] {writer after : Writer} {now delay : Nat}
    {place left : Place} (stepped : writer.step? now delay place = some (after, left)) :
    after.work < writer.work := by
  unfold step? at stepped
  split at stepped
  · contradiction
  · rename_i attempt writing
    split at stepped
    · unfold finish at stepped
      have less := fun succeeded => writer.conclude_work attempt.sequel succeeded writing
      split at stepped
      · cases stepped
        exact less false
      · split at stepped
        · cases stepped
          exact less true
        · cases stepped
          exact less false
    · contradiction
  · rename_i idle
    obtain ⟨found, advanced, same⟩ := Option.map_eq_some_iff.mp stepped
    cases same
    exact advance?_work idle advanced

theorem advance?_closed {writer after : Writer} {now delay : Nat}
    (stepped : writer.advance? now delay = some after) : after.closed = writer.closed := by
  unfold advance? at stepped
  split at stepped
  · cases stepped
    rfl
  · cases stepped
    rfl
  · cases stepped
    rfl
  · split at stepped
    · cases stepped
      rfl
    · split at stepped
      · obtain ⟨_, same⟩ := Option.ite_none_right_eq_some.mp stepped
        cases same
        rfl
      · contradiction
  · obtain ⟨_, same⟩ := Option.ite_none_right_eq_some.mp stepped
    cases same
    rfl

theorem finish_closed {Place : Type} [Backend Place] (writer : Writer) (attempt : Attempt)
    (place : Place) : (writer.finish attempt place).1.closed = writer.closed := by
  unfold finish
  split
  · rfl
  · split <;> rfl

theorem step?_closed {Place : Type} [Backend Place] {writer after : Writer} {now delay : Nat}
    {place left : Place} (stepped : writer.step? now delay place = some (after, left)) :
    after.closed = writer.closed := by
  unfold step? at stepped
  split at stepped
  · contradiction
  · rename_i attempt writing
    obtain ⟨_, same⟩ := Option.ite_none_right_eq_some.mp stepped
    have kept := writer.finish_closed attempt place
    rwa [Option.some.inj same] at kept
  · obtain ⟨found, advanced, same⟩ := Option.map_eq_some_iff.mp stepped
    cases same
    exact advance?_closed advanced

end Writer
end StartPage
