import Mathlib.Data.List.Nodup
import StartPage.Listeners

/-!
The rules of notification, as a log of what happens shows them. A notification begins with the
listeners that are registered and visits them in that order: it calls those that were not cancelled
before their turn, and passes over the others. While a listener is called others may be subscribed,
cancelled and notified; a notification that begins meanwhile ends before the one around it goes on.

`Orderly` says which incidents may come next, given the notifications that have not ended. What
follows from it is told of each notification between its beginning and its end.
-/
namespace StartPage

/-- What happens among listeners. Notifications are numbered as they begin. -/
inductive Incident (State : Type) where
  | subscribed (handle : Handle)
  | cancelled (handle : Handle)
  | began (number : Nat) (state : State)
  | called (number : Nat) (handle : Handle) (state : State)
  | passed (number : Nat) (handle : Handle)
  | ended (number : Nat)
deriving DecidableEq

namespace Incident

variable {State : Type}

def number? : Incident State → Option Nat
  | subscribed _ | cancelled _ => none
  | began number _ | called number _ _ | passed number _ | ended number => some number

def subscribed? : Incident State → Option Handle
  | subscribed handle => some handle
  | _ => none

def cancelled? : Incident State → Option Handle
  | cancelled handle => some handle
  | _ => none

def isBegan : Incident State → Bool
  | began _ _ => true
  | _ => false

def visited? (number : Nat) : Incident State → Option Handle
  | called other handle _ | passed other handle => if other = number then some handle else none
  | _ => none

def call? : Incident State → Option (Handle × State)
  | called _ handle state => some (handle, state)
  | _ => none

def subscriptions (log : List (Incident State)) : List Handle := log.filterMap subscribed?

def cancellations (log : List (Incident State)) : List Handle := log.filterMap cancelled?

/-- Those subscribed and not cancelled, in the order of subscription. -/
def registrations (log : List (Incident State)) : List Handle :=
  (subscriptions log).filter (· ∉ cancellations log)

def begun (log : List (Incident State)) : Nat := log.countP isBegan

def visits (number : Nat) (log : List (Incident State)) : List Handle :=
  log.filterMap (visited? number)

def calls (log : List (Incident State)) : List (Handle × State) := log.filterMap call?

section Append

variable {number : Nat} {handle : Handle} {log more : List (Incident State)}

theorem subscriptions_append :
    subscriptions (log ++ more) = subscriptions log ++ subscriptions more :=
  List.filterMap_append

theorem cancellations_append :
    cancellations (log ++ more) = cancellations log ++ cancellations more :=
  List.filterMap_append

theorem visits_append : visits number (log ++ more) = visits number log ++ visits number more :=
  List.filterMap_append

theorem calls_append : calls (log ++ more) = calls log ++ calls more :=
  List.filterMap_append

theorem begun_append : begun (log ++ more) = begun log + begun more :=
  List.countP_append

@[simp] theorem begun_concat (incident : Incident State) :
    begun (log ++ [incident]) = begun log + if incident.isBegan then 1 else 0 := by
  rw [begun_append, begun, begun, List.countP_singleton]

@[simp] theorem subscriptions_concat (incident : Incident State) :
    subscriptions (log ++ [incident]) = subscriptions log ++ incident.subscribed?.toList := by
  rw [subscriptions_append]
  cases incident <;> rfl

@[simp] theorem cancellations_concat (incident : Incident State) :
    cancellations (log ++ [incident]) = cancellations log ++ incident.cancelled?.toList := by
  rw [cancellations_append]
  cases incident <;> rfl

@[simp] theorem visits_concat (incident : Incident State) :
    visits number (log ++ [incident]) = visits number log ++ (incident.visited? number).toList := by
  rw [visits_append]
  cases visited : incident.visited? number <;> simp [visits, visited]

@[simp] theorem calls_concat (incident : Incident State) :
    calls (log ++ [incident]) = calls log ++ incident.call?.toList := by
  rw [calls_append]
  cases incident <;> rfl

theorem mem_cancellations : handle ∈ cancellations log ↔ cancelled handle ∈ log := by
  rw [cancellations, List.mem_filterMap]
  constructor
  · rintro ⟨incident, member, found⟩
    cases incident with
    | cancelled other =>
      cases found
      exact member
    | _ => cases found
  · exact fun member => ⟨_, member, rfl⟩

theorem mem_registrations : handle ∈ registrations log ↔
    handle ∈ subscriptions log ∧ handle ∉ cancellations log := by
  rw [registrations, List.mem_filter, decide_eq_true_iff]

theorem registrations_concat {incident : Incident State} (subscribes : incident.subscribed? = none)
    (cancels : incident.cancelled? = none) :
    registrations (log ++ [incident]) = registrations log := by
  simp [registrations, subscribes, cancels]

theorem registrations_subscribed (fresh : handle ∉ cancellations log) :
    registrations (log ++ [subscribed handle]) = registrations log ++ [handle] := by
  simp [registrations, subscribed?, cancelled?, fresh]

theorem registrations_cancelled :
    registrations (log ++ [cancelled handle]) = (registrations log).filter (· ≠ handle) := by
  rw [registrations, registrations, List.filter_filter]
  simp [subscribed?, cancelled?, not_or, and_comm]

end Append
end Incident

open Incident

/-- A notification that has not ended: what it tells, and whose turn is still to come. -/
structure Round (State : Type) where
  number : Nat
  state : State
  ahead : List Handle

/-- The rules: what may be added to a log, given the notifications that have not ended, the
innermost first. -/
inductive Orderly {State : Type} : List (Incident State) → List (Round State) → Prop
  | empty : Orderly [] []
  | subscribed {log : List (Incident State)} {rounds : List (Round State)} {handle : Handle}
      (orderly : Orderly log rounds) (fresh : handle ∉ subscriptions log) :
      Orderly (log ++ [.subscribed handle]) rounds
  | cancelled {log : List (Incident State)} {rounds : List (Round State)} {handle : Handle}
      (orderly : Orderly log rounds) (known : handle ∈ subscriptions log) :
      Orderly (log ++ [.cancelled handle]) rounds
  | began {log : List (Incident State)} {rounds : List (Round State)}
      (orderly : Orderly log rounds) (state : State) :
      Orderly (log ++ [.began (begun log) state])
        (⟨begun log, state, registrations log⟩ :: rounds)
  | called {log : List (Incident State)} {rounds : List (Round State)} {number : Nat}
      {state : State} {handle : Handle} {ahead : List Handle}
      (orderly : Orderly log (⟨number, state, handle :: ahead⟩ :: rounds))
      (listens : handle ∉ cancellations log) :
      Orderly (log ++ [.called number handle state]) (⟨number, state, ahead⟩ :: rounds)
  | passed {log : List (Incident State)} {rounds : List (Round State)} {number : Nat}
      {state : State} {handle : Handle} {ahead : List Handle}
      (orderly : Orderly log (⟨number, state, handle :: ahead⟩ :: rounds))
      (gone : handle ∈ cancellations log) :
      Orderly (log ++ [.passed number handle]) (⟨number, state, ahead⟩ :: rounds)
  | ended {log : List (Incident State)} {rounds : List (Round State)} {number : Nat}
      {state : State} (orderly : Orderly log (⟨number, state, []⟩ :: rounds)) :
      Orderly (log ++ [.ended number]) rounds

namespace Orderly

variable {State : Type} {log before after : List (Incident State)} {rounds : List (Round State)}
  {number : Nat} {state : State} {handle : Handle}

/-- What the rules say of an incident, whatever notifications have not ended. -/
def Lawful (before : List (Incident State)) : Incident State → Prop
  | .subscribed handle => handle ∉ subscriptions before
  | .cancelled handle => handle ∈ subscriptions before
  | .began number _ => number = begun before
  | .called _ handle _ => handle ∉ cancellations before
  | .passed _ handle => handle ∈ cancellations before
  | .ended _ => True

theorem split_concat {incident last : Incident State} {earlier : List (Incident State)}
    (split : earlier ++ [last] = before ++ incident :: after) :
    (before = earlier ∧ incident = last ∧ after = []) ∨
      ∃ rest, after = rest ++ [last] ∧ earlier = before ++ incident :: rest := by
  rcases List.eq_nil_or_concat after with rfl | ⟨rest, final, rfl⟩
  · obtain ⟨rfl, same⟩ := List.append_inj' split rfl
    exact .inl ⟨rfl, (List.cons.inj same).1.symm, rfl⟩
  · rw [List.concat_eq_append, ← List.cons_append, ← List.append_assoc] at split
    obtain ⟨rfl, same⟩ := List.append_inj' split rfl
    refine .inr ⟨rest, ?_, rfl⟩
    rw [(List.cons.inj same).1, List.concat_eq_append]

/-- Every incident of a log was allowed by what stands before it. -/
theorem lawful (orderly : Orderly log rounds) {incident : Incident State}
    (split : log = before ++ incident :: after) : Lawful before incident := by
  induction orderly generalizing after with
  | empty => cases (List.append_ne_nil_of_right_ne_nil before (List.cons_ne_nil _ _)) split.symm
  | subscribed _ law ih | cancelled _ law ih | called _ law ih | passed _ law ih =>
    -- The incident is the last one, which its rule speaks of, or stands in the log before it.
    rcases split_concat split with ⟨rfl, rfl, -⟩ | ⟨rest, -, earlier⟩
    · exact law
    · exact ih earlier
  | began _ _ ih =>
    rcases split_concat split with ⟨rfl, rfl, -⟩ | ⟨rest, -, earlier⟩
    · exact rfl
    · exact ih earlier
  | ended _ ih =>
    rcases split_concat split with ⟨rfl, rfl, -⟩ | ⟨rest, -, earlier⟩
    · exact trivial
    · exact ih earlier

theorem cancellations_subset (orderly : Orderly log rounds) :
    cancellations log ⊆ subscriptions log := by
  intro handle gone
  obtain ⟨before, after, rfl⟩ := List.append_of_mem (mem_cancellations.mp gone)
  rw [subscriptions_append]
  exact List.mem_append_left _ (orderly.lawful rfl)

theorem nodup_subscriptions (orderly : Orderly log rounds) : (subscriptions log).Nodup := by
  induction orderly with
  | empty => exact List.nodup_nil
  | @subscribed log rounds handle _ fresh ih =>
    rw [subscriptions_concat]
    exact ih.append (List.nodup_singleton handle) (List.disjoint_singleton.mpr fresh)
  | cancelled _ _ ih | began _ _ ih | called _ _ ih | passed _ _ ih | ended _ ih =>
    simpa [subscribed?] using ih

theorem ahead_subset (orderly : Orderly log rounds) :
    ∀ round ∈ rounds, round.ahead ⊆ subscriptions log := by
  induction orderly with
  | empty => nofun
  | subscribed _ _ ih =>
    intro round member
    rw [subscriptions_concat]
    exact fun _ ahead => List.mem_append_left _ (ih round member ahead)
  | cancelled _ _ ih =>
    simpa [subscribed?] using ih
  | began _ _ ih =>
    -- The new notification has those ahead that are registered, which were subscribed.
    intro round member
    rcases List.mem_cons.mp member with rfl | outer
    · intro handle registered
      simpa [subscribed?] using (mem_registrations.mp registered).1
    · simpa [subscribed?] using ih round outer
  | called _ _ ih | passed _ _ ih =>
    intro round member
    rcases List.mem_cons.mp member with rfl | outer
    · simpa [subscribed?] using List.subset_of_cons_subset (ih _ List.mem_cons_self)
    · simpa [subscribed?] using ih round (List.mem_cons_of_mem _ outer)
  | ended _ ih =>
    intro round member
    simpa [subscribed?] using ih round (List.mem_cons_of_mem _ member)

/-- Notifications are numbered as they begin, and those that have not ended are nested. -/
structure Numbered (log : List (Incident State)) (rounds : List (Round State)) : Prop where
  begun : ∀ incident ∈ log, ∀ number, incident.number? = some number → number < begun log
  nested : rounds.Pairwise fun inner outer => outer.number < inner.number
  under_way : ∀ round ∈ rounds, round.number < Incident.begun log

theorem Numbered.concat {incident : Incident State} {next : List (Round State)}
    (numbered : Numbered log rounds) (quiet : incident.isBegan = false)
    (older : ∀ number, incident.number? = some number → number < Incident.begun log)
    (nested : next.Pairwise fun inner outer => outer.number < inner.number)
    (under_way : ∀ round ∈ next, round.number < Incident.begun log) :
    Numbered (log ++ [incident]) next := by
  have same : Incident.begun (log ++ [incident]) = Incident.begun log := by simp [quiet]
  refine ⟨?_, nested, same ▸ under_way⟩
  rw [same]
  exact List.forall_mem_append.mpr ⟨numbered.begun, List.forall_mem_singleton.mpr older⟩

theorem numbered (orderly : Orderly log rounds) : Numbered log rounds := by
  induction orderly with
  | empty => exact ⟨nofun, .nil, nofun⟩
  | subscribed _ _ ih | cancelled _ _ ih => exact ih.concat rfl nofun ih.nested ih.under_way
  | @began log rounds _ state ih =>
    have next : Incident.begun (log ++ [.began (Incident.begun log) state]) =
        Incident.begun log + 1 := begun_concat _
    refine ⟨?_, List.pairwise_cons.mpr ⟨ih.under_way, ih.nested⟩, ?_⟩ <;> rw [next]
    · refine List.forall_mem_append.mpr ⟨fun other member number part => ?_, ?_⟩
      · exact Nat.lt_succ_of_lt (ih.begun other member number part)
      · refine List.forall_mem_singleton.mpr ?_
        rintro number ⟨⟩
        exact Nat.lt_succ_self _
    · refine List.forall_mem_cons.mpr ⟨Nat.lt_succ_self _, fun round outer => ?_⟩
      exact Nat.lt_succ_of_lt (ih.under_way round outer)
  | called _ _ ih | passed _ _ ih =>
    -- A turn is part of the innermost notification, which has begun.
    obtain ⟨inner, nested⟩ := List.pairwise_cons.mp ih.nested
    obtain ⟨top, under_way⟩ := List.forall_mem_cons.mp ih.under_way
    refine ih.concat rfl ?_ (List.pairwise_cons.mpr ⟨inner, nested⟩)
      (List.forall_mem_cons.mpr ⟨top, under_way⟩)
    rintro number ⟨⟩
    exact top
  | ended _ ih =>
    obtain ⟨-, nested⟩ := List.pairwise_cons.mp ih.nested
    obtain ⟨top, under_way⟩ := List.forall_mem_cons.mp ih.under_way
    refine ih.concat rfl ?_ nested under_way
    rintro number ⟨⟩
    exact top

end Orderly
end StartPage
