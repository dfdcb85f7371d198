import Mathlib.Data.List.Nodup
import StartPage.Proofs.Listeners.Rounds

/-!
What becomes of a notification. From its beginning on it is followed through the log: the turns it
has given and those it still has to give are the listeners registered at first, and nothing else has
happened meanwhile but to notifications that began later. Once it has ended nothing more is said of
it. So where none is under way, each has gone through.
-/
namespace StartPage

open Incident

namespace Orderly

variable {State : Type} {log before after : List (Incident State)} {rounds : List (Round State)}
  {number : Nat} {state : State} {handle : Handle}

/-- What a log holds of a notification since it began, if so many turns are still to come. -/
structure Conducts (before : List (Incident State)) (number : Nat) (state : State)
    (ahead : List Handle) (since : List (Incident State)) : Prop where
  turns : visits number since ++ ahead = registrations before
  told : ∀ handle other, .called number handle other ∈ since → other = state
  within : ∀ incident ∈ since, ∀ other, incident.number? = some other → number ≤ other
  fresh : ∀ incident ∈ before, incident.number? ≠ some number

section Conducts

variable {since : List (Incident State)} {ahead : List Handle} {incident : Incident State}

theorem Conducts.foreign (conducts : Conducts before number state ahead since)
    (inner : ∀ other, incident.number? = some other → number < other) :
    Conducts before number state ahead (since ++ [incident]) where
  turns := by
    have unseen : incident.visited? number = none := by
      cases incident with
      | called other | passed other => exact if_neg (Nat.ne_of_gt (inner other rfl))
      | _ => rfl
    rw [visits_concat, unseen]
    simpa using conducts.turns
  told handle other member := by
    rcases List.mem_append.mp member with earlier | last
    · exact conducts.told handle other earlier
    · -- A call would be part of the notification itself.
      obtain rfl := List.mem_singleton.mp last
      exact absurd (inner number rfl) (Nat.lt_irrefl number)
  within := List.forall_mem_append.mpr ⟨conducts.within,
    List.forall_mem_singleton.mpr fun other part => Nat.le_of_lt (inner other part)⟩
  fresh := conducts.fresh

theorem Conducts.turn (conducts : Conducts before number state (handle :: ahead) since)
    (part : incident.number? = some number) (visited : incident.visited? number = some handle)
    (told : ∀ handle other, incident = .called number handle other → other = state) :
    Conducts before number state ahead (since ++ [incident]) where
  turns := by
    rw [visits_concat, visited]
    simpa using conducts.turns
  told handle other member := by
    rcases List.mem_append.mp member with earlier | last
    · exact conducts.told handle other earlier
    · exact told handle other (List.mem_singleton.mp last).symm
  within := List.forall_mem_append.mpr ⟨conducts.within, List.forall_mem_singleton.mpr
    fun _ same => Nat.le_of_eq (Option.some.inj (part.symm.trans same))⟩
  fresh := conducts.fresh

end Conducts

def UnderWay (log : List (Incident State)) (round : Round State) : Prop :=
  ∃ before since, log = before ++ .began round.number round.state :: since ∧
    Conducts before round.number round.state round.ahead since

def Over (log : List (Incident State)) (number : Nat) : Prop :=
  ∃ before state inside later,
    log = before ++ .began number state :: (inside ++ .ended number :: later) ∧
      Conducts before number state [] inside ∧ ∀ incident ∈ later, incident.number? ≠ some number

theorem UnderWay.concat {round : Round State} {incident : Incident State}
    (underWay : UnderWay log round)
    (inner : ∀ other, incident.number? = some other → round.number < other) :
    UnderWay (log ++ [incident]) round := by
  obtain ⟨before, since, rfl, conducts⟩ := underWay
  exact ⟨before, since ++ [incident], by simp, conducts.foreign inner⟩

theorem Over.concat {incident : Incident State} (past : Over log number)
    (apart : incident.number? ≠ some number) : Over (log ++ [incident]) number := by
  obtain ⟨before, state, inside, later, rfl, conducts, gone⟩ := past
  exact ⟨before, state, inside, later ++ [incident], by simp, conducts,
    List.forall_mem_append.mpr ⟨gone, List.forall_mem_singleton.mpr apart⟩⟩

structure Followed (log : List (Incident State)) (rounds : List (Round State)) : Prop where
  under_way : ∀ round ∈ rounds, UnderWay log round
  past : ∀ number < Incident.begun log, (∀ round ∈ rounds, round.number ≠ number) →
    Over log number

theorem Followed.turn {ahead : List Handle} {incident : Incident State}
    (followed : Followed log (⟨number, state, handle :: ahead⟩ :: rounds))
    (numbered : Numbered log (⟨number, state, handle :: ahead⟩ :: rounds))
    (part : incident.number? = some number) (visited : incident.visited? number = some handle)
    (quiet : incident.isBegan = false)
    (told : ∀ handle other, incident = .called number handle other → other = state) :
    Followed (log ++ [incident]) (⟨number, state, ahead⟩ :: rounds) where
  under_way := by
    obtain ⟨top, outer⟩ := List.forall_mem_cons.mp followed.under_way
    refine List.forall_mem_cons.mpr ⟨?_, fun round member => ?_⟩
    · obtain ⟨before, since, rfl, conducts⟩ := top
      exact ⟨before, since ++ [incident], by simp, conducts.turn part visited told⟩
    · refine (outer round member).concat fun other same => ?_
      cases part.symm.trans same
      exact (List.pairwise_cons.mp numbered.nested).1 round member
  past other below apart := by
    rw [begun_concat, quiet] at below
    obtain ⟨top, outer⟩ := List.forall_mem_cons.mp apart
    refine (followed.past other below (List.forall_mem_cons.mpr ⟨top, outer⟩)).concat ?_
    rw [part]
    exact fun same => top (Option.some.inj same)

theorem followed (orderly : Orderly log rounds) : Followed log rounds := by
  induction orderly with
  | empty => exact ⟨nofun, nofun⟩
  | subscribed _ _ ih | cancelled _ _ ih =>
    refine ⟨fun round member => (ih.under_way round member).concat nofun,
      fun number below apart => ?_⟩
    rw [begun_concat] at below
    exact (ih.past number below apart).concat nofun
  | @began log rounds orderly state ih =>
    -- The number is a new one, so nothing noted so far is part of what begins.
    have numbered := orderly.numbered
    constructor
    · refine List.forall_mem_cons.mpr ⟨⟨log, [], rfl, ?_⟩, fun round member => ?_⟩
      · refine ⟨rfl, nofun, nofun, fun incident member part => ?_⟩
        exact Nat.lt_irrefl _ (numbered.begun incident member _ part)
      · refine (ih.under_way round member).concat ?_
        rintro other ⟨⟩
        exact numbered.under_way round member
    · intro number below apart
      obtain ⟨new, outer⟩ := List.forall_mem_cons.mp apart
      have older : number < Incident.begun log := by
        rw [begun_concat] at below
        exact Nat.lt_of_le_of_ne (Nat.le_of_lt_succ below) (Ne.symm new)
      exact (ih.past number older outer).concat fun same => new (Option.some.inj same)
  | called orderly _ ih =>
    refine ih.turn orderly.numbered rfl (if_pos rfl) rfl ?_
    rintro handle other ⟨⟩
    rfl
  | passed orderly _ ih => exact ih.turn orderly.numbered rfl (if_pos rfl) rfl nofun
  | @ended log rounds number state orderly ih =>
    -- The innermost is over now, the others stay what they were.
    obtain ⟨top, outer⟩ := List.forall_mem_cons.mp ih.under_way
    refine ⟨fun round member => (outer round member).concat ?_, fun other below apart => ?_⟩
    · rintro part ⟨⟩
      exact (List.pairwise_cons.mp orderly.numbered.nested).1 round member
    · by_cases same : number = other
      · subst same
        obtain ⟨before, since, rfl, conducts⟩ := top
        exact ⟨before, state, since, [], by simp, conducts, nofun⟩
      · rw [begun_concat] at below
        have past := ih.past other below (List.forall_mem_cons.mpr ⟨same, apart⟩)
        exact past.concat fun part => same (Option.some.inj part)

theorem eq_nil_of_began {between rest later : List (Incident State)}
    (none : Incident.begun between = 0) (split : .began number state :: later = between ++ rest) :
    between = [] := by
  cases between with
  | nil => rfl
  | cons first others =>
    obtain ⟨rfl, -⟩ := List.cons.inj split
    simp [Incident.begun, isBegan] at none

theorem split_unique {number' : Nat} {state' : State} {before' after' : List (Incident State)}
    (same : before ++ .began number state :: after = before' ++ .began number' state' :: after')
    (equal : Incident.begun before = Incident.begun before') :
    before = before' ∧ state = state' ∧ after = after' := by
  rcases List.append_eq_append_iff.mp same with ⟨between, rfl, split⟩ | ⟨between, rfl, split⟩
  · rw [begun_append] at equal
    obtain rfl := eq_nil_of_began (by omega) split
    obtain ⟨first, rest⟩ := List.cons.inj split
    cases first
    exact ⟨(List.append_nil _).symm, rfl, rest⟩
  · rw [begun_append] at equal
    obtain rfl := eq_nil_of_began (by omega) split
    obtain ⟨first, rest⟩ := List.cons.inj split
    cases first
    exact ⟨List.append_nil _, rfl, rest.symm⟩

end Orderly

/-- One notification from its beginning to its end, and what stands before and after it in the
log. -/
structure Entire {State : Type} (before : List (Incident State)) (number : Nat) (state : State)
    (inside later : List (Incident State)) : Prop where
  /-- It visits the listeners that were registered when it began, in the order of subscription. -/
  visits : visits number inside = registrations before
  once : (Incident.visits number inside).Nodup
  told : ∀ handle other, .called number handle other ∈ inside → other = state
  /-- What begins meanwhile also ends, without another listener being visited. -/
  nested : ∀ first other state' rest, inside = first ++ .began other state' :: rest →
    ∃ within further, rest = within ++ .ended other :: further ∧
      Incident.visits number within = []
  apart : ∀ incident ∈ before ++ later, incident.number? ≠ some number
  newcomers : ∀ handle, .subscribed handle ∈ inside ++ later →
    handle ∉ Incident.visits number inside

/-- All notifications of a log go through, to the listeners that they should reach. -/
structure Conducted {State : Type} (log : List (Incident State)) : Prop where
  entire : ∀ before number state after, log = before ++ .began number state :: after →
    ∃ inside later, after = inside ++ .ended number :: later ∧
      Entire before number state inside later
  /-- Those are passed over who were cancelled before their turn, and no others. -/
  called : ∀ before number handle state after,
    log = before ++ .called number handle state :: after → handle ∉ cancellations before
  passed : ∀ before number handle after, log = before ++ .passed number handle :: after →
    handle ∈ cancellations before
  silent : ∀ before handle after, log = before ++ .cancelled handle :: after →
    ∀ number state, .called number handle state ∉ after

namespace Orderly

variable {State : Type} {log before after : List (Incident State)} {number : Nat} {state : State}

theorem past (orderly : Orderly log []) (split : log = before ++ .began number state :: after) :
    ∃ inside later, after = inside ++ .ended number :: later ∧
      Conducts before number state [] inside ∧
      ∀ incident ∈ later, incident.number? ≠ some number := by
  have counted : number = Incident.begun before := orderly.lawful split
  have below : number < Incident.begun log := by
    rw [split, begun_append, counted]
    simp [Incident.begun, isBegan]
  obtain ⟨before', state', inside, later, whole, conducts, gone⟩ :=
    orderly.followed.past number below fun _ member => absurd member List.not_mem_nil
  have counted' : number = Incident.begun before' := orderly.lawful whole
  obtain ⟨rfl, rfl, rfl⟩ := split_unique (split.symm.trans whole) (counted.symm.trans counted')
  exact ⟨inside, later, rfl, conducts, gone⟩

theorem visits_eq_nil {within : List (Incident State)} {other : Nat} (inner : number < other)
    (above : ∀ incident ∈ within, ∀ part, incident.number? = some part → other ≤ part) :
    Incident.visits number within = [] := by
  refine List.filterMap_eq_nil_iff.mpr fun incident member => ?_
  have bound := above incident member
  cases incident with
  | called part | passed part =>
    have least := bound part rfl
    exact if_neg (by omega)
  | _ => rfl

/-- What began inside a notification has a higher number, so it ends before anything more is part of
the one around it. -/
theorem nested_over {first rest later : List (Incident State)} {other : Nat} {state' : State}
    (orderly : Orderly log [])
    (split : log = before ++ .began number state ::
      ((first ++ .began other state' :: rest) ++ .ended number :: later))
    (conducts : Conducts before number state [] (first ++ .began other state' :: rest)) :
    ∃ within further, rest = within ++ .ended other :: further ∧
      Incident.visits number within = [] := by
  have deeper : log = (before ++ .began number state :: first) ++
      .began other state' :: (rest ++ .ended number :: later) := by simpa using split
  obtain ⟨within, later', same, inner, -⟩ := orderly.past deeper
  have less : number < other := by
    have least := conducts.within (.began other state') (by simp) other rfl
    refine Nat.lt_of_le_of_ne least fun equal => ?_
    exact inner.fresh (.began number state) (by simp) (congrArg some equal)
  have apart : (.ended number : Incident State) ≠ .ended other := fun equal => by
    cases equal
    exact Nat.lt_irrefl _ less
  have quiet := visits_eq_nil less inner.within
  -- Either end may stand first in the log; that of the outer one cannot, having the lower number.
  rcases List.append_eq_append_iff.mp same with ⟨between, rfl, ends⟩ | ⟨between, rfl, ends⟩
  · cases between with
    | nil => exact absurd (List.cons.inj ends).1 apart
    | cons last others =>
      obtain ⟨rfl, -⟩ := List.cons.inj ends
      exact absurd (inner.within (.ended number) (by simp) number rfl) (Nat.not_le_of_lt less)
  · cases between with
    | nil => exact absurd (List.cons.inj ends).1.symm apart
    | cons last others =>
      obtain ⟨rfl, -⟩ := List.cons.inj ends
      exact ⟨within, others, rfl, quiet⟩

theorem fresh_of_subscribed {handle : Handle} {rounds : List (Round State)}
    (orderly : Orderly log rounds) (split : log = before ++ after)
    (member : .subscribed handle ∈ after) : handle ∉ subscriptions before := by
  obtain ⟨first, rest, rfl⟩ := List.append_of_mem member
  rw [← List.append_assoc] at split
  have fresh : handle ∉ subscriptions (before ++ first) := orderly.lawful split
  rw [subscriptions_append] at fresh
  exact fun older => fresh (List.mem_append_left _ older)

theorem listens_of_called {handle : Handle} {rounds : List (Round State)}
    (orderly : Orderly log rounds) (split : log = before ++ after)
    (member : .called number handle state ∈ after) : handle ∉ cancellations before := by
  obtain ⟨first, rest, rfl⟩ := List.append_of_mem member
  rw [← List.append_assoc] at split
  have listens : handle ∉ cancellations (before ++ first) := orderly.lawful split
  rw [cancellations_append] at listens
  exact fun gone => listens (List.mem_append_left _ gone)

theorem conducted (orderly : Orderly log []) : Conducted log where
  entire before number state after split := by
    obtain ⟨inside, later, rfl, conducts, gone⟩ := orderly.past split
    have visits : Incident.visits number inside = registrations before := by
      simpa using conducts.turns
    have distinct : (subscriptions before).Nodup := by
      have whole := orderly.nodup_subscriptions
      rw [split, subscriptions_append] at whole
      exact whole.of_append_left
    refine ⟨inside, later, rfl, visits, visits ▸ distinct.filter _, conducts.told, ?_, ?_, ?_⟩
    · rintro first other state' rest rfl
      exact nested_over orderly split conducts
    · exact List.forall_mem_append.mpr ⟨conducts.fresh, gone⟩
    · -- The listeners that are visited were subscribed before the notification began.
      intro handle member visited
      have older := (mem_registrations.mp (visits ▸ visited)).1
      exact orderly.fresh_of_subscribed split (by simpa using member) older
  called before number handle state after split := orderly.lawful split
  passed before number handle after split := orderly.lawful split
  silent before handle after split number state member := by
    have split : log = (before ++ [.cancelled handle]) ++ after := by simpa using split
    exact orderly.listens_of_called split member (mem_cancellations.mpr (by simp))

end Orderly
end StartPage
