import Mathlib.Algebra.GroupWithZero.Nat
import Mathlib.Algebra.Order.BigOperators.Group.List
import Mathlib.Algebra.Order.Group.Nat
import Mathlib.Data.List.Basic
import StartPage.Listeners

/-!
The place of a listener among the others. Serial numbers only grow, so the listeners of a hub are
called in the order of their subscription, and as long as a listener is not cancelled it keeps its
place: nobody comes before it who was not there before. Its activity ends once and for all.
-/
namespace StartPage.Hub

variable {Request : Type} {hub after : Hub Request} {handle : Handle} {front : List Nat}

/-- Registrations rise and were all handed out. -/
structure WellFormed (hub : Hub Request) : Prop where
  rising : hub.registered.Pairwise (· < ·)
  issued : ∀ serial ∈ hub.registered, serial < hub.nextSerial

/-- What a listener can do to its hub: a call uses up an entry of its script, and its reactions
cancel and subscribe. -/
inductive Change (hub : Hub Request) : Hub Request → Prop where
  | script (handle : Handle) :
      Change hub (hub.update handle fun listener => { listener with script := listener.script.tail })
  | cancel (name : String) : Change hub (hub.cancelNamed name)
  | subscribe (name : String) (script : Script Request) : Change hub (hub.subscribe name script)

/-- The listener of the handle was subscribed and, unless it was cancelled, is called once in every
announcement, with none but some of those in front before it. -/
structure Seated (front : List Nat) (handle : Handle) (hub : Hub Request) : Prop where
  number : hub.number = handle.hub
  issued : handle.serial < hub.nextSerial
  seat : hub.isActive handle = true → ∃ before back,
    hub.registered = before ++ handle.serial :: back ∧ before ⊆ front ∧
      handle.serial ∉ before ∧ handle.serial ∉ back

theorem cancel_eq (hub : Hub Request) (handle : Handle) :
    hub.cancel handle =
      { hub.update handle fun listener => { listener with active := false } with
        registered :=
          if handle.hub = hub.number then hub.registered.filter fun serial => serial != handle.serial
          else hub.registered } := by
  unfold cancel
  by_cases here : handle.hub = hub.number
  · rw [if_pos here]
    exact if_pos here
  · rw [if_neg here]
    exact if_neg here

section WellFormed

theorem wellFormed_empty : (empty : Hub Request).WellFormed := ⟨.nil, nofun⟩

theorem WellFormed.update (formed : hub.WellFormed) (handle : Handle)
    (change : Listener Request → Listener Request) : (hub.update handle change).WellFormed :=
  ⟨formed.rising, formed.issued⟩

theorem WellFormed.subscribe (formed : hub.WellFormed) (name : String) (script : Script Request) :
    (hub.subscribe name script).WellFormed where
  rising := by
    refine List.pairwise_append.mpr ⟨formed.rising, List.pairwise_singleton _ _, ?_⟩
    intro serial member next last
    rw [List.mem_singleton.mp last]
    exact formed.issued serial member
  issued := by
    intro serial member
    rcases List.mem_append.mp member with older | last
    · exact Nat.lt_succ_of_lt (formed.issued serial older)
    · rw [List.mem_singleton.mp last]
      exact Nat.lt_succ_self _

theorem WellFormed.cancel (formed : hub.WellFormed) (handle : Handle) :
    (hub.cancel handle).WellFormed := by
  rw [cancel_eq]
  dsimp only
  split
  · exact ⟨formed.rising.filter _, fun serial member =>
      formed.issued serial (List.mem_filter.mp member).1⟩
  · exact ⟨formed.rising, formed.issued⟩

theorem WellFormed.cancelNamed (formed : hub.WellFormed) (name : String) :
    (hub.cancelNamed name).WellFormed := by
  unfold Hub.cancelNamed
  split
  · exact formed.cancel _
  · exact formed

theorem WellFormed.forget (formed : hub.WellFormed) (name : String) :
    (hub.forget name).WellFormed := ⟨formed.rising, formed.issued⟩

theorem Change.wellFormed (change : hub.Change after) (formed : hub.WellFormed) :
    after.WellFormed := by
  cases change with
  | script => exact formed.update _ _
  | cancel => exact formed.cancelNamed _
  | subscribe => exact formed.subscribe _ _

theorem WellFormed.seated (formed : hub.WellFormed) {serial : Nat} {back : List Nat}
    (registered : hub.registered = front ++ serial :: back) :
    hub.Seated front ⟨hub.number, serial⟩ where
  number := rfl
  issued := formed.issued serial (registered ▸ List.mem_append_right _ List.mem_cons_self)
  seat := by
    have rising := formed.rising
    rw [registered] at rising
    obtain ⟨-, behind, between⟩ := List.pairwise_append.mp rising
    refine fun _ => ⟨front, back, registered, List.Subset.refl _, ?_, ?_⟩
    · intro member
      exact Nat.lt_irrefl _ (between serial member serial List.mem_cons_self)
    · intro member
      exact Nat.lt_irrefl _ ((List.pairwise_cons.mp behind).1 serial member)

end WellFormed

section Activity

theorem find?_update (handle other : Handle) {change : Listener Request → Listener Request}
    (same : ∀ listener, (change listener).handle = listener.handle) :
    (hub.update handle change).find? other =
      (hub.find? other).map fun listener =>
        if listener.handle = handle then change listener else listener := by
  have handles : ((fun listener : Listener Request => listener.handle == other) ∘
      fun listener => if listener.handle = handle then change listener else listener) =
      fun listener => listener.handle == other := by
    funext listener
    dsimp only [Function.comp_apply]
    split
    · rw [same]
    · rfl
  unfold find? update
  rw [List.find?_map, handles]

theorem find?_handle {listener : Listener Request} (found : hub.find? handle = some listener) :
    listener.handle = handle := by
  simpa using List.find?_some found

theorem isActive_script (handle other : Handle) :
    (hub.update handle fun listener => { listener with script := listener.script.tail }).isActive
      other = hub.isActive other := by
  unfold isActive
  rw [find?_update handle other]
  · cases hub.find? other with
    | none => rfl
    | some listener =>
      simp only [Option.map_some, Option.any_some]
      split <;> rfl
  · exact fun _ => rfl

theorem find?_cancel (handle other : Handle) :
    (hub.cancel handle).find? other =
      (hub.find? other).map fun listener =>
        if listener.handle = handle then { listener with active := false } else listener := by
  rw [cancel_eq]
  exact find?_update handle other fun _ => rfl

theorem isActive_cancel (other : Handle) :
    (hub.cancel handle).isActive other = (hub.isActive other && decide (other ≠ handle)) := by
  unfold isActive
  rw [find?_cancel]
  cases found : hub.find? other with
  | none => rfl
  | some listener =>
    have named := find?_handle found
    simp only [Option.map_some, Option.any_some, named]
    split <;> simp [*]

theorem isActive_subscribe_other (name : String) (script : Script Request)
    (other : handle ≠ ⟨hub.number, hub.nextSerial⟩) :
    (hub.subscribe name script).isActive handle = hub.isActive handle := by
  have apart : ((⟨hub.number, hub.nextSerial⟩ : Handle) == handle) = false :=
    beq_eq_false_iff_ne.mpr (Ne.symm other)
  simp [isActive, Hub.find?, Hub.subscribe, apart]

theorem isActive_subscribe (name : String) (script : Script Request)
    (older : handle.serial < hub.nextSerial) :
    (hub.subscribe name script).isActive handle = hub.isActive handle := by
  apply isActive_subscribe_other
  rintro rfl
  exact Nat.lt_irrefl _ older

end Activity

section Seats

theorem Seated.update (seated : hub.Seated front handle) {other : Handle}
    {change : Listener Request → Listener Request}
    (active : (hub.update other change).isActive handle = true → hub.isActive handle = true) :
    (hub.update other change).Seated front handle :=
  ⟨seated.number, seated.issued, fun still => seated.seat (active still)⟩

theorem Seated.subscribe (seated : hub.Seated front handle) (name : String)
    (script : Script Request) : (hub.subscribe name script).Seated front handle where
  number := seated.number
  issued := Nat.lt_succ_of_lt seated.issued
  seat := by
    intro active
    rw [isActive_subscribe name script seated.issued] at active
    obtain ⟨before, back, registered, within, ahead, behind⟩ := seated.seat active
    refine ⟨before, back ++ [hub.nextSerial], ?_, within, ahead, ?_⟩
    · change hub.registered ++ [hub.nextSerial] = _
      rw [registered, List.append_assoc, List.cons_append]
    · rw [List.mem_append, List.mem_singleton, not_or]
      exact ⟨behind, Nat.ne_of_lt seated.issued⟩

theorem Seated.cancel (seated : hub.Seated front handle) (other : Handle) :
    (hub.cancel other).Seated front handle := by
  refine ⟨?_, ?_, fun active => ?_⟩
  · rw [cancel_eq]
    exact seated.number
  · rw [cancel_eq]
    exact seated.issued
  · rw [isActive_cancel, Bool.and_eq_true_iff, decide_eq_true_eq] at active
    obtain ⟨active, different⟩ := active
    obtain ⟨before, back, registered, within, ahead, behind⟩ := seated.seat active
    rw [cancel_eq]
    dsimp only
    split
    · rename_i here
      let kept (serial : Nat) : Bool := serial != other.serial
      -- Both handles are of this hub, so their serial numbers differ.
      have stays : kept handle.serial = true := by
        refine bne_iff_ne.mpr fun same => different ?_
        cases handle
        cases other
        exact congrArg₂ Handle.mk (seated.number.symm.trans here.symm) same
      refine ⟨before.filter kept, back.filter kept, ?_, ?_, ?_, ?_⟩
      · rw [registered, List.filter_append, List.filter_cons_of_pos stays]
      · exact fun serial member => within (List.mem_filter.mp member).1
      · exact fun member => ahead (List.mem_filter.mp member).1
      · exact fun member => behind (List.mem_filter.mp member).1
    · exact ⟨before, back, registered, within, ahead, behind⟩

/-- Whatever listeners do, a seat is kept, and nobody becomes active again. -/
theorem Change.seated (change : hub.Change after) (seated : hub.Seated front handle) :
    after.Seated front handle ∧ (after.isActive handle = true → hub.isActive handle = true) := by
  cases change with
  | script other =>
    rw [isActive_script]
    exact ⟨seated.update fun active => isActive_script other handle ▸ active, id⟩
  | subscribe name script =>
    rw [isActive_subscribe name script seated.issued]
    exact ⟨seated.subscribe name script, id⟩
  | cancel name =>
    unfold cancelNamed
    split
    · refine ⟨seated.cancel _, ?_⟩
      rw [isActive_cancel, Bool.and_eq_true_iff]
      exact And.left
    · exact ⟨seated, id⟩

end Seats

section Commits

theorem commitsOfScript_split (script : Script Request) :
    commitsOfScript script.tail + commitsOfCall (script.headD []) = commitsOfScript script := by
  cases script with
  | nil => rfl
  | cons call rest => exact Nat.add_comm _ _

theorem commits_eq_sum (hub : Hub Request) :
    hub.commits = (hub.listeners.map fun listener => commitsOfScript listener.script).sum := by
  unfold commits
  induction hub.listeners with
  | nil => rfl
  | cons first rest ih => rw [List.foldr_cons, ih, List.map_cons, List.sum_cons]

theorem commits_script {listener : Listener Request} (found : hub.find? handle = some listener) :
    (hub.update handle fun listener => { listener with script := listener.script.tail }).commits +
      commitsOfCall (listener.script.headD []) ≤ hub.commits := by
  obtain ⟨-, earlier, later, listeners, -⟩ := List.find?_eq_some_iff_append.mp found
  let left (listener : Listener Request) : Nat :=
    commitsOfScript
      (if listener.handle = handle then { listener with script := listener.script.tail }
        else listener).script
  have less : ∀ listener, left listener ≤ commitsOfScript listener.script := by
    intro listener
    have whole := commitsOfScript_split listener.script
    simp only [left]
    split
    · change commitsOfScript listener.script.tail ≤ _
      omega
    · exact Nat.le_refl _
  have front := List.sum_le_sum fun listener (_ : listener ∈ earlier) => less listener
  have back := List.sum_le_sum fun listener (_ : listener ∈ later) => less listener
  have called : left listener = commitsOfScript listener.script.tail :=
    congrArg (fun listener : Listener Request => commitsOfScript listener.script)
      (if_pos (find?_handle found))
  have whole := commitsOfScript_split listener.script
  have after : (hub.update handle fun listener =>
      { listener with script := listener.script.tail }).commits = (hub.listeners.map left).sum := by
    rw [commits_eq_sum, update, List.map_map]
    rfl
  rw [after, commits_eq_sum, listeners]
  simp only [List.map_append, List.map_cons, List.sum_append, List.sum_cons]
  omega

theorem commits_cancel (handle : Handle) : (hub.cancel handle).commits = hub.commits := by
  have scripts : ∀ listener : Listener Request,
      (if listener.handle = handle then { listener with active := false } else listener).script =
        listener.script := by
    intro listener
    split <;> rfl
  rw [cancel_eq, commits_eq_sum, commits_eq_sum]
  simp only [update, List.map_map, Function.comp_def, scripts]

theorem commits_cancelNamed (name : String) : (hub.cancelNamed name).commits = hub.commits := by
  unfold cancelNamed
  split
  · exact commits_cancel _
  · rfl

theorem commits_subscribe (name : String) (script : Script Request) :
    (hub.subscribe name script).commits = hub.commits + commitsOfScript script := by
  rw [commits_eq_sum, commits_eq_sum, Hub.subscribe]
  simp

end Commits

end StartPage.Hub
