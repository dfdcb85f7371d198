import Mathlib.Data.List.Nodup
import StartPage.Proofs.Listeners.Seats

/-!
Who is registered. A hub that never replaced another holds its listeners under handles of its own,
and those it calls are exactly those that were not cancelled: being registered and being active come
and go together.
-/
namespace StartPage.Hub

variable {Request : Type} {hub after : Hub Request} {handle other : Handle}

def handles (hub : Hub Request) : List Handle :=
  hub.registered.map fun serial => ⟨hub.number, serial⟩

def nextHandle (hub : Hub Request) : Handle := ⟨hub.number, hub.nextSerial⟩

def Issued (hub : Hub Request) (handle : Handle) : Prop :=
  handle.hub = hub.number ∧ handle.serial < hub.nextSerial

/-- All listeners are of this hub, and those that are active are those that are registered. -/
structure Genuine (hub : Hub Request) : Prop where
  formed : hub.WellFormed
  issued : ∀ listener ∈ hub.listeners, hub.Issued listener.handle
  active : ∀ handle, hub.isActive handle = true ↔ handle ∈ hub.handles

theorem mem_handles : handle ∈ hub.handles ↔
    handle.hub = hub.number ∧ handle.serial ∈ hub.registered := by
  rw [handles, List.mem_map]
  constructor
  · rintro ⟨serial, member, rfl⟩
    exact ⟨rfl, member⟩
  · rintro ⟨here, member⟩
    exact ⟨handle.serial, member, here ▸ rfl⟩

theorem nodup_handles (formed : hub.WellFormed) : hub.handles.Nodup := by
  have distinct : hub.registered.Nodup := formed.rising.imp Nat.ne_of_lt
  exact List.Nodup.map (fun _ _ same => congrArg Handle.serial same) distinct

theorem issued_congr (same : after.nextHandle = hub.nextHandle) :
    after.Issued handle ↔ hub.Issued handle := by
  have number : after.number = hub.number := congrArg Handle.hub same
  have serial : after.nextSerial = hub.nextSerial := congrArg Handle.serial same
  rw [Issued, Issued, number, serial]

theorem not_issued_nextHandle : ¬ hub.Issued hub.nextHandle := fun given =>
  Nat.lt_irrefl _ given.2

theorem handles_subscribe (name : String) (script : Script Request) :
    (hub.subscribe name script).handles = hub.handles ++ [hub.nextHandle] :=
  List.map_append

theorem nextHandle_cancel (handle : Handle) : (hub.cancel handle).nextHandle = hub.nextHandle := by
  rw [cancel_eq]
  rfl

theorem issued_subscribe (name : String) (script : Script Request) :
    (hub.subscribe name script).Issued handle ↔ hub.Issued handle ∨ handle = hub.nextHandle := by
  change handle.hub = hub.number ∧ handle.serial < hub.nextSerial + 1 ↔ _
  rw [Nat.lt_succ_iff_lt_or_eq, and_or_left]
  refine or_congr_right ⟨fun ⟨here, last⟩ => ?_, ?_⟩
  · rw [nextHandle, ← here, ← last]
  · rintro rfl
    exact ⟨rfl, rfl⟩

theorem handles_cancel (handle : Handle) :
    (hub.cancel handle).handles = hub.handles.filter (· ≠ handle) := by
  rw [handles, cancel_eq]
  change List.map (fun serial => (⟨hub.number, serial⟩ : Handle)) (if _ then _ else _) = _
  split
  case isTrue here =>
    rw [handles, List.filter_map]
    refine congrArg _ (List.filter_congr fun serial _ => ?_)
    obtain ⟨number, serial'⟩ := handle
    cases here
    simp [bne, BEq.beq]
  case isFalse elsewhere =>
    -- The handle is of another hub, so it is none of these.
    refine (List.filter_eq_self.mpr fun other member => ?_).symm
    refine decide_eq_true fun same => elsewhere ?_
    rw [← same]
    exact (mem_handles.mp member).1

theorem isSome_find?_update {change : Listener Request → Listener Request}
    (same : ∀ listener, (change listener).handle = listener.handle) :
    ((hub.update handle change).find? other).isSome = (hub.find? other).isSome := by
  rw [find?_update handle other same, Option.isSome_map]

theorem isSome_find?_cancel :
    ((hub.cancel handle).find? other).isSome = (hub.find? other).isSome := by
  rw [find?_cancel, Option.isSome_map]

theorem isSome_find?_subscribe (name : String) (script : Script Request) :
    ((hub.subscribe name script).find? handle).isSome = true ↔
      (hub.find? handle).isSome = true ∨ handle = hub.nextHandle := by
  rw [find?, Hub.subscribe, List.find?_append, Option.isSome_or, Bool.or_eq_true]
  exact or_congr_right (by simpa [nextHandle] using eq_comm)

theorem isActive_subscribe_new (name : String) (script : Script Request)
    (unknown : hub.find? hub.nextHandle = none) :
    (hub.subscribe name script).isActive hub.nextHandle = true := by
  rw [Hub.find?, nextHandle] at unknown
  simp [isActive, Hub.find?, Hub.subscribe, unknown, nextHandle]

theorem forall_handle_update {P : Handle → Prop}
    (known : ∀ listener ∈ hub.listeners, P listener.handle) (handle : Handle)
    {change : Listener Request → Listener Request}
    (same : ∀ listener, (change listener).handle = listener.handle) :
    ∀ listener ∈ (hub.update handle change).listeners, P listener.handle := by
  intro listener member
  obtain ⟨older, inside, rfl⟩ := List.mem_map.mp member
  have given := known older inside
  split
  · rw [same]
    exact given
  · exact given

theorem genuine_empty : (empty : Hub Request).Genuine :=
  ⟨wellFormed_empty, nofun, fun _ => ⟨nofun, nofun⟩⟩

theorem Genuine.find?_eq_none (genuine : hub.Genuine) (strange : ¬ hub.Issued handle) :
    hub.find? handle = none := by
  rw [find?, List.find?_eq_none]
  intro listener member same
  exact strange (eq_of_beq same ▸ genuine.issued listener member)

theorem Genuine.find? (genuine : hub.Genuine) (member : handle ∈ hub.handles) :
    ∃ listener ∈ hub.listeners, hub.find? handle = some listener ∧ listener.active = true := by
  have active := (genuine.active handle).mpr member
  rw [isActive, Option.any_eq_true] at active
  obtain ⟨listener, found, active⟩ := active
  exact ⟨listener, List.mem_of_find?_eq_some found, found, active⟩

theorem Genuine.update (genuine : hub.Genuine) {change : Listener Request → Listener Request}
    (same : ∀ listener, (change listener).handle = listener.handle)
    (active : ∀ other, (hub.update handle change).isActive other = hub.isActive other) :
    (hub.update handle change).Genuine where
  formed := genuine.formed.update handle change
  issued := forall_handle_update genuine.issued handle same
  active other := by
    rw [active]
    exact genuine.active other

theorem Genuine.script (genuine : hub.Genuine) (handle : Handle) :
    (hub.update handle fun listener => { listener with script := listener.script.tail }).Genuine :=
  genuine.update (fun _ => rfl) fun other => isActive_script handle other

theorem Genuine.cancel (genuine : hub.Genuine) (handle : Handle) : (hub.cancel handle).Genuine where
  formed := genuine.formed.cancel handle
  issued := by
    rw [cancel_eq]
    exact forall_handle_update genuine.issued handle fun _ => rfl
  active other := by
    rw [isActive_cancel, handles_cancel, List.mem_filter, Bool.and_eq_true, genuine.active]

theorem Genuine.subscribe (genuine : hub.Genuine) (name : String) (script : Script Request) :
    (hub.subscribe name script).Genuine where
  formed := genuine.formed.subscribe name script
  issued := by
    intro listener member
    rcases List.mem_append.mp member with older | last
    · obtain ⟨here, given⟩ := genuine.issued listener older
      exact ⟨here, Nat.lt_succ_of_lt given⟩
    · rw [List.mem_singleton.mp last]
      exact ⟨rfl, Nat.lt_succ_self _⟩
  active other := by
    rw [handles_subscribe, List.mem_append, List.mem_singleton]
    by_cases fresh : other = hub.nextHandle
    · have unknown := genuine.find?_eq_none not_issued_nextHandle
      subst fresh
      simp [isActive_subscribe_new name script unknown]
    · rw [isActive_subscribe_other name script fresh, genuine.active]
      exact ⟨.inl, fun known => known.resolve_right fresh⟩

theorem Genuine.forget (genuine : hub.Genuine) (name : String) : (hub.forget name).Genuine :=
  ⟨genuine.formed.forget name, genuine.issued, genuine.active⟩

end StartPage.Hub
