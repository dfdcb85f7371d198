import StartPage.Listeners.Announcement
import StartPage.Proofs.Listeners.Seats

/-!
What a listener has heard when everyone was told. An announcement goes on with the value it began
with, though a listener may commit meanwhile; the announcement of that commit is finished first. So
a listener hears the newest state in any case, and hears it last unless one that is called before it
has committed.
-/
namespace StartPage.Audience

variable {Host Request State Answer : Type}

/-- What a commit announces, in terms of what can be seen of the host: what is new, or nothing. A
refused request has nothing to announce. -/
structure Announces (commit : Commit Host Request State Answer) (view : Host → State)
    (refused : Answer → Prop) : Prop where
  announced : ∀ host request, ∀ state ∈ (commit host request).2.1,
    state = view (commit host request).1
  silent : ∀ host request, (commit host request).2.1 = none →
    view (commit host request).1 = view host
  refused : ∀ host request, refused (commit host request).2.2 → (commit host request).2.1 = none

def delivered (handle : Handle) (events : List (Heard State Answer)) : List State :=
  events.filterMap fun
    | .delivered listener _ state => if listener = handle then some state else none
    | .answered .. => none

/-- Of the listeners in front nobody asked for a commit that was not refused. -/
def Silent (refused : Answer → Prop) (hub : Nat) (front : List Nat)
    (events : List (Heard State Answer)) : Prop :=
  ∀ serial ∈ front, ∀ name answer, .answered ⟨hub, serial⟩ name answer ∈ events → refused answer

/-- With what it is about to hear, a listener has heard the state as it is now, and heard it last
unless one of those in front committed. -/
structure Abreast (refused : Answer → Prop) (front : List Nat) (handle : Handle)
    (events : List (Heard State Answer)) (coming : List State) (state : State) : Prop where
  reached : state ∈ delivered handle events ++ coming
  last : Silent refused handle.hub front events →
    (delivered handle events ++ coming).getLast? = some state

section Delivered

variable {handle listener : Handle} {refused : Answer → Prop} {front : List Nat} {hub : Nat}
variable {events told : List (Heard State Answer)} {coming : List State} {state newer : State}

theorem delivered_append (events told : List (Heard State Answer)) :
    delivered handle (events ++ told) = delivered handle events ++ delivered handle told :=
  List.filterMap_append

@[simp] theorem delivered_answered (listener : Handle) (name : String) (answer : Answer) :
    delivered handle [(.answered listener name answer : Heard State Answer)] = [] := rfl

@[simp] theorem delivered_self (name : String) (state : State) :
    delivered handle [(.delivered handle name state : Heard State Answer)] = [state] := by
  simp [delivered]

theorem delivered_other (other : listener ≠ handle) (name : String) (state : State) :
    delivered handle [(.delivered listener name state : Heard State Answer)] = [] := by
  simp [delivered, other]

theorem Silent.left (silent : Silent refused hub front (events ++ told)) :
    Silent refused hub front events :=
  fun serial member name answer asked =>
    silent serial member name answer (List.mem_append_left _ asked)

theorem Silent.right (silent : Silent refused hub front (events ++ told)) :
    Silent refused hub front told :=
  fun serial member name answer asked =>
    silent serial member name answer (List.mem_append_right _ asked)

theorem Abreast.unheard (abreast : Abreast refused front handle events coming state)
    {event : Heard State Answer} (unheard : delivered handle [event] = []) :
    Abreast refused front handle (events ++ [event]) coming state := by
  have same : delivered handle (events ++ [event]) = delivered handle events := by
    rw [delivered_append, unheard, List.append_nil]
  exact ⟨same ▸ abreast.reached, fun silent => same ▸ abreast.last silent.left⟩

theorem Abreast.called (abreast : Abreast refused front handle events [state] newer)
    (name : String) :
    Abreast refused front handle (events ++ [.delivered handle name state]) [] newer := by
  have same : delivered handle (events ++ [.delivered handle name state]) ++ [] =
      delivered handle events ++ [state] := by
    rw [List.append_nil, delivered_append, delivered_self]
  exact ⟨same ▸ abreast.reached, fun silent => same ▸ abreast.last silent.left⟩

theorem Abreast.committed (abreast : Abreast refused front handle told [] newer) (name : String)
    {answer : Answer} (accepted : ¬ refused answer)
    (turn : coming = [] ∨ listener.hub = handle.hub ∧ listener.serial ∈ front) :
    Abreast refused front handle (events ++ told ++ [.answered listener name answer]) coming
      newer := by
  obtain ⟨reached, last⟩ := abreast
  rw [List.append_nil] at reached last
  have same : delivered handle (events ++ told ++ [.answered listener name answer]) =
      delivered handle events ++ delivered handle told := by
    rw [delivered_append, delivered_answered, List.append_nil, delivered_append]
  refine ⟨?_, fun silent => ?_⟩
  · rw [same, List.append_assoc]
    exact List.mem_append_right _ (List.mem_append_left _ reached)
  · rcases turn with rfl | ⟨here, ahead⟩
    · rw [same, List.append_nil, List.getLast?_append, last silent.left.right, Option.some_or]
    · rw [← here] at silent
      have asked := silent listener.serial ahead name answer
        (List.mem_append_right _ List.mem_cons_self)
      exact absurd asked accepted

end Delivered

/-- What is kept of an audience while an announcement goes on: the seat of a listener, and that it
keeps up as long as it is active. -/
structure Follows (view : Host → State) (refused : Answer → Prop) (front : List Nat)
    (handle : Handle) (heard : List (Heard State Answer)) (coming : List State)
    (audience : Audience Host Request State Answer) : Prop where
  seated : audience.hub.Seated front handle
  keeps : ∃ new, audience.heard = heard ++ new ∧
    (audience.hub.isActive handle = true →
      Abreast refused front handle new coming (view audience.host))

/-- A step of an announcement: no listener becomes active, and so many commits are left at most. -/
structure Spends (handle : Handle) (left : Nat) (before after : Audience Host Request State Answer) :
    Prop where
  active : after.hub.isActive handle = true → before.hub.isActive handle = true
  commits : after.hub.commits ≤ left

theorem Spends.trans {handle : Handle} {left : Nat}
    {before between after : Audience Host Request State Answer}
    (first : Spends handle left before between)
    (later : Spends handle between.hub.commits between after) : Spends handle left before after :=
  ⟨fun active => first.active (later.active active), Nat.le_trans later.commits first.commits⟩

/-- A way of telling that leaves a listener abreast, if no more than so many commits are left. -/
def Informs (view : Host → State) (refused : Answer → Prop) (front : List Nat) (handle : Handle)
    (depth : Nat) (tell : Tell Host Request State Answer) : Prop :=
  ∀ audience : Audience Host Request State Answer, audience.hub.Seated front handle →
    audience.hub.commits < depth →
      Follows view refused front handle audience.heard [] (tell audience (view audience.host)) ∧
        Spends handle audience.hub.commits audience (tell audience (view audience.host))

section Announcing

variable {commit : Commit Host Request State Answer} {view : Host → State}
variable {refused : Answer → Prop} {front : List Nat} {handle : Handle} {depth : Nat}
variable {tell : Tell Host Request State Answer} {heard : List (Heard State Answer)}
variable {coming : List State} {audience : Audience Host Request State Answer}

theorem Follows.change {hub : Hub Request}
    (follows : Follows view refused front handle heard coming audience)
    (change : audience.hub.Change hub) :
    Follows view refused front handle heard coming { audience with hub } := by
  obtain ⟨seated, active⟩ := change.seated follows.seated
  obtain ⟨new, same, abreast⟩ := follows.keeps
  exact ⟨seated, new, same, fun still => abreast (active still)⟩

theorem react_follows_none (announces : Announces commit view refused)
    (tell : Tell Host Request State Answer)
    (follows : Follows view refused front handle heard coming audience) (listener : Handle)
    (name : String) {request : Request} (unannounced : (commit audience.host request).2.1 = none) :
    Follows view refused front handle heard coming
      (react commit tell listener name audience (.commit request)) ∧
      Spends handle audience.hub.commits audience
        (react commit tell listener name audience (.commit request)) := by
  have same := announces.silent audience.host request unannounced
  obtain ⟨new, grown, abreast⟩ := follows.keeps
  simp only [react, unannounced, note]
  refine ⟨⟨follows.seated, new ++ [.answered listener name (commit audience.host request).2.2],
    ?_, fun active => ?_⟩, id, Nat.le_refl _⟩
  · rw [grown, List.append_assoc]
  · rw [same]
    exact (abreast active).unheard (delivered_answered listener name _)

theorem react_follows_some (announces : Announces commit view refused)
    (informs : Informs view refused front handle depth tell)
    (follows : Follows view refused front handle heard coming audience) {listener : Handle}
    (name : String) (turn : coming = [] ∨ listener.hub = handle.hub ∧ listener.serial ∈ front)
    {request : Request} {state : State} (announced : (commit audience.host request).2.1 = some state)
    (enough : audience.hub.commits < depth) :
    Follows view refused front handle heard coming
      (react commit tell listener name audience (.commit request)) ∧
      Spends handle audience.hub.commits audience
        (react commit tell listener name audience (.commit request)) := by
  have newest := announces.announced audience.host request state announced
  have accepted : ¬ refused (commit audience.host request).2.2 := by
    intro refused
    cases announced.symm.trans (announces.refused audience.host request refused)
  obtain ⟨new, grown, -⟩ := follows.keeps
  obtain ⟨⟨seated, told, heard', abreast⟩, spends⟩ :=
    informs { audience with host := (commit audience.host request).1 } follows.seated enough
  simp only [react, announced, note, newest]
  refine ⟨⟨seated, new ++ told ++ [.answered listener name (commit audience.host request).2.2],
    ?_, fun active => ?_⟩, spends.active, spends.commits⟩
  · rw [heard', grown, List.append_assoc, List.append_assoc, List.append_assoc]
  · exact (abreast active).committed name accepted turn

theorem react_follows (announces : Announces commit view refused)
    (informs : Informs view refused front handle depth tell)
    (follows : Follows view refused front handle heard coming audience) {listener : Handle}
    (name : String) (turn : coming = [] ∨ listener.hub = handle.hub ∧ listener.serial ∈ front)
    (reaction : Reaction Request) (enough : audience.hub.commits + reaction.commits ≤ depth) :
    Follows view refused front handle heard coming (react commit tell listener name audience reaction) ∧
      Spends handle (audience.hub.commits + reaction.commits) audience
        (react commit tell listener name audience reaction) := by
  cases reaction with
  | cancel other =>
    have change : audience.hub.Change (audience.hub.cancelNamed other) := .cancel other
    exact ⟨follows.change change, (change.seated follows.seated).2,
      Nat.le_of_eq (Hub.commits_cancelNamed other)⟩
  | subscribe other script =>
    have change : audience.hub.Change (audience.hub.subscribe other script) :=
      .subscribe other script
    exact ⟨follows.change change, (change.seated follows.seated).2,
      Nat.le_of_eq (Hub.commits_subscribe other script)⟩
  | commit request =>
    cases announced : (commit audience.host request).2.1 with
    | none =>
      obtain ⟨follows, spends⟩ :=
        react_follows_none announces tell follows listener name announced
      exact ⟨follows, spends.active, Nat.le_succ_of_le spends.commits⟩
    | some state =>
      obtain ⟨follows, spends⟩ :=
        react_follows_some announces informs follows name turn announced enough
      exact ⟨follows, spends.active, Nat.le_succ_of_le spends.commits⟩

theorem reactions_follow (announces : Announces commit view refused)
    (informs : Informs view refused front handle depth tell)
    (follows : Follows view refused front handle heard coming audience) {listener : Handle}
    (name : String) (turn : coming = [] ∨ listener.hub = handle.hub ∧ listener.serial ∈ front)
    (reactions : List (Reaction Request))
    (enough : audience.hub.commits + commitsOfCall reactions ≤ depth) :
    Follows view refused front handle heard coming
      (reactions.foldl (react commit tell listener name) audience) ∧
      Spends handle (audience.hub.commits + commitsOfCall reactions) audience
        (reactions.foldl (react commit tell listener name) audience) := by
  induction reactions generalizing audience with
  | nil => exact ⟨follows, id, Nat.le_refl _⟩
  | cons reaction rest ih =>
    rw [commitsOfCall] at enough ⊢
    obtain ⟨follows, first⟩ :=
      react_follows announces informs follows name turn reaction (by omega)
    have left := first.commits
    obtain ⟨follows, later⟩ := ih follows (by omega)
    refine ⟨follows, fun active => first.active (later.active active), ?_⟩
    exact Nat.le_trans later.commits (by omega)

def called (audience : Audience Host Request State Answer) (listener : Handle) (name : String)
    (state : State) : Audience Host Request State Answer :=
  { audience with
    hub := audience.hub.update listener fun listener =>
      { listener with script := listener.script.tail }
    heard := audience.heard ++ [.delivered listener name state] }

theorem deliver_called {listener : Handle} {found : Listener Request} (state : State)
    (known : audience.hub.find? listener = some found) (active : found.active = true) :
    deliver commit tell state audience listener =
      (found.script.headD []).foldl (react commit tell listener found.name)
        (audience.called listener found.name state) := by
  simp [deliver, known, active, note, called]

theorem called_follows (announces : Announces commit view refused)
    (informs : Informs view refused front handle depth tell) {listener : Handle}
    {found : Listener Request} {state : State} (seated : audience.hub.Seated front handle)
    (known : audience.hub.find? listener = some found) (active : found.active = true)
    (follows : Follows view refused front handle heard coming
      (audience.called listener found.name state))
    (turn : coming = [] ∨ listener.hub = handle.hub ∧ listener.serial ∈ front)
    (enough : audience.hub.commits ≤ depth) :
    Follows view refused front handle heard coming
      (deliver commit tell state audience listener) ∧
      Spends handle audience.hub.commits audience (deliver commit tell state audience listener) := by
  have spent := Hub.commits_script known
  obtain ⟨follows, spends⟩ := reactions_follow announces informs follows found.name turn
    (found.script.headD []) (Nat.le_trans spent enough)
  rw [deliver_called state known active]
  refine ⟨follows, fun still => ?_, Nat.le_trans spends.commits spent⟩
  exact ((Hub.Change.script listener).seated seated).2 (spends.active still)

theorem deliver_follows (announces : Announces commit view refused)
    (informs : Informs view refused front handle depth tell)
    (follows : Follows view refused front handle heard coming audience) {listener : Handle}
    (turn : coming = [] ∨ listener.hub = handle.hub ∧ listener.serial ∈ front)
    (other : audience.hub.isActive handle = true → listener ≠ handle) (state : State)
    (enough : audience.hub.commits ≤ depth) :
    Follows view refused front handle heard coming
      (deliver commit tell state audience listener) ∧
      Spends handle audience.hub.commits audience (deliver commit tell state audience listener) := by
  have unchanged : Spends handle audience.hub.commits audience audience := ⟨id, Nat.le_refl _⟩
  cases known : audience.hub.find? listener with
  | none =>
    rw [deliver, known]
    exact ⟨follows, unchanged⟩
  | some found =>
    cases active : found.active with
    | false =>
      simp only [deliver, known, active, Bool.false_eq_true, if_false]
      exact ⟨follows, unchanged⟩
    | true =>
      obtain ⟨new, grown, abreast⟩ := follows.keeps
      obtain ⟨seated, older⟩ := (Hub.Change.script listener).seated follows.seated
      refine called_follows announces informs follows.seated known active ⟨seated,
        new ++ [.delivered listener found.name state], ?_, fun still => ?_⟩ turn enough
      · rw [called, grown, List.append_assoc]
      · have still := older still
        exact (abreast still).unheard (delivered_other (other still) found.name state)

theorem deliver_follows_self (announces : Announces commit view refused)
    (informs : Informs view refused front handle depth tell) {state : State}
    (follows : Follows view refused front handle heard [state] audience)
    (enough : audience.hub.commits ≤ depth) :
    Follows view refused front handle heard [] (deliver commit tell state audience handle) ∧
      Spends handle audience.hub.commits audience (deliver commit tell state audience handle) := by
  have unchanged : Spends handle audience.hub.commits audience audience := ⟨id, Nat.le_refl _⟩
  obtain ⟨new, grown, abreast⟩ := follows.keeps
  have uncalled : audience.hub.isActive handle = false →
      Follows view refused front handle heard [] audience := by
    intro inactive
    exact ⟨follows.seated, new, grown, fun active => nomatch inactive.symm.trans active⟩
  cases known : audience.hub.find? handle with
  | none =>
    rw [deliver, known]
    exact ⟨uncalled (by rw [Hub.isActive, known]; rfl), unchanged⟩
  | some found =>
    cases active : found.active with
    | false =>
      simp only [deliver, known, active, Bool.false_eq_true, if_false]
      exact ⟨uncalled (by rw [Hub.isActive, known]; exact active), unchanged⟩
    | true =>
      obtain ⟨seated, older⟩ := (Hub.Change.script handle).seated follows.seated
      refine called_follows announces informs follows.seated known active ⟨seated,
        new ++ [.delivered handle found.name state], ?_, fun still => ?_⟩ (.inl rfl) enough
      · rw [called, grown, List.append_assoc]
      · exact (abreast (older still)).called found.name

theorem deliveries_follow (announces : Announces commit view refused)
    (informs : Informs view refused front handle depth tell) (state : State)
    (listeners : List Handle)
    (follows : Follows view refused front handle heard coming audience)
    (turn : coming = [] ∨ ∀ listener ∈ listeners,
      listener.hub = handle.hub ∧ listener.serial ∈ front)
    (others : audience.hub.isActive handle = true → handle ∉ listeners)
    (enough : audience.hub.commits ≤ depth) :
    Follows view refused front handle heard coming
      (listeners.foldl (deliver commit tell state) audience) ∧
      Spends handle audience.hub.commits audience
        (listeners.foldl (deliver commit tell state) audience) := by
  induction listeners generalizing audience with
  | nil => exact ⟨follows, id, Nat.le_refl _⟩
  | cons listener rest ih =>
    obtain ⟨follows, first⟩ := deliver_follows announces informs follows
      (turn.imp_right fun ahead => ahead listener List.mem_cons_self)
      (fun active same => others active (same ▸ List.mem_cons_self)) state enough
    obtain ⟨follows, later⟩ := ih follows
      (turn.imp_right fun ahead other member => ahead other (List.mem_cons_of_mem _ member))
      (fun active member => others (first.active active) (List.mem_cons_of_mem _ member))
      (Nat.le_trans first.commits enough)
    exact ⟨follows, first.trans later⟩

theorem announceWithin_informs (announces : Announces commit view refused) (front : List Nat)
    (handle : Handle) (depth : Nat) :
    Informs view refused front handle depth (announceWithin commit depth) := by
  induction depth with
  | zero => exact fun _ _ impossible => absurd impossible (Nat.not_lt_zero _)
  | succ depth ih =>
    intro audience seated enough
    have enough := Nat.le_of_lt_succ enough
    rw [announceWithin]
    by_cases active : audience.hub.isActive handle = true
    · obtain ⟨before, back, registered, within, ahead, behind⟩ := seated.seat active
      rw [registered, List.map_append, List.map_cons, List.foldl_append, List.foldl_cons,
        seated.number]
      let listener (serial : Nat) : Handle := ⟨handle.hub, serial⟩
      have coming : Follows view refused front handle audience.heard [view audience.host] audience :=
        ⟨seated, [], (List.append_nil _).symm, fun _ => ⟨List.mem_singleton_self _, fun _ => rfl⟩⟩
      have others : ∀ serials : List Nat, handle.serial ∉ serials →
          handle ∉ serials.map listener := by
        intro serials absent member
        obtain ⟨serial, member, same⟩ := List.mem_map.mp member
        exact absent (congrArg Handle.serial same ▸ member)
      have inFront : ∀ other ∈ before.map listener,
          other.hub = handle.hub ∧ other.serial ∈ front := by
        intro other member
        obtain ⟨serial, found, rfl⟩ := List.mem_map.mp member
        exact ⟨rfl, within found⟩
      obtain ⟨follows, first⟩ := deliveries_follow announces ih (view audience.host)
        (before.map listener) coming (.inr inFront) (fun _ => others before ahead) enough
      have enough := Nat.le_trans first.commits enough
      obtain ⟨follows, own⟩ := deliver_follows_self announces ih follows enough
      obtain ⟨follows, last⟩ := deliveries_follow announces ih (view audience.host)
        (back.map listener) follows (.inl rfl) (fun _ => others back behind)
        (Nat.le_trans own.commits enough)
      exact ⟨follows, (first.trans own).trans last⟩
    · have follows : Follows view refused front handle audience.heard [] audience :=
        ⟨seated, [], (List.append_nil _).symm, fun now => absurd now active⟩
      exact deliveries_follow announces ih _ _ follows (.inl rfl) (fun now => absurd now active)
        enough

/-- An announcement leaves those who listened before it, and still do, abreast of the host. -/
theorem announce_abreast (announces : Announces commit view refused)
    (seated : audience.hub.Seated front handle) :
    ∃ new, (announce commit audience (view audience.host)).heard = audience.heard ++ new ∧
      ((announce commit audience (view audience.host)).hub.isActive handle = true →
        Abreast refused front handle new []
          (view (announce commit audience (view audience.host)).host)) :=
  (announceWithin_informs announces front handle (audience.hub.commits + 1) audience seated
    (Nat.lt_succ_self _)).1.keeps

end Announcing

section Hubs

variable {commit : Commit Host Request State Answer} {tell : Tell Host Request State Answer}
variable {Kept : Hub Request → Prop}

theorem react_hub (kept : ∀ {hub after : Hub Request}, hub.Change after → Kept hub → Kept after)
    (told : ∀ audience state, Kept audience.hub → Kept (tell audience state).hub)
    (listener : Handle) (name : String) (reaction : Reaction Request)
    {audience : Audience Host Request State Answer} (start : Kept audience.hub) :
    Kept (react commit tell listener name audience reaction).hub := by
  cases reaction with
  | cancel other => exact kept (.cancel other) start
  | subscribe other script => exact kept (.subscribe other script) start
  | commit request =>
    simp only [react]
    split
    · exact told _ _ start
    · exact start

theorem deliver_hub (kept : ∀ {hub after : Hub Request}, hub.Change after → Kept hub → Kept after)
    (told : ∀ audience state, Kept audience.hub → Kept (tell audience state).hub)
    (state : State) (listener : Handle) {audience : Audience Host Request State Answer}
    (start : Kept audience.hub) : Kept (deliver commit tell state audience listener).hub := by
  unfold deliver
  split
  · exact start
  · split
    · refine List.foldlRecOn _ _ (motive := fun now : Audience Host Request State Answer =>
        Kept now.hub) (kept (.script listener) start) ?_
      exact fun _ start reaction _ => react_hub kept told listener _ reaction start
    · exact start

/-- What every change keeps that a listener makes to its hub, an announcement keeps. -/
theorem announceWithin_hub (commit : Commit Host Request State Answer)
    (kept : ∀ {hub after : Hub Request}, hub.Change after → Kept hub → Kept after) (depth : Nat)
    (audience : Audience Host Request State Answer) (state : State) (start : Kept audience.hub) :
    Kept (announceWithin commit depth audience state).hub := by
  induction depth generalizing audience state with
  | zero => exact start
  | succ depth ih =>
    rw [announceWithin]
    refine List.foldlRecOn _ _ (motive := fun now : Audience Host Request State Answer =>
      Kept now.hub) start ?_
    exact fun _ start listener _ => deliver_hub kept ih state listener start

theorem announce_hub (commit : Commit Host Request State Answer)
    (kept : ∀ {hub after : Hub Request}, hub.Change after → Kept hub → Kept after)
    (audience : Audience Host Request State Answer) (state : State) (start : Kept audience.hub) :
    Kept (announce commit audience state).hub :=
  announceWithin_hub commit kept _ audience state start

end Hubs

end StartPage.Audience
