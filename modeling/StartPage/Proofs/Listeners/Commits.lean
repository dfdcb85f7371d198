import StartPage.Listeners.Announcement

/-!
What listeners commit while they are told. `calls` records it by telling them once more with a
host that takes notes; nothing else changes, so an announcement does to the host exactly what
these calls do one after another, and each of them was answered as it would be alone.
-/
namespace StartPage.Audience

variable {Host Request State Answer : Type}

/-- Requests committed one after another, each with its answer. -/
inductive Commits (commit : Commit Host Request State Answer) :
    Host → List (Request × Answer) → Host → Prop where
  | done (host : Host) : Commits commit host [] host
  | next {host last : Host} {calls : List (Request × Answer)} (request : Request)
      (rest : Commits commit (commit host request).1 calls last) :
      Commits commit host ((request, (commit host request).2.2) :: calls) last

theorem Commits.append {commit : Commit Host Request State Answer} {first middle last : Host}
    {before after : List (Request × Answer)} (front : Commits commit first before middle)
    (back : Commits commit middle after last) : Commits commit first (before ++ after) last := by
  induction front with
  | done _ => exact back
  | next request _ ih => exact .next request (ih back)

theorem Commits.keep {commit : Commit Host Request State Answer} {first last : Host}
    {calls : List (Request × Answer)} (commits : Commits commit first calls last)
    (Kept : Host → Prop) (kept : ∀ host request, Kept host → Kept (commit host request).1)
    (start : Kept first) : Kept last := by
  induction commits with
  | done _ => exact start
  | next request _ ih => exact ih (kept _ request start)

/-- The host takes notes of what is asked of it and of its answers. -/
def recording (commit : Commit Host Request State Answer) :
    Commit (Host × List (Request × Answer)) Request State Answer
  | (host, calls), request =>
    let (host, state?, answer) := commit host request
    ((host, calls ++ [(request, answer)]), state?, answer)

/-- Every request that listeners commit during an announcement, in the order of the calls. -/
def calls (commit : Commit Host Request State Answer)
    (audience : Audience Host Request State Answer) (state : State) : List (Request × Answer) :=
  (announce (recording commit) ⟨(audience.host, []), audience.hub, audience.heard⟩ state).host.2

structure Accounts (commit : Commit Host Request State Answer) (origin : Host)
    (noted : Audience (Host × List (Request × Answer)) Request State Answer)
    (plain : Audience Host Request State Answer) : Prop where
  hub : noted.hub = plain.hub
  heard : noted.heard = plain.heard
  host : noted.host.1 = plain.host
  calls : Commits commit origin noted.host.2 plain.host

section Recording

variable {commit : Commit Host Request State Answer} {origin : Host}
variable {tellNoted : Tell (Host × List (Request × Answer)) Request State Answer}
variable {tell : Tell Host Request State Answer}

theorem react_accounts
    (told : ∀ noted plain state, Accounts commit origin noted plain →
      Accounts commit origin (tellNoted noted state) (tell plain state))
    (listener : Handle) (name : String) (reaction : Reaction Request)
    {noted : Audience (Host × List (Request × Answer)) Request State Answer}
    {plain : Audience Host Request State Answer} (accounts : Accounts commit origin noted plain) :
    Accounts commit origin (react (recording commit) tellNoted listener name noted reaction)
      (react commit tell listener name plain reaction) := by
  obtain ⟨⟨host, calls⟩, hub, heard⟩ := noted
  obtain ⟨_, _, _⟩ := plain
  obtain ⟨rfl, rfl, rfl, made⟩ := accounts
  cases reaction with
  | cancel other => exact ⟨rfl, rfl, rfl, made⟩
  | subscribe other script => exact ⟨rfl, rfl, rfl, made⟩
  | commit request =>
    have committed : Commits commit origin (calls ++ [(request, (commit host request).2.2)])
        (commit host request).1 := made.append (.next request (.done _))
    simp only [react, recording]
    cases announced : (commit host request).2.1 with
    | none => exact ⟨rfl, rfl, rfl, committed⟩
    | some state =>
      -- The listeners told of this commit go on from the notes taken so far.
      have after := told ⟨((commit host request).1, calls ++ [(request, (commit host request).2.2)]),
        hub, heard⟩ ⟨(commit host request).1, hub, heard⟩ state ⟨rfl, rfl, rfl, committed⟩
      exact ⟨after.hub, congrArg (· ++ _) after.heard, after.host, after.calls⟩

theorem reactions_account
    (told : ∀ noted plain state, Accounts commit origin noted plain →
      Accounts commit origin (tellNoted noted state) (tell plain state))
    (listener : Handle) (name : String) (reactions : List (Reaction Request))
    {noted : Audience (Host × List (Request × Answer)) Request State Answer}
    {plain : Audience Host Request State Answer} (accounts : Accounts commit origin noted plain) :
    Accounts commit origin
      (reactions.foldl (react (recording commit) tellNoted listener name) noted)
      (reactions.foldl (react commit tell listener name) plain) := by
  induction reactions generalizing noted plain with
  | nil => exact accounts
  | cons reaction rest ih => exact ih (react_accounts told listener name reaction accounts)

theorem deliver_accounts
    (told : ∀ noted plain state, Accounts commit origin noted plain →
      Accounts commit origin (tellNoted noted state) (tell plain state))
    (state : State) (handle : Handle)
    {noted : Audience (Host × List (Request × Answer)) Request State Answer}
    {plain : Audience Host Request State Answer} (accounts : Accounts commit origin noted plain) :
    Accounts commit origin (deliver (recording commit) tellNoted state noted handle)
      (deliver commit tell state plain handle) := by
  unfold deliver
  rw [accounts.hub]
  split
  · exact accounts
  · rename_i listener _
    split
    · apply reactions_account told
      refine ⟨?_, congrArg (· ++ _) accounts.heard, accounts.host, accounts.calls⟩
      simp only [note, accounts.hub]
    · exact accounts

theorem deliveries_account
    (told : ∀ noted plain state, Accounts commit origin noted plain →
      Accounts commit origin (tellNoted noted state) (tell plain state))
    (state : State) (handles : List Handle)
    {noted : Audience (Host × List (Request × Answer)) Request State Answer}
    {plain : Audience Host Request State Answer} (accounts : Accounts commit origin noted plain) :
    Accounts commit origin (handles.foldl (deliver (recording commit) tellNoted state) noted)
      (handles.foldl (deliver commit tell state) plain) := by
  induction handles generalizing noted plain with
  | nil => exact accounts
  | cons handle rest ih => exact ih (deliver_accounts told state handle accounts)

end Recording

theorem announceWithin_accounts (commit : Commit Host Request State Answer) (origin : Host)
    (depth : Nat) (noted : Audience (Host × List (Request × Answer)) Request State Answer)
    (plain : Audience Host Request State Answer) (state : State)
    (accounts : Accounts commit origin noted plain) :
    Accounts commit origin (announceWithin (recording commit) depth noted state)
      (announceWithin commit depth plain state) := by
  induction depth generalizing noted plain state with
  | zero => exact accounts
  | succ depth ih =>
    simp only [announceWithin, accounts.hub]
    exact deliveries_account (fun noted plain state => ih noted plain state) state _ accounts

/-- An announcement does to the host what the calls of the listeners do one after another. -/
theorem announce_commits (commit : Commit Host Request State Answer)
    (audience : Audience Host Request State Answer) (state : State) :
    Commits commit audience.host (calls commit audience state)
      (announce commit audience state).host :=
  (announceWithin_accounts commit audience.host _ ⟨(audience.host, []), audience.hub, audience.heard⟩
    audience state ⟨rfl, rfl, rfl, .done _⟩).calls

end StartPage.Audience
