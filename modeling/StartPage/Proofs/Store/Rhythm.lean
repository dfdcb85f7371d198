import StartPage.Proofs.Store.Receipts

/-!
The rhythm of a writer that is given revisions and never flushed. It rests, counts the window of
the last receipt it has seen, or writes it; what it has begun to write are those of the receipts
that outlasted their windows. Every turn, and the passing of time between the turns, keeps that,
as long as no receipt falls on the very end of the window of the one before.
-/
namespace StartPage

def Attempt.stamp (attempt : Attempt) : Revision × Nat := (attempt.revision, attempt.began)

/-- What is written when the window of a receipt ends. -/
def Receipt.expiry (window : Nat) (receipt : Receipt) : Revision × Nat :=
  (receipt.revision, receipt.time + window)

namespace Writer

/-- What a writer is about to do for the last of the receipts it has seen, and the receipts that
it has begun to write. -/
inductive Standing (window now : Nat) (writer : Writer) : List Receipt → List Receipt → Prop where
  | resting {seen : List Receipt} (idle : writer.activity = .idle) (pending : writer.pending = none)
      (deadline : writer.deadline = none) : Standing window now writer seen (outlast window seen)
  | counting {older begun : List Receipt} {last : Receipt} (idle : writer.activity = .idle)
      (pending : writer.pending = some last.revision)
      (deadline : writer.deadline = some (last.time + window)) (early : now ≤ last.time + window)
      (stays : outlast window (older ++ [last]) = begun ++ [last]) :
      Standing window now writer (older ++ [last]) begun
  | writing {older : List Receipt} {last : Receipt} {attempt : Attempt}
      (writing : writer.activity = .writing attempt) (pending : writer.pending = none)
      (deadline : writer.deadline = none) (resumes : attempt.sequel = .resume)
      (early : now ≤ attempt.ends) (past : last.time + window ≤ attempt.ends) :
      Standing window now writer (older ++ [last]) (outlast window (older ++ [last]))

/-- Since it had made certain attempts a writer has seen some receipts, others wait, and some of
those seen it has begun to write. -/
structure Rhythm (window now : Nat) (earlier : List Attempt) (seen waiting begun : List Receipt)
    (writer : Writer) : Prop where
  spaced : writer.window = window
  opened : writer.closed = false
  queued : writer.queue = waiting.map fun receipt => .schedule receipt.revision
  attempted : ∃ later, writer.attempts = later ++ earlier ∧
    later.reverse.map Attempt.stamp = begun.map (Receipt.expiry window)
  awaited : ∀ receipt ∈ waiting, receipt.time = writer.receptive now
  rising : (seen ++ waiting).Pairwise fun receipt next => receipt.time ≤ next.time
  received : ∀ receipt ∈ seen ++ waiting, receipt.time ≤ writer.receptive now
  past : ∀ receipt ∈ begun, receipt.time + window ≤ now
  standing : writer.Standing window now seen begun

/-- No receipt falls on the end of the window of the one before. -/
def Apart (window : Nat) (log : List Receipt) : Prop :=
  log.IsChain fun receipt next => next.time ≠ receipt.time + window

section Rhythm

variable {window now delay : Nat} {earlier : List Attempt} {seen waiting begun : List Receipt}
variable {writer after : Writer}

theorem receptive_idle (idle : writer.activity = .idle) (now : Nat) :
    writer.receptive now = now := by
  rw [receptive, idle]

theorem receptive_writing {attempt : Attempt} (writing : writer.activity = .writing attempt)
    (now : Nat) : writer.receptive now = attempt.ends := by
  rw [receptive, writing]

theorem Apart.next {older further : List Receipt} {last next : Receipt}
    (apart : Apart window (older ++ [last] ++ next :: further)) :
    next.time ≠ last.time + window := by
  rw [List.append_assoc] at apart
  exact (List.isChain_append_cons_cons.mp apart).2.1

theorem Standing.outlast_next {next : Receipt} {further : List Receipt}
    (standing : writer.Standing window now seen begun) (idle : writer.activity = .idle)
    (past : ∀ receipt ∈ begun, receipt.time + window ≤ now)
    (apart : Apart window (seen ++ next :: further)) (onTime : next.time = now) :
    outlast window (seen ++ [next]) = begun ++ [next] := by
  cases standing with
  | resting =>
    cases seen using List.reverseRecOn with
    | nil => rfl
    | append_singleton older last =>
      obtain ⟨begun, stays, _⟩ := outlast_concat older last
      have ended := past last (by rw [stays]; simp)
      have missed := apart.next
      rw [List.append_assoc]
      apply outlast_append older
      intro other found
      cases found
      omega
  | @counting older _ last _ _ _ early stays =>
    obtain ⟨others, same, overtaken⟩ := outlast_concat older last
    rw [stays] at same
    rw [List.append_cancel_right same, List.append_assoc]
    exact overtaken next (by omega)
  | writing writing => cases idle.symm.trans writing

theorem Rhythm.receive {next : Receipt}
    (rhythm : writer.Rhythm window now earlier seen (next :: waiting) begun)
    (apart : Apart window (seen ++ next :: waiting)) (idle : writer.activity = .idle) :
    ({ writer with
      queue := waiting.map fun receipt => .schedule receipt.revision
      pending := some next.revision
      deadline := some (now + writer.window) } : Writer).Rhythm window now earlier
        (seen ++ [next]) waiting begun := by
  have onTime : next.time = now :=
    (rhythm.awaited next List.mem_cons_self).trans (receptive_idle idle now)
  have stays := rhythm.standing.outlast_next idle rhythm.past apart onTime
  have same : seen ++ [next] ++ waiting = seen ++ next :: waiting := by simp
  exact { rhythm with
    queued := rfl
    awaited := fun receipt member => rhythm.awaited receipt (List.mem_cons_of_mem _ member)
    rising := same ▸ rhythm.rising
    received := same ▸ rhythm.received
    standing := .counting idle rfl (by rw [rhythm.spaced, onTime]) (by omega) stays }

theorem Rhythm.expire (rhythm : writer.Rhythm window now earlier seen waiting begun)
    (apart : Apart window (seen ++ waiting)) {revision : Revision} {due : Nat}
    (pending : writer.pending = some revision) (deadline : writer.deadline = some due)
    (late : due ≤ now) :
    ∃ begun, (writer.begin now delay revision .resume).Rhythm window now earlier seen waiting
      begun := by
  cases rhythm.standing with
  | resting _ none => cases none.symm.trans pending
  | writing _ none => cases none.symm.trans pending
  | @counting older _ last idle last' deadline' early stays =>
    cases last'.symm.trans pending
    cases deadline'.symm.trans deadline
    have moment : last.time + window = now := by omega
    -- What waits would be received now, at the very end of the window.
    have alone : waiting = [] := by
      cases waiting with
      | nil => rfl
      | cons next further =>
        have onTime := (rhythm.awaited next List.mem_cons_self).trans (receptive_idle idle now)
        exact absurd (onTime.trans moment.symm) apart.next
    subst alone
    obtain ⟨later, attempts, stamps⟩ := rhythm.attempted
    have ends : now ≤ (writer.begin now delay last.revision .resume).receptive now := by
      change now ≤ if (writer.encode last.revision.settings).isSome then now + delay else now
      split <;> omega
    refine ⟨begun ++ [last], { rhythm with
      attempted := ?_, awaited := nofun, received := ?_, past := ?_, standing := ?_ }⟩
    · refine ⟨_ :: later, congrArg _ attempts, ?_⟩
      rw [List.reverse_cons, List.map_append, List.map_append, stamps]
      simp [Attempt.stamp, Receipt.expiry, moment]
    · intro receipt member
      have before := rhythm.received receipt member
      rw [receptive_idle idle] at before
      omega
    · intro receipt member
      rcases List.mem_append.mp member with older | final
      · exact rhythm.past receipt older
      · rw [List.mem_singleton.mp final]
        omega
    · rw [← stays]
      exact .writing rfl rfl rfl rfl ends (by rw [moment]; exact ends)

theorem Rhythm.finish {attempt : Attempt} (succeeded : Bool)
    (rhythm : writer.Rhythm window now earlier seen waiting begun)
    (writing : writer.activity = .writing attempt) (ended : attempt.ends ≤ now) :
    (writer.conclude attempt.sequel succeeded).Rhythm window now earlier seen waiting begun := by
  cases rhythm.standing with
  | resting idle => cases idle.symm.trans writing
  | counting idle => cases idle.symm.trans writing
  | @writing older last other writing' pending deadline resumes early past =>
    cases writing'.symm.trans writing
    have idle : (writer.conclude attempt.sequel succeeded).activity = .idle := by
      rw [resumes]
      rfl
    -- The write ends on time: what waited for its end is received now.
    have same : (writer.conclude attempt.sequel succeeded).receptive now = writer.receptive now := by
      rw [receptive_idle idle, receptive_writing writing]
      omega
    exact { rhythm with
      awaited := same ▸ rhythm.awaited
      received := same ▸ rhythm.received
      standing := .resting idle pending deadline }

/-- A turn keeps the rhythm; it may move a receipt from those that wait to those seen. -/
theorem Rhythm.step {Place : Type} [Backend Place] {place left : Place}
    (rhythm : writer.Rhythm window now earlier seen waiting begun)
    (apart : Apart window (seen ++ waiting)) (step : Step now delay writer place after left) :
    ∃ seen' waiting' begun', seen' ++ waiting' = seen ++ waiting ∧
      after.Rhythm window now earlier seen' waiting' begun' := by
  cases step with
  | finish writing ended =>
    obtain ⟨succeeded, same⟩ := writer.finish_eq _ place
    exact ⟨seen, waiting, begun, rfl, same ▸ rhythm.finish succeeded writing ended⟩
  | move idle move =>
    cases move with
    | receive queue =>
      cases waiting with
      | nil => cases rhythm.queued.symm.trans queue
      | cons next further =>
        cases rhythm.queued.symm.trans queue
        exact ⟨_, further, begun, by simp, rhythm.receive apart idle⟩
    | expire pending deadline late =>
      obtain ⟨begun, kept⟩ := rhythm.expire apart pending deadline late
      exact ⟨seen, waiting, begun, rfl, kept⟩
    | flush queue | answer queue =>
      cases waiting with
      | nil => cases rhythm.queued.symm.trans queue
      | cons next further => cases rhythm.queued.symm.trans queue
    | drain _ _ closed | stop _ _ closed => cases rhythm.opened.symm.trans closed

theorem Standing.congr (standing : writer.Standing window now seen begun)
    (activity : after.activity = writer.activity) (pending : after.pending = writer.pending)
    (deadline : after.deadline = writer.deadline) : after.Standing window now seen begun := by
  cases standing with
  | resting idle none undue =>
    exact .resting (activity.trans idle) (pending.trans none) (deadline.trans undue)
  | counting idle some due early stays =>
    exact .counting (activity.trans idle) (pending.trans some) (deadline.trans due) early stays
  | writing writing none undue resumes early past =>
    exact .writing (activity.trans writing) (pending.trans none) (deadline.trans undue) resumes
      early past

theorem Rhythm.extend (rhythm : writer.Rhythm window now earlier seen waiting begun)
    {states : List Settings} {sent : List Receipt}
    (revisions : sent.map (·.revision) = numbered writer.scheduled states)
    (times : ∀ receipt ∈ sent, receipt.time = writer.receptive now) :
    (states.foldl Writer.schedule writer).Rhythm window now earlier seen (waiting ++ sent)
      begun := by
  have running : writer.isStopped = false := by
    unfold isStopped
    cases rhythm.standing with
    | resting idle | counting idle => rw [idle]
    | writing writing => rw [writing]
  rw [schedule_all running]
  refine { rhythm with
    queued := ?_, awaited := ?_, rising := ?_, received := ?_
    standing := rhythm.standing.congr rfl rfl rfl }
  · rw [← revisions, rhythm.queued]
    simp
  · intro receipt member
    rcases List.mem_append.mp member with before | new
    · exact rhythm.awaited receipt before
    · exact times receipt new
  · -- All that is sent now has one time, and nothing received so far is later.
    rw [← List.append_assoc, List.pairwise_append]
    refine ⟨rhythm.rising, ?_, ?_⟩
    · apply List.pairwise_of_forall_mem_list
      intro receipt member next other
      rw [times receipt member, times next other]
    · intro receipt member next other
      rw [times next other]
      exact rhythm.received receipt member
  · intro receipt member
    rw [← List.append_assoc] at member
    rcases List.mem_append.mp member with before | new
    · exact rhythm.received receipt before
    · exact Nat.le_of_eq (times receipt new)

theorem step?_idle {Place : Type} [Backend Place] (idle : writer.activity = .idle)
    (place : Place) : writer.step? now delay place =
      (writer.advance? now delay).map fun writer => (writer, place) := by
  rw [step?, idle]

theorem step?_writing {Place : Type} [Backend Place] {attempt : Attempt}
    (writing : writer.activity = .writing attempt) (place : Place) :
    writer.step? now delay place =
      if attempt.ends ≤ now then some (writer.finish attempt place) else none := by
  rw [step?, writing]

section Still

variable {Place : Type} [Backend Place] {place : Place}

theorem Rhythm.nothing_waits (rhythm : writer.Rhythm window now earlier seen waiting begun)
    (idle : writer.activity = .idle) (still : writer.step? now delay place = none) :
    waiting = [] := by
  cases waiting with
  | nil => rfl
  | cons next further =>
    have queue := rhythm.queued
    rw [step?_idle idle, advance?, queue] at still
    cases still

theorem Rhythm.wait {later : Nat} (rhythm : writer.Rhythm window now earlier seen waiting begun)
    (still : writer.step? now delay place = none) (forward : now ≤ later)
    (undue : ∀ due ∈ writer.due?, later ≤ due) :
    writer.Rhythm window later earlier seen waiting begun := by
  have past : ∀ receipt ∈ begun, receipt.time + window ≤ later :=
    fun receipt member => Nat.le_trans (rhythm.past receipt member) forward
  have rested (idle : writer.activity = .idle) (standing : writer.Standing window later seen begun) :
      writer.Rhythm window later earlier seen waiting begun := by
    have none := rhythm.nothing_waits idle still
    refine { rhythm with awaited := ?_, received := ?_, past, standing }
    · rw [none]
      nofun
    · intro receipt member
      have before := rhythm.received receipt member
      rw [receptive_idle idle] at before ⊢
      omega
  cases rhythm.standing with
  | resting idle pending deadline => exact rested idle (.resting idle pending deadline)
  | counting idle pending deadline _ stays =>
    refine rested idle (.counting idle pending deadline ?_ stays)
    exact undue _ (by rw [due?, idle]; exact deadline)
  | @writing _ _ attempt writing pending deadline resumes _ ended =>
    have early := undue attempt.ends (by rw [due?, writing]; rfl)
    have same : writer.receptive later = writer.receptive now := by
      rw [receptive_writing writing, receptive_writing writing]
    exact { rhythm with
      awaited := same ▸ rhythm.awaited
      received := same ▸ rhythm.received
      past
      standing := .writing writing pending deadline resumes early ended }

theorem Rhythm.due_step {due : Nat} (rhythm : writer.Rhythm window now earlier seen waiting begun)
    (still : writer.step? now delay place = none) (found : writer.due? = some due) :
    now ≤ due ∧ (writer.step? due delay place).isSome := by
  cases rhythm.standing with
  | resting idle _ deadline =>
    rw [due?, idle, deadline] at found
    cases found
  | counting idle pending deadline early =>
    have queue := rhythm.queued
    rw [rhythm.nothing_waits idle still] at queue
    rw [due?, idle, deadline] at found
    cases found
    refine ⟨early, ?_⟩
    rw [step?_idle idle, advance?, queue, pending, rhythm.opened, deadline]
    simp
  | writing writing _ _ _ early =>
    rw [due?, writing] at found
    cases found
    refine ⟨early, ?_⟩
    rw [step?_writing writing, if_pos (Nat.le_refl _)]
    rfl

/-- With nothing to do up to some time, what was begun are the receipts whose windows have ended
by then. -/
theorem Rhythm.settled {limit : Nat}
    (rhythm : writer.Rhythm window now earlier seen waiting begun)
    (apart : Apart window (seen ++ waiting)) (still : writer.step? now delay place = none)
    (forward : now ≤ limit) (undue : ∀ due ∈ writer.due?, limit < due) :
    begun = (outlast window (seen ++ waiting)).filter (·.time + window ≤ limit) := by
  have past : begun.filter (·.time + window ≤ limit) = begun := by
    rw [List.filter_eq_self]
    intro receipt member
    have ended := rhythm.past receipt member
    exact decide_eq_true (by omega)
  cases rhythm.standing with
  | resting idle =>
    rw [rhythm.nothing_waits idle still, List.append_nil, past]
  | @counting older _ last idle _ deadline _ stays =>
    have late := undue (last.time + window) (by rw [due?, idle]; exact deadline)
    rw [rhythm.nothing_waits idle still, List.append_nil, stays, List.filter_append, past]
    simp [late]
  | @writing older last attempt writing _ _ _ _ ended =>
    cases waiting with
    | nil => rw [List.append_nil, past]
    | cons next further =>
      have late := undue attempt.ends (by rw [due?, writing]; rfl)
      have onTime := rhythm.awaited next List.mem_cons_self
      rw [receptive_writing writing] at onTime
      have missed := apart.next
      -- What waits is received when the write ends, so its window reaches beyond the limit.
      have none : (outlast window (next :: further)).filter (·.time + window ≤ limit) = [] := by
        rw [List.filter_eq_nil_iff]
        intro receipt member
        have awaited := rhythm.awaited receipt ((outlast_sublist _).subset member)
        rw [receptive_writing writing] at awaited
        simp only [decide_eq_true_eq]
        omega
      have gap : ∀ other ∈ (next :: further).head?, last.time + window < other.time := by
        intro other found
        cases found
        omega
      rw [List.append_assoc, List.singleton_append, outlast_append older gap, List.filter_append,
        past, none, List.append_nil]

end Still

end Rhythm
end Writer
end StartPage
