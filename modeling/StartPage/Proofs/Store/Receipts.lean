import Mathlib.Data.List.Chain
import StartPage.Proofs.Store.Numbering

/-!
When a writer learns of what it is given. A revision sent to a writer that does not write is
received at once, any other when the write in progress ends. The receipts that matter are those
that no other follows within the window.
-/
namespace StartPage

structure Receipt where
  revision : Revision
  time : Nat

/-- The receipts that no other follows within the window. -/
def outlast (window : Nat) : List Receipt → List Receipt
  | [] => []
  | receipt :: rest =>
    if rest.head?.all fun next => receipt.time + window < next.time then
      receipt :: outlast window rest
    else outlast window rest

section Outlast

variable {window : Nat}

theorem outlast_sublist (log : List Receipt) : (outlast window log).Sublist log := by
  induction log with
  | nil => exact .slnil
  | cons receipt rest ih =>
    rw [outlast]
    split
    · exact ih.cons_cons receipt
    · exact ih.cons receipt

theorem outlast_append (older : List Receipt) {last : Receipt} {rest : List Receipt}
    (gap : ∀ next ∈ rest.head?, last.time + window < next.time) :
    outlast window (older ++ last :: rest) = outlast window (older ++ [last]) ++ outlast window rest := by
  induction older with
  | nil =>
    have outlasts : rest.head?.all (fun next => last.time + window < next.time) = true := by
      cases found : rest.head? with
      | none => rfl
      | some next => simpa using gap next found
    simp [outlast, outlasts]
  | cons first older ih =>
    have same : (older ++ last :: rest).head? = (older ++ [last]).head? := by cases older <;> rfl
    rw [List.cons_append, List.cons_append, outlast, outlast, same, ih]
    split <;> rfl

theorem outlast_concat (older : List Receipt) (last : Receipt) :
    ∃ begun, outlast window (older ++ [last]) = begun ++ [last] ∧
      ∀ next : Receipt, ¬ last.time + window < next.time →
        outlast window (older ++ [last, next]) = begun ++ [next] := by
  induction older with
  | nil => exact ⟨[], rfl, fun next within => by simp [outlast, within]⟩
  | cons first older ih =>
    obtain ⟨begun, stays, overtaken⟩ := ih
    -- What follows `first` is the same with and without the receipt that overtakes.
    have same : ∀ rest, (older ++ last :: rest).head? = (older ++ [last]).head? := by
      cases older <;> exact fun _ => rfl
    simp only [List.cons_append, outlast, stays, same]
    split
    · exact ⟨first :: begun, rfl, fun next within => congrArg _ (overtaken next within)⟩
    · exact ⟨begun, rfl, overtaken⟩

theorem outlast_separates {log : List Receipt} (rising : log.Pairwise (·.time ≤ ·.time))
    {receipt other : Receipt} (outlasts : receipt ∈ outlast window log) (member : other ∈ log)
    (early : other.time ≤ receipt.time + window) : other.time ≤ receipt.time := by
  induction log with
  | nil => cases member
  | cons first rest ih =>
    obtain ⟨least, tail⟩ := List.pairwise_cons.mp rising
    have later : receipt ∈ outlast window rest → other.time ≤ receipt.time := by
      intro stays
      rcases List.mem_cons.mp member with rfl | further
      · exact least receipt ((outlast_sublist rest).subset stays)
      · exact ih tail stays further
    rw [outlast] at outlasts
    split at outlasts
    · rename_i alone
      rcases List.mem_cons.mp outlasts with rfl | stays
      · rcases List.mem_cons.mp member with rfl | further
        · exact Nat.le_refl _
        · cases rest with
          | nil => cases further
          | cons next rest =>
            -- The next receipt is beyond the window, and no other comes before it.
            have gap : receipt.time + window < next.time := by simpa using alone
            have beyond : next.time ≤ other.time := by
              rcases List.mem_cons.mp further with rfl | beyond
              · exact Nat.le_refl _
              · exact (List.pairwise_cons.mp tail).1 other beyond
            omega
      · exact later stays
    · exact later outlasts

theorem outlast_burst {log : List Receipt}
    (burst : log.IsChain fun receipt next => next.time < receipt.time + window) :
    ∀ last ∈ log.getLast?, outlast window log = [last] := by
  induction log with
  | nil => nofun
  | cons first rest ih =>
    intro last found
    obtain ⟨close, burst⟩ := List.isChain_cons.mp burst
    cases rest with
    | nil =>
      cases found
      rfl
    | cons next rest =>
      have within := close next rfl
      have overtaken : ¬ first.time + window < next.time := by omega
      rw [outlast, if_neg (by simpa using overtaken)]
      exact ih burst last (by rwa [List.getLast?_cons_cons] at found)

end Outlast

def numbered : Nat → List Settings → List Revision
  | _, [] => []
  | scheduled, settings :: rest =>
    ⟨scheduled + 1, settings⟩ :: numbered (scheduled + 1) rest

theorem Writer.schedule_all {writer : Writer} (running : writer.isStopped = false)
    (states : List Settings) :
    states.foldl Writer.schedule writer =
      { writer with
        queue := writer.queue ++ (numbered writer.scheduled states).map Command.schedule
        scheduled := writer.scheduled + states.length
        history := writer.history ++ states } := by
  induction states generalizing writer with
  | nil => simp [numbered]
  | cons settings rest ih =>
    have scheduled := Writer.schedule_eq running settings
    have running : (writer.schedule settings).isStopped = false := by
      rw [scheduled]
      exact running
    rw [List.foldl_cons, ih running, scheduled]
    simp [numbered, Nat.add_assoc, Nat.add_comm 1]

/-- When a writer receives what is sent to it now. -/
def Writer.receptive (writer : Writer) (now : Nat) : Nat :=
  match writer.activity with
  | .writing attempt => attempt.ends
  | _ => now

def changes (calls : List (Except Error Patch × Except Error Settings)) : List Settings :=
  ((issued calls).filter fun update => !update.1.isEmpty).map (·.2)

theorem Store.commits_schedule {store after : Store}
    {calls : List (Except Error Patch × Except Error Settings)}
    (commits : Audience.Commits Store.commit store calls after) (ready : store.phase = .ready) :
    after.writer = store.writer.map fun writer => (changes calls).foldl Writer.schedule writer := by
  induction commits with
  | done store => simp [changes, issued]
  | @next store after calls request rest ih =>
    have phase := (store.commit_phase request).trans ready
    rw [ih phase]
    cases request with
    | error fault => rfl
    | ok patch =>
      rw [commit_ok]
      cases empty : patch.isEmpty with
      | true =>
        rw [update_of_empty store empty]
        simp [changes, issued, empty]
      | false =>
        rw [update_of_ready empty ready]
        simp [changes, issued, empty, Store.schedule, Function.comp_def]

end StartPage
