import Mathlib.Data.List.Basic

/-!
Steps taken one after another, each of which may fail. If each of them gives a result, so do all
together; if they do together, each did; and if they fail together, one of them failed.
-/
namespace StartPage

section Lawful

variable {m : Type → Type} [Monad m] [LawfulMonad m] {ι α : Type}

theorem mapM_eq_pure {items : List ι} {step : ι → m α} {made : ι → α}
    (each : ∀ item ∈ items, step item = pure (made item)) :
    items.mapM step = pure (items.map made) := by
  induction items with
  | nil => exact List.mapM_nil
  | cons first rest ih =>
    obtain ⟨head, tail⟩ := List.forall_mem_cons.mp each
    rw [List.mapM_cons, head, ih tail, pure_bind, pure_bind, List.map_cons]

theorem foldlM_zip_map {σ : Type} {value : ι → α} {step : σ → ι × α → m σ} {made : σ → ι → σ}
    (each : ∀ state item, step state (item, value item) = pure (made state item)) (items : List ι)
    (start : σ) : (items.zip (items.map value)).foldlM step start = pure (items.foldl made start) := by
  induction items generalizing start with
  | nil => rfl
  | cons first rest ih =>
    rw [List.map_cons, List.zip_cons_cons, List.foldlM_cons, each, pure_bind, ih, List.foldl_cons]

end Lawful

variable {ε α β : Type}

theorem bind_ok {first : Except ε α} {next : α → Except ε β} {result : β}
    (ran : first >>= next = .ok result) : ∃ value, first = .ok value ∧ next value = .ok result := by
  cases first with
  | error fault => cases ran
  | ok value => exact ⟨value, rfl, ran⟩

theorem bind_error {first : Except ε α} {next : α → Except ε β} {fault : ε}
    (failed : first >>= next = .error fault) :
    first = .error fault ∨ ∃ value, first = .ok value ∧ next value = .error fault := by
  cases first with
  | error other =>
    cases failed
    exact .inl rfl
  | ok value => exact .inr ⟨value, rfl, failed⟩

section Maps

variable {step : α → Except ε β} {items : List α}

theorem map_eq_of_mapM {made : List β} (ran : items.mapM step = .ok made) :
    items.map step = made.map Except.ok := by
  induction items generalizing made with
  | nil =>
    cases ran
    rfl
  | cons first rest ih =>
    rw [List.mapM_cons] at ran
    obtain ⟨value, head, ran⟩ := bind_ok ran
    obtain ⟨values, tail, ran⟩ := bind_ok ran
    cases ran
    rw [List.map_cons, List.map_cons, head, ih tail]

theorem mapM_fails_iff : (∃ fault, items.mapM step = .error fault) ↔
    ∃ item ∈ items, ∃ fault, step item = .error fault := by
  induction items with
  | nil => simp [pure, Except.pure]
  | cons first rest ih =>
    rw [List.mapM_cons, List.exists_mem_cons_iff, ← ih]
    cases step first with
    | error fault => simp [bind, Except.bind]
    | ok value => cases List.mapM step rest <;> simp [bind, Except.bind, pure, Except.pure]

end Maps

section Folds

variable {step : β → α → Except ε β} {items : List α} {start last : β} {fault : ε}

theorem foldlM_error (failed : items.foldlM step start = .error fault) :
    ∃ item ∈ items, ∃ state, step state item = .error fault := by
  induction items generalizing start with
  | nil => cases failed
  | cons first rest ih =>
    rw [List.foldlM_cons] at failed
    rcases bind_error failed with stepped | ⟨next, -, later⟩
    · exact ⟨first, List.mem_cons_self, start, stepped⟩
    · obtain ⟨item, member, state, wrong⟩ := ih later
      exact ⟨item, List.mem_cons_of_mem _ member, state, wrong⟩

theorem foldlM_ok (ran : items.foldlM step start = .ok last) :
    ∀ item ∈ items, ∃ state next, step state item = .ok next := by
  induction items generalizing start with
  | nil => nofun
  | cons first rest ih =>
    rw [List.foldlM_cons] at ran
    obtain ⟨next, stepped, ran⟩ := bind_ok ran
    intro item member
    rcases List.mem_cons.mp member with rfl | further
    · exact ⟨start, next, stepped⟩
    · exact ih ran item further

end Folds

end StartPage
