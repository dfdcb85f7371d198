import StartPage.Text.Bytes

/-!
Readers when more bytes follow. A reader takes the front of its input and gives the bytes behind it;
what it has read stays read when more bytes come after these. A reader that goes on as long as it
can, as one of digits does, keeps to that only when there was a byte at which it stopped.
-/
namespace StartPage

variable {α β : Type}

/-- What the first reader takes from some bytes, the second takes when more bytes follow. -/
def Carries (first second : Bytes → Option (α × Bytes)) : Prop :=
  ∀ ⦃input value rest⦄, first input = some (value, rest) →
    ∀ more, second (input ++ more) = some (value, rest ++ more)

def CarriesWithin (first second : Bytes → Option (α × Bytes)) : Prop :=
  ∀ ⦃input value rest⦄, first input = some (value, rest) → rest ≠ [] →
    input ≠ [] ∧ ∀ more, second (input ++ more) = some (value, rest ++ more)

variable {first second : Bytes → Option (α × Bytes)} {next further : α → Bytes → Option (β × Bytes)}

namespace Carries

theorem pure (value : α) :
    Carries (fun input => some (value, input)) fun input => some (value, input) := by
  intro input found rest read more
  cases read
  rfl

theorem map (carries : Carries first second) (change : α → β) :
    Carries (fun input => (first input).map fun (value, rest) => (change value, rest))
      fun input => (second input).map fun (value, rest) => (change value, rest) := by
  intro input value rest read more
  obtain ⟨⟨found, left⟩, read, same⟩ := Option.map_eq_some_iff.mp read
  cases same
  exact congrArg (Option.map _) (carries read more)

theorem bind (carries : Carries first second)
    (each : ∀ value, Carries (next value) (further value)) :
    Carries (fun input => first input >>= fun (value, rest) => next value rest)
      fun input => second input >>= fun (value, rest) => further value rest := by
  intro input value rest read more
  obtain ⟨⟨found, left⟩, read, later⟩ := Option.bind_eq_some_iff.mp read
  have again : second (input ++ more) = some (found, left ++ more) := carries read more
  exact Option.bind_eq_some_iff.mpr ⟨_, again, each found later more⟩

end Carries

namespace CarriesWithin

theorem pure (value : α) :
    CarriesWithin (fun input => some (value, input)) fun input => some (value, input) := by
  intro input found rest read left
  cases read
  exact ⟨left, fun more => rfl⟩

theorem bind (carries : CarriesWithin first second)
    (each : ∀ value, CarriesWithin (next value) (further value)) :
    CarriesWithin (fun input => first input >>= fun (value, rest) => next value rest)
      fun input => second input >>= fun (value, rest) => further value rest := by
  intro input value rest read left
  obtain ⟨⟨found, between⟩, read, later⟩ := Option.bind_eq_some_iff.mp read
  obtain ⟨stopped, afterwards⟩ := each found later left
  obtain ⟨filled, before⟩ := carries read stopped
  refine ⟨filled, fun more => ?_⟩
  have again : second (input ++ more) = some (found, between ++ more) := before more
  exact Option.bind_eq_some_iff.mpr ⟨_, again, afterwards more⟩

theorem guarded (carries : CarriesWithin first second) (refused : Prop) [Decidable refused] :
    CarriesWithin (fun input => if refused then none else first input)
      fun input => if refused then none else second input := by
  intro input value rest read left
  obtain ⟨fine, read⟩ := Option.ite_none_left_eq_some.mp read
  obtain ⟨filled, again⟩ := carries read left
  exact ⟨filled, fun more => Option.ite_none_left_eq_some.mpr ⟨fine, again more⟩⟩

theorem of_eq {reader : Bytes → Option (α × Bytes)} (carries : CarriesWithin first first)
    (same : ∀ input, reader input = first input) : CarriesWithin reader reader := by
  rwa [funext same]

end CarriesWithin
end StartPage
