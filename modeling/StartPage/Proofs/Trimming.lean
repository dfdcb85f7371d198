import Mathlib.Data.List.TakeWhile
import StartPage.Text.Blank

/-!
Trimmed text. Blanks around a text make no difference to what is left of it; a text that neither
begins nor ends with one is left as it is, and of nothing but blanks nothing is left.
-/
namespace StartPage.Text

variable {front back text : List Char}

theorem trimEnd_padded (blank : ∀ c ∈ back, isBlank c = true) (text : List Char) :
    trimEnd (text ++ back) = trimEnd text := by
  rw [trimEnd, trimEnd, List.reverse_append, List.dropWhile_append_of_pos]
  exact fun c member => blank c (List.mem_reverse.mp member)

theorem trim_padded (before : ∀ c ∈ front, isBlank c = true) (behind : ∀ c ∈ back, isBlank c = true)
    (text : List Char) : trim (.ofList (front ++ text ++ back)) = trim (.ofList text) := by
  simp only [trim, String.toList_ofList, trimStart, List.append_assoc]
  rw [List.dropWhile_append_of_pos before, List.dropWhile_append]
  split
  case isTrue gone =>
    rw [List.isEmpty_iff.mp gone, List.dropWhile_eq_nil_iff.mpr behind]
  case isFalse => rw [trimEnd_padded behind]

theorem trimStart_solid (solid : ∀ c ∈ text.head?, isBlank c = false) : trimStart text = text := by
  cases text with
  | nil => rfl
  | cons c text => rw [trimStart, List.dropWhile_cons_of_neg (by simp [solid c rfl])]

theorem trimEnd_solid (solid : ∀ c ∈ text.getLast?, isBlank c = false) : trimEnd text = text := by
  rw [← List.head?_reverse] at solid
  rw [trimEnd, ← trimStart, trimStart_solid solid, List.reverse_reverse]

theorem trim_solid (begins : ∀ c ∈ text.head?, isBlank c = false)
    (ends : ∀ c ∈ text.getLast?, isBlank c = false) : trim (.ofList text) = .ofList text := by
  rw [trim, String.toList_ofList, trimStart_solid begins, trimEnd_solid ends]

theorem trimEnd_eq_nil_iff : trimEnd text = [] ↔ ∀ c ∈ text, isBlank c = true := by
  rw [trimEnd, List.reverse_eq_nil_iff, List.dropWhile_eq_nil_iff]
  simp only [List.mem_reverse]

/-- Nothing but blanks is dropped, so what is left is blank only where all was. -/
theorem blank_trimStart_iff :
    (∀ c ∈ trimStart text, isBlank c = true) ↔ ∀ c ∈ text, isBlank c = true := by
  constructor
  · intro left
    rw [← List.takeWhile_append_dropWhile (p := isBlank) (l := text), List.forall_mem_append]
    exact ⟨fun c taken => List.mem_takeWhile_imp taken, left⟩
  · intro blank c member
    exact blank c ((List.dropWhile_sublist _).subset member)

theorem blank_trimEnd_iff :
    (∀ c ∈ trimEnd text, isBlank c = true) ↔ ∀ c ∈ text, isBlank c = true := by
  rw [trimEnd, ← trimStart]
  simpa only [List.mem_reverse] using @blank_trimStart_iff text.reverse

theorem trim_eq_empty_iff : trim (.ofList text) = "" ↔ ∀ c ∈ text, isBlank c = true := by
  rw [trim, String.ofList_eq_empty_iff, String.toList_ofList, trimEnd_eq_nil_iff,
    blank_trimStart_iff]

theorem blank_trim_iff (text : String) :
    (∀ c ∈ (trim text).toList, isBlank c = true) ↔ ∀ c ∈ text.toList, isBlank c = true := by
  rw [trim, String.toList_ofList, blank_trimEnd_iff, blank_trimStart_iff]

end StartPage.Text
