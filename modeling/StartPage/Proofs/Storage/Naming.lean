import Mathlib.Data.List.Forall2
import StartPage.Proofs.Storage.Answers

/-!
Where the file of a key is. Whatever characters a key has, the name of its file is one part of plain
characters, so that its path leads into the directory and no further. Keys of plain characters have
files of their own.
-/
namespace StartPage

namespace Route

/-- One route after another. A route from the root needs nothing before it; any other takes the
place of the empty part behind a last slash. -/
def follow (base route : Route) : Route :=
  if route.fromRoot then route
  else
    { base with
      parts := (if base.parts.getLast? = some "" then base.parts.dropLast else base.parts) ++
        route.parts }

variable {text directory : String} {base : Route}

theorem getLast?_splitOn (text : List Char) :
    (text.splitOn '/').getLast? = some [] ↔ text = [] ∨ text.getLast? = some '/' := by
  by_cases slash : '/' ∈ text
  · obtain ⟨behind, before, same, solid⟩ := List.eq_append_cons_of_mem (List.mem_reverse.mpr slash)
    obtain rfl : text = before.reverse ++ '/' :: behind.reverse := by
      rw [← List.reverse_reverse text, same]
      simp
    rw [← List.mem_reverse] at solid
    rw [List.splitOn_append_cons_self, List.splitOn_eq_singleton solid, List.getLast?_concat,
      Option.some_inj, List.getLast?_append_cons]
    cases behind with
    | nil => simp
    | cons last behind =>
      have other : last ≠ '/' := by
        rintro rfl
        exact solid (by simp)
      simp [List.getLast?_cons, other]
  · rw [List.splitOn_eq_singleton slash, List.getLast?_singleton, Option.some_inj]
    exact (or_iff_left fun last => slash (List.mem_of_getLast? last)).symm

theorem getLast?_parts :
    (ofText text).parts.getLast? = some "" ↔ text = "" ∨ text.toList.getLast? = some '/' := by
  rw [← String.toList_eq_nil_iff, ← getLast?_splitOn, ofText, List.getLast?_map]
  cases (text.toList.splitOn '/').getLast? with
  | none => simp
  | some last => simp [String.ofList_eq_empty_iff]

theorem ofText_solid (solid : '/' ∉ text.toList) : ofText text = ⟨false, [text]⟩ := by
  have begins : text.toList.head? ≠ some '/' := fun first => solid (List.mem_of_head? first)
  rw [ofText, List.splitOn_eq_singleton solid, List.map_singleton, String.ofList_toList]
  simp [begins]

theorem fromRoot_append (filled : directory ≠ "") (text : String) :
    (ofText (directory ++ text)).fromRoot = (ofText directory).fromRoot := by
  have begins : directory.toList ≠ [] := mt String.toList_eq_nil_iff.mp filled
  rw [ofText, ofText, String.toList_append, List.head?_append_of_ne_nil _ begins]

theorem parts_slash (directory text : String) :
    (ofText (directory ++ "/" ++ text)).parts =
      (ofText directory).parts ++ (ofText text).parts := by
  have slash : "/".toList = ['/'] := rfl
  rw [ofText, String.toList_append, String.toList_append, slash, List.append_assoc,
    List.singleton_append, List.splitOn_append_cons_self, List.map_append]
  rfl

/-- Joined to a directory's path, a text that does not begin at the root follows it. -/
theorem ofText_join (relative : text.toList.head? ≠ some '/') :
    ofText (Folder.join directory text) = (ofText directory).follow (ofText text) := by
  have below : (ofText text).fromRoot = false := by simpa [ofText] using relative
  rw [Folder.join, follow, below, if_neg Bool.false_ne_true]
  split
  case isTrue ended =>
    rw [if_pos (getLast?_parts.mpr ended)]
    rcases ended with rfl | slash
    · rw [String.empty_append]
      exact congrArg (Route.mk · (ofText text).parts) below
    · obtain ⟨front, same⟩ := List.getLast?_eq_some_iff.mp slash
      have filled : directory ≠ "" := by
        rintro rfl
        cases slash
      have cut : directory = .ofList front ++ "/" := by
        rw [← String.toList_inj, same, String.toList_append, String.toList_ofList]
        rfl
      have parts : (ofText directory).parts = (ofText (.ofList front)).parts ++ [""] := by
        have ends := parts_slash (.ofList front) ""
        rw [String.append_empty, ← cut] at ends
        exact ends
      have joined : (ofText (directory ++ text)).parts =
          (ofText directory).parts.dropLast ++ (ofText text).parts := by
        rw [parts, List.dropLast_concat, cut, parts_slash]
      exact congr (congrArg Route.mk (fromRoot_append filled text)) joined
  case isFalse closed =>
    rw [if_neg (mt getLast?_parts.mp closed)]
    have filled : directory ≠ "" := fun empty => closed (.inl empty)
    have root : (ofText (directory ++ "/" ++ text)).fromRoot = (ofText directory).fromRoot := by
      rw [String.append_assoc, fromRoot_append filled]
    exact congr (congrArg Route.mk root) (parts_slash directory text)

theorem steps_follow {name : String} (filled : name ≠ "") (leads : name ≠ ".") :
    (base.follow ⟨false, [name]⟩).steps = base.steps ++ [name] := by
  have kept : [name].filter (fun part => part ≠ "" && part ≠ ".") = [name] := by
    simp [filled, leads]
  rw [follow, if_neg Bool.false_ne_true, steps, steps, List.filter_append, kept]
  split
  case isTrue last =>
    obtain ⟨front, same⟩ := List.getLast?_eq_some_iff.mp last
    rw [same, List.dropLast_concat, List.filter_append]
    simp
  case isFalse => rfl

end Route

namespace Folder

variable {key other : String} {c : Char}

/-- A character that is safe in a file name everywhere. -/
def IsPlain (c : Char) : Prop :=
  'a' ≤ c ∧ c ≤ 'z' ∨ 'A' ≤ c ∧ c ≤ 'Z' ∨ '0' ≤ c ∧ c ≤ '9' ∨ c ∈ ['-', '_', '.']

theorem isSafe_iff : isSafe c = true ↔ IsPlain c := by
  have upper : c.isUpper = decide ('A' ≤ c ∧ c ≤ 'Z') := rfl
  have lower : c.isLower = (decide ('a' ≤ c) && decide (c ≤ 'z')) := rfl
  have digit : c.isDigit = (decide ('0' ≤ c) && decide (c ≤ '9')) := rfl
  have letter : c.isAlphanum = (c.isUpper || c.isLower || c.isDigit) := rfl
  simp only [isSafe, IsPlain, letter, upper, lower, digit, Bool.or_eq_true, Bool.and_eq_true,
    decide_eq_true_eq, beq_iff_eq, List.mem_cons, List.not_mem_nil, or_false]
  tauto

instance : DecidablePred IsPlain := fun _ => decidable_of_iff _ isSafe_iff

theorem toList_stem (key : String) :
    (stem key).toList = key.toList.map fun c => if IsPlain c then c else '_' := by
  rw [stem, String.toList_ofList]
  simp only [isSafe_iff]

theorem plain_stem (key : String) : ∀ c ∈ (stem key).toList, IsPlain c := by
  intro c member
  rw [toList_stem] at member
  obtain ⟨original, -, rfl⟩ := List.mem_map.mp member
  split
  case isTrue plain => exact plain
  case isFalse => decide

theorem stem_of_plain (plain : ∀ c ∈ key.toList, IsPlain c) : stem key = key := by
  rw [← String.toList_inj, toList_stem, List.map_congr_left fun c member => if_pos (plain c member),
    List.map_id']

theorem plain_fileName (key : String) : ∀ c ∈ (fileName key).toList, IsPlain c := by
  intro c member
  rw [fileName, String.toList_append, List.mem_append] at member
  rcases member with stem | suffix
  · exact plain_stem key c stem
  · have plain : (".state".toList.all fun c => IsPlain c) = true := by decide
    exact of_decide_eq_true (List.all_eq_true.mp plain c suffix)

theorem slash_notMem_fileName (key : String) : '/' ∉ (fileName key).toList :=
  fun member => absurd (plain_fileName key '/' member) (by decide)

theorem length_fileName (key : String) : (fileName key).length = key.length + 6 := by
  rw [fileName, String.length_append, stem, String.length_ofList, List.length_map,
    String.length_toList]
  rfl

theorem fileName_ne {other : String} (short : other.length < 6) (key : String) :
    fileName key ≠ other := by
  rintro rfl
  rw [length_fileName] at short
  omega

theorem ofText_fileName (key : String) : Route.ofText (fileName key) = ⟨false, [fileName key]⟩ :=
  Route.ofText_solid (slash_notMem_fileName key)

theorem ofText_pathFor (directory key : String) :
    Route.ofText (pathFor directory key) =
      (Route.ofText directory).follow (Route.ofText (fileName key)) :=
  Route.ofText_join fun first => slash_notMem_fileName key (List.mem_of_head? first)

theorem pathFor_inj {directory : String} :
    pathFor directory key = pathFor directory other ↔ stem key = stem other := by
  rw [← fileName_inj, pathFor, pathFor, join, join]
  split
  · exact String.append_right_inj _
  · exact String.append_right_inj _

/-- The file of a key lies in the directory itself, under one name that ends in `.state` and has a
plain character for each character of the key. Making a name plain again changes nothing, and keys
that are plain already have the same path only if they are the same. -/
theorem files_stay_in_directory (directory key : String) :
    Route.ofText (fileName key) = ⟨false, [fileName key]⟩ ∧
    Route.ofText (pathFor directory key) =
      (Route.ofText directory).follow (Route.ofText (fileName key)) ∧
    (Route.ofText (pathFor directory key)).steps =
      (Route.ofText directory).steps ++ [fileName key] ∧
    (∀ c ∈ (fileName key).toList, IsPlain c) ∧ fileName key ∉ [".", ".."] ∧
    (∃ name, fileName key = name ++ ".state" ∧
      List.Forall₂ (fun given used => used = if IsPlain given then given else '_')
        key.toList name.toList ∧
      pathFor directory name = pathFor directory key) ∧
    ∀ other, (∀ c ∈ key.toList, IsPlain c) → (∀ c ∈ other.toList, IsPlain c) →
      pathFor directory key = pathFor directory other → key = other := by
  refine ⟨ofText_fileName key, ofText_pathFor directory key, ?_, plain_fileName key, ?_,
    ⟨stem key, rfl, ?_, ?_⟩, ?_⟩
  · rw [ofText_pathFor, ofText_fileName]
    exact Route.steps_follow (fileName_ne (by decide) key) (fileName_ne (by decide) key)
  · simp [fileName_ne (show ".".length < 6 by decide) key,
      fileName_ne (show "..".length < 6 by decide) key]
  · rw [toList_stem, List.forall₂_map_right_iff, List.forall₂_same]
    exact fun _ _ => rfl
  · rw [pathFor_inj]
    exact stem_of_plain (plain_stem key)
  · intro other plain plainToo same
    rw [pathFor_inj, stem_of_plain plain, stem_of_plain plainToo] at same
    exact same

example : pathFor "/tmp/page" "../evil/key" = "/tmp/page/.._evil_key.state" := by decide +kernel

end Folder
end StartPage
