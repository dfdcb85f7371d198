import Mathlib.Tactic.SplitIfs
import StartPage.Proofs.Extension
import StartPage.Proofs.MessagePack.RoundTrip

/-!
MessagePack when more bytes follow. Every head says how much of the input belongs to it, so a value
that is read stays read whatever comes after it, and no front of a record's bytes is itself a value.
-/
namespace StartPage.MessagePack

section Heads

theorem take?_carries (count : Nat) : Carries (take? count) (take? count) := by
  intro input taken rest read more
  induction count generalizing input taken rest with
  | zero => cases read; rfl
  | succ count ih =>
    cases input with
    | nil => cases read
    | cons byte input =>
      obtain ⟨⟨found, left⟩, read, same⟩ := Option.map_eq_some_iff.mp read
      cases same
      rw [List.cons_append, take?, ih read]
      rfl

theorem readNumber_carries (width : Nat) : Carries (readNumber width) (readNumber width) :=
  (take?_carries width).map ofBigEndian

theorem readWide_carries (marker : Nat) : Carries (readWide marker) (readWide marker) := by
  intro input head rest read more
  -- A marker alone decides whether a number follows it, and of how many bytes.
  fun_cases readWide marker input with
  | case24 =>
    rw [readWide] at read
    · cases read
    all_goals assumption
  | case1 | case2 | case3 => cases read; rfl
  | case9 | case10 | case11 | case12 =>
    exact (readNumber_carries _).map (fun n => integer n) read more
  | case13 | case14 | case15 | case16 =>
    exact (readNumber_carries _).map (fun n => integer (signed _ n)) read more
  | _ => exact (readNumber_carries _).map _ read more

theorem readHead_carries : Carries readHead readHead := by
  intro input head rest read more
  cases input with
  | nil => cases read
  | cons byte input =>
    rw [List.cons_append, readHead]
    rw [readHead] at read
    split_ifs at read ⊢ with fixed mapping list text wide
    · exact Carries.pure _ read more
    · exact Carries.pure _ read more
    · exact Carries.pure _ read more
    · exact Carries.pure _ read more
    · exact readWide_carries _ read more
    · exact Carries.pure _ read more

end Heads

section Values

theorem readText_carries (length : Nat) : Carries (readText length) (readText length) := by
  intro input text rest read more
  obtain ⟨⟨raw, left⟩, taken, same⟩ := Option.bind_eq_some_iff.mp read
  obtain ⟨found, decoded, same⟩ := Option.bind_eq_some_iff.mp same
  cases same
  exact Option.bind_eq_some_iff.mpr ⟨_, take?_carries length taken more,
    Option.bind_eq_some_iff.mpr ⟨_, decoded, rfl⟩⟩

theorem readKey_carries (first : Bool) : Carries (readKey first) (readKey first) := by
  intro input key rest read more
  rw [readKey] at read ⊢
  split at read
  case h_1 length left head =>
    rw [readHead_carries head more]
    exact readText_carries length read more
  case h_2 length left head =>
    rw [readHead_carries head more]
    cases first with
    | true => cases read
    | false => exact readText_carries length read more
  case h_3 => cases read

variable {item further : Bytes → Option (Value × Bytes)}

theorem readItems_carries (each : Carries item further) (count : Nat) :
    Carries (readItems item count) (readItems further count) := by
  induction count with
  | zero =>
    intro input items rest read more
    cases read
    rfl
  | succ count ih =>
    exact each.bind fun first => ih.bind fun others => .pure _

theorem readEntries_carries (each : Carries item further) (first : Bool) (count : Nat) :
    Carries (readEntries item first count) (readEntries further first count) := by
  induction count generalizing first with
  | zero =>
    intro input items rest read more
    cases read
    rfl
  | succ count ih =>
    exact (readKey_carries first).bind fun key =>
      each.bind fun value => (ih false).bind fun others => .pure ((key, value) :: others)

theorem readValue_carries {limit further : Nat} (roomy : limit ≤ further) :
    Carries (readValue limit) (readValue further) := by
  induction limit using Nat.strongRecOn generalizing further with
  | ind limit ih =>
    intro input value rest read more
    rw [readValue.eq_def] at read ⊢
    split at read
    case h_1 => cases read
    case h_2 scalar left head =>
      cases read
      rw [readHead_carries head more]
    case h_3 length left head =>
      rw [readHead_carries head more]
      exact (readText_carries length).map Value.string read more
    case h_4 => cases read
    case h_5 length left head =>
      rw [readHead_carries head more]
      cases limit with
      | zero => cases read
      | succ limit =>
        obtain ⟨further, rfl⟩ : ∃ n, further = n + 1 := Nat.exists_eq_add_one.mpr (by omega)
        have each := ih limit (Nat.lt_succ_self limit) (Nat.le_of_succ_le_succ roomy)
        exact (readItems_carries each length).map Value.list read more
    case h_6 length left head =>
      rw [readHead_carries head more]
      cases limit with
      | zero => cases read
      | succ limit =>
        obtain ⟨further, rfl⟩ : ∃ n, further = n + 1 := Nat.exists_eq_add_one.mpr (by omega)
        have each := ih limit (Nat.lt_succ_self limit) (Nat.le_of_succ_le_succ roomy)
        exact (readEntries_carries each true length).map
          (fun entries => (Record.ofList entries).toValue) read more

end Values

section Documents

variable {record : Record}

theorem readValue_truncated (whole : record.WholeNumbers) (ascend : record.Ascending)
    (fit : record.LengthsFit) {cut : Bytes} (front : cut <+: encode record)
    (shorter : cut ≠ encode record) (limit : Nat) : readValue limit cut = none := by
  obtain ⟨more, joined⟩ := front
  refine Option.eq_none_iff_forall_ne_some.mpr fun (value, rest) read => shorter ?_
  let deepest := max limit record.depth
  have longer : readValue deepest (cut ++ more) = some (value, rest ++ more) :=
    readValue_carries (Nat.le_max_left _ _) read more
  have all : readValue deepest (encode record ++ []) = some (record.toValue, []) :=
    readValue_bytes record.toValue whole ascend fit (Nat.le_max_right _ _) []
  -- Nothing is left behind the whole record, so nothing was missing.
  rw [List.append_nil, ← joined, longer] at all
  have nothing : rest ++ more = [] := congrArg Prod.snd (Option.some.inj all)
  rw [← joined, (List.append_eq_nil_iff.mp nothing).2, List.append_nil]

theorem decode_truncated (whole : record.WholeNumbers) (ascend : record.Ascending)
    (fit : record.LengthsFit) {cut : Bytes} (front : cut <+: encode record)
    (shorter : cut ≠ encode record) :
    decode cut = .error (if cut = [] then .empty else .malformed .messagePack) := by
  rw [decode, readValue_truncated whole ascend fit front shorter]
  split <;> rfl

end Documents
end StartPage.MessagePack
