import StartPage.Proofs.Json.Extension
import StartPage.Proofs.MessagePack.Extension

/-!
Bytes with some missing at the end, or with some too many. In neither format is a front of a
record's bytes the bytes of anything, and JSON allows nothing behind a record but blanks, so a
record that was cut off or written over is noticed and never taken for another one.
-/
namespace StartPage

open Json (varied)

/-- Bytes that lost their end are never read, and behind a JSON text only blanks are. -/
theorem cut_or_padded_never_misread (format : Format) {record : Record}
    (whole : record.WholeNumbers) (ascend : record.Ascending)
    (fit : format = .messagePack → record.LengthsFit) :
    ∃ raw, format.codec.encode record = some raw ∧
      (∀ cut, cut <+: raw → cut ≠ raw →
        format.codec.decode cut = .error (if cut = [] then .empty else .malformed format)) ∧
      (format = .json → record.depth ≤ 127 → ∀ tail,
        format.codec.decode (raw ++ tail) =
          if tail.all (· ∈ [0x20, 0x09, 0x0A, 0x0D]) then .ok record
          else .error (.malformed format)) := by
  cases format with
  | json =>
    exact ⟨_, rfl, fun cut front shorter => Json.decode_truncated front shorter,
      fun _ flat tail => Json.decode_padded whole ascend flat tail⟩
  | messagePack =>
    refine ⟨_, rfl, fun cut front shorter => ?_, fun json => by cases json⟩
    exact MessagePack.decode_truncated whole ascend (fit rfl) front shorter

/-- The text is cut inside an escape, the bytes inside a number of nine bytes. -/
theorem varied_cut_or_padded :
    ∃ text raw, Format.json.codec.encode varied = some text ∧
      Format.messagePack.codec.encode varied = some raw ∧
      Format.json.codec.decode [] = .error .empty ∧
      Format.json.codec.decode (text.take 12) = .error (.malformed .json) ∧
      Format.json.codec.decode (text ++ [0x20, 0x0D, 0x0A, 0x09]) = .ok varied ∧
      Format.json.codec.decode (text ++ [0x20, 0x7D]) = .error (.malformed .json) ∧
      Format.messagePack.codec.decode [] = .error .empty ∧
      Format.messagePack.codec.decode (raw.take 12) = .error (.malformed .messagePack) := by
  have whole : varied.WholeNumbers := by
    simp [varied, Record.WholeNumbers, Record.toValue, Value.WholeNumbers, Value.EntriesWhole,
      Value.ItemsWhole]
  have ascend : varied.Ascending := by
    simp only [varied, Record.Ascending, Record.toValue, Value.Ascending, Value.KeysAscend,
      Value.EntriesAscending, Value.ItemsAscending]
    decide
  have fit : varied.LengthsFit := by
    simp only [varied, Record.LengthsFit, Record.toValue, Value.LengthsFit, Value.EntryLengthsFit,
      Value.ItemLengthsFit]
    decide
  obtain ⟨text, written, cut, padded⟩ :=
    cut_or_padded_never_misread .json whole ascend fun other => by cases other
  obtain ⟨raw, packed, cutRaw, -⟩ :=
    cut_or_padded_never_misread .messagePack whole ascend fun _ => fit
  obtain rfl : Json.encode varied = text := Option.some.inj written
  obtain rfl : MessagePack.encode varied = raw := Option.some.inj packed
  refine ⟨_, _, rfl, rfl, cut [] List.nil_prefix (by decide), ?_, ?_, ?_,
    cutRaw [] List.nil_prefix (by decide), ?_⟩
  · exact cut _ (List.take_prefix 12 _) (by decide +kernel)
  · exact (padded rfl (by decide) _).trans (if_pos (by decide))
  · exact (padded rfl (by decide) _).trans (if_neg (by decide))
  · exact cutRaw _ (List.take_prefix 12 _) (by decide +kernel)

end StartPage
