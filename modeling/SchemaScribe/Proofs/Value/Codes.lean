import SchemaScribe.Value.Basic

/-! # Texts by their codes

A text, torn or not, is told by the numbers of its characters and halves, and by nothing else: it is
put together from them again. Of two texts that are the same both are equal.
-/
namespace SchemaScribe

namespace Text

theorem ofNumber?_number (half : Half) : Half.ofNumber? half.number = some half := by
  obtain ⟨⟨i, hi⟩⟩ := half
  have hrange : 0xD800 ≤ 0xD800 + i ∧ 0xD800 + i < 0xE000 := by omega
  simp [Half.ofNumber?, Half.number, hrange]

/-- Characters stand before the halves of what follows them. -/
theorem segments_append (text : List Char) (rest : List Nat) :
    segments (text.map Char.toNat ++ rest) = (text ++ (segments rest).1, (segments rest).2) := by
  induction text with
  | nil => rfl
  | cons c text ih =>
    rw [List.map_cons, List.cons_append, segments, ih, ofNumber?_toNat, Char.ofNat_toNat]
    rfl

theorem segments_pieces (pieces : List (Half × String)) :
    segments (pieces.flatMap fun piece => piece.1.number :: piece.2.toList.map Char.toNat) =
      ([], pieces.map fun piece => (piece.1, piece.2.toList)) := by
  induction pieces with
  | nil => rfl
  | cons piece pieces ih =>
    rw [List.flatMap_cons, List.cons_append, segments, segments_append, ih, ofNumber?_number,
      List.append_nil]
    rfl

theorem segments_codes (text : Torn) : segments text.codes =
    (text.front.toList, text.pieces.map fun piece => (piece.1, piece.2.toList)) := by
  rw [Torn.codes, segments_append, segments_pieces, List.append_nil]

end Text

namespace Value
variable {v w : Value}

theorem ofCodes_codes (text : Text.Torn) : ofCodes text.codes = .torn text := by
  rw [ofCodes, Text.segments_codes]
  simp [Text.Torn.pieces, Function.comp_def]

theorem isString_iff_codes : v.isString = true ↔ ∃ codes, v.codes? = some codes := by
  cases v <;> simp [isString, codes?]

theorem isString_iff_front : v.isString = true ↔ ∃ front, v.front? = some front := by
  cases v <;> simp [isString, front?]

/-- A text is put together from its codes. -/
theorem ofCodes_of_codes {codes : List Nat} (h : v.codes? = some codes) : ofCodes codes = v := by
  cases v with
  | str s =>
    cases h
    rw [ofCodes_map_toNat, String.ofList_toList]
  | torn text =>
    cases h
    exact ofCodes_codes text
  | _ => cases h

theorem codes_inj {codes : List Nat} (hv : v.codes? = some codes) (hw : w.codes? = some codes) :
    v = w :=
  (ofCodes_of_codes hv).symm.trans (ofCodes_of_codes hw)

theorem hashable_of_isString (h : v.isString = true) : v.hashable = true := by
  cases v with
  | str | torn => rfl
  | _ => cases h

/-- What is the same as a text is that text. -/
theorem same_iff_of_isString (h : v.isString = true) : w.same v = true ↔ w = v := by
  cases v with
  | str s => exact same_str_iff
  | torn text => cases w <;> simp [same, sameNumber, number?, isNull]
  | _ => cases h

theorem isString_same_iff (h : v.isString = true) : v.same w = true ↔ w = v := by
  cases v with
  | str s => exact str_same_iff
  | torn text =>
    cases w with
    | torn other =>
      rw [same, beq_iff_eq, Value.torn.injEq]
      exact eq_comm
    | _ => simp [same]
  | _ => cases h

theorem sameInDocument_of_isString (h : v.isString = true) :
    w.sameInDocument v = true ↔ w = v := by
  have hnan : v.isNaN = false := by
    cases v with
    | str | torn => rfl
    | _ => cases h
  rw [sameInDocument, hnan, Bool.and_false, Bool.or_false, same_iff_of_isString h]

end Value
end SchemaScribe
