import SchemaScribe.Json.Reader
import SchemaScribe.Json.Writer

/-! # Strings that are read back

In the ASCII style every character of a text is written by itself, by a letter, or by one or two
numbers of four digits. A reader that meets them has the numbers of the code units of the
character, and two halves that stand together make the character they were taken from.
-/
namespace SchemaScribe.Json

/-- The code units of a character: its own number, or the two halves of a surrogate pair. -/
def units (c : Char) : List Nat :=
  if c.toNat < 0x10000 then [c.toNat]
  else [0xD800 + (c.toNat - 0x10000) / 0x400, 0xDC00 + (c.toNat - 0x10000) % 0x400]

theorem toNat_lt (c : Char) : c.toNat < 0x110000 := by
  have hc := Text.toNat_cases c
  omega

theorem isHighSurrogate_toNat (c : Char) : isHighSurrogate c.toNat = false := by
  have hc := Text.toNat_cases c
  simp only [isHighSurrogate, Bool.and_eq_false_iff, decide_eq_false_iff_not]
  omega

/-- The characters that are written with a letter. -/
def lettered : List Char := ['"', '\\', '\n', '\r', '\t', '\x0c', '\x08']

/-- Any other character is written by itself if it is visible ASCII, and otherwise by number. -/
theorem writeChar_of_not_lettered {c : Char} (hc : c ∉ lettered) :
    writeChar true c = if 0x20 ≤ c.toNat ∧ c.toNat < 0x7F then [c] else numberEscape c := by
  simp only [lettered, List.mem_cons, List.not_mem_nil, or_false, not_or] at hc
  obtain ⟨hquote, hslash, hfeed, hreturn, htab, hform, hback⟩ := hc
  simp only [writeChar, hquote, hslash, hfeed, hreturn, htab, hform, hback, if_false, Bool.true_and,
    decide_eq_true_eq]
  by_cases hlow : c.toNat < 0x20
  · rw [if_pos hlow, if_neg (by omega)]
  by_cases hhigh : 0x7F ≤ c.toNat
  · rw [if_neg hlow, if_pos hhigh, if_neg (by omega)]
  · rw [if_neg hlow, if_neg hhigh, if_pos (by omega)]

/-! ## Numeric escapes -/

theorem hexValue?_lowerHexDigit (n : Nat) :
    Text.hexValue? (Text.lowerHexDigit n) = some (n % 16) := by
  have h : ∀ d < 16, Text.hexValue? (Nat.digitChar d) = some d := by decide
  exact h _ (Nat.mod_lt n (by omega))

theorem hexNumber?_lowerHexDigits {n : Nat} (hn : n < 0x10000) :
    hexNumber? (Text.hexDigits Text.lowerHexDigit 4 n) = some n := by
  simp only [Text.hexDigits, List.nil_append, List.cons_append, hexNumber?, List.foldl_cons,
    List.foldl_nil, hexValue?_lowerHexDigit, Option.map_some, Option.bind_some, Option.some.injEq]
  omega

section Reading
variable {left : Nat} {rest : List Char}

/-- A numeric escape is read as its number, if the text does not end there. -/
theorem readString_unitEscape {n : Nat} (hn : n < 0x10000) (hrest : rest ≠ []) :
    readString left (unitEscape n ++ rest) =
      (readString left rest).map fun (ns, after) => (n :: ns, after) := by
  have hnumber := hexNumber?_lowerHexDigits hn
  have hmore : rest.isEmpty = false := List.isEmpty_eq_false_iff.mpr hrest
  simp only [Text.hexDigits, List.nil_append, List.cons_append] at hnumber
  simp only [unitEscape, Text.hexDigits, List.nil_append, List.cons_append, readString, hnumber,
    hmore, Bool.false_eq_true, if_false]

theorem readString_numberEscape {c : Char} (hrest : rest ≠ []) :
    readString left (numberEscape c ++ rest) =
      (readString left rest).map fun (ns, after) => (units c ++ ns, after) := by
  have hc : c.toNat < 0x110000 := toNat_lt c
  unfold numberEscape units
  dsimp only
  split
  · next hsmall => exact readString_unitEscape hsmall hrest
  · have hlow : unitEscape (0xDC00 + (c.toNat - 0x10000) % 0x400) ++ rest ≠ [] := by
      simp [unitEscape]
    rw [List.append_assoc, readString_unitEscape (by omega) hlow,
      readString_unitEscape (by omega) hrest]
    cases readString left rest <;> rfl

/-- A character with a letter of its own is written as a backslash and the letter. -/
theorem readString_lettered {c : Char} (hc : c ∈ lettered) :
    readString left (writeChar true c ++ rest) =
      (readString left rest).map fun (ns, after) => (units c ++ ns, after) := by
  simp only [lettered, List.mem_cons, List.not_mem_nil, or_false] at hc
  rcases hc with rfl | rfl | rfl | rfl | rfl | rfl | rfl
  all_goals simp [writeChar, readString, escaped?, units]

/-- A character that was written is read as its code units. -/
theorem readString_writeChar {c : Char} (hrest : rest ≠ []) :
    readString left (writeChar true c ++ rest) =
      (readString left rest).map fun (ns, after) => (units c ++ ns, after) := by
  by_cases hletter : c ∈ lettered
  · exact readString_lettered hletter
  rw [writeChar_of_not_lettered hletter]
  split
  · next hplain =>
    have hsmall : c.toNat < 0x10000 := by omega
    have hvisible : ¬ c.toNat < 0x20 := by omega
    have hquote : c ≠ '"' := by
      rintro rfl
      exact hletter (by decide)
    have hslash : c ≠ '\\' := by
      rintro rfl
      exact hletter (by decide)
    simp [readString, units, hslash, hsmall, hvisible]
  · exact readString_numberEscape hrest

/-- A text that was written is read as its code units, up to its closing quote. -/
theorem readString_written (text : List Char) :
    readString left (text.flatMap (writeChar true) ++ '"' :: rest) =
      .ok (text.flatMap units, rest) := by
  induction text with
  | nil => rfl
  | cons c text ih =>
    have hmore : text.flatMap (writeChar true) ++ '"' :: rest ≠ [] := by simp
    rw [List.flatMap_cons, List.append_assoc, readString_writeChar hmore, ih]
    rfl

end Reading

/-! ## Surrogate pairs -/

/-- The code units of a character make that character, whatever comes after them. -/
theorem joinPairs_units (c : Char) (ns : List Nat) :
    joinPairs (units c ++ ns) = c.toNat :: joinPairs ns := by
  unfold units
  split
  · cases ns with
    | nil => rfl
    | cons n ns => simp [joinPairs, isHighSurrogate_toNat]
  · next hlarge =>
    have hbound : c.toNat < 0x110000 := toNat_lt c
    have hhigh : isHighSurrogate (0xD800 + (c.toNat - 0x10000) / 0x400) = true := by
      simp only [isHighSurrogate, Bool.and_eq_true, decide_eq_true_eq]
      omega
    have hlow : isLowSurrogate (0xDC00 + (c.toNat - 0x10000) % 0x400) = true := by
      simp only [isLowSurrogate, Bool.and_eq_true, decide_eq_true_eq]
      omega
    have hsum : 0x10000 + (0xD800 + (c.toNat - 0x10000) / 0x400 - 0xD800) * 0x400 +
        (0xDC00 + (c.toNat - 0x10000) % 0x400 - 0xDC00) = c.toNat := by omega
    rw [List.cons_append, List.cons_append, joinPairs, hhigh, hlow, Bool.and_self, if_pos rfl, hsum,
      List.nil_append]

theorem joinPairs_flatMap_units (text : List Char) :
    joinPairs (text.flatMap units) = text.map Char.toNat := by
  induction text with
  | nil => rfl
  | cons c text ih => rw [List.flatMap_cons, joinPairs_units, ih, List.map_cons]

/-- A string that was written is read as the text it was written for. -/
theorem readText_written (s : String) (rest : List Char) :
    readText (s.toList.flatMap (writeChar true) ++ '"' :: rest) = .ok (.str s, rest) := by
  simp only [readText, readString_written, Except.map, joinPairs_flatMap_units,
    Value.ofCodes_map_toNat, String.ofList_toList]

/-! ## ASCII -/

/-- All characters are ASCII. -/
def Ascii (text : List Char) : Prop := ∀ c ∈ text, c.toNat < 0x80

instance (text : List Char) : Decidable (Ascii text) :=
  List.decidableBAll (fun c : Char => c.toNat < 0x80) text

theorem Ascii.append {text more : List Char} (h : Ascii text) (hm : Ascii more) :
    Ascii (text ++ more) := by
  intro c hc
  rcases List.mem_append.mp hc with hc | hc
  · exact h c hc
  · exact hm c hc

theorem ascii_unitEscape (n : Nat) : Ascii (unitEscape n) := by
  have hdigit : ∀ n, (Text.lowerHexDigit n).toNat < 0x80 := by
    intro n
    have h : ∀ d < 16, (Nat.digitChar d).toNat < 0x80 := by decide
    exact h _ (Nat.mod_lt n (by omega))
  intro c hc
  simp only [unitEscape, Text.hexDigits, List.nil_append, List.cons_append, List.mem_cons,
    List.not_mem_nil, or_false] at hc
  rcases hc with rfl | rfl | rfl | rfl | rfl | rfl
  · decide
  · decide
  all_goals exact hdigit _

theorem ascii_numberEscape (c : Char) : Ascii (numberEscape c) := by
  unfold numberEscape
  dsimp only
  split
  · exact ascii_unitEscape _
  · exact (ascii_unitEscape _).append (ascii_unitEscape _)

theorem ascii_writeChar (c : Char) : Ascii (writeChar true c) := by
  by_cases hletter : c ∈ lettered
  · simp only [lettered, List.mem_cons, List.not_mem_nil, or_false] at hletter
    rcases hletter with rfl | rfl | rfl | rfl | rfl | rfl | rfl
    all_goals decide
  rw [writeChar_of_not_lettered hletter]
  split
  · next hplain =>
    intro other ho
    rw [List.mem_singleton.mp ho]
    omega
  · exact ascii_numberEscape c

theorem ascii_writeString (s : String) : Ascii (writeString true s).toList := by
  intro c hc
  simp only [writeString, String.toList_ofList, List.cons_append, List.mem_cons, List.mem_append,
    List.mem_flatMap, List.not_mem_nil, or_false] at hc
  rcases hc with rfl | ⟨source, -, hc⟩ | rfl
  · decide
  · exact ascii_writeChar source c hc
  · decide

end SchemaScribe.Json
