import SchemaScribe.CommandLine.Header
import SchemaScribe.Proofs.Text.Trimming

/-! # The text of a header

A header can be read if something that is not white space stands before its first colon. Its text is
then a name without a colon and a value, with white space around both, in one way only. So what was
read can be written down with a colon, and a blank if one likes, and read again.
-/
namespace SchemaScribe.CommandLine

/-- There is a colon, and not only white space before the first one. -/
def HasName (raw : String) : Prop :=
  ∃ before after, raw.toList = before ++ ':' :: after ∧ ':' ∉ before ∧
    ∃ c ∈ before, Text.isBlank c = false

/-- A name and a value without the white space around them. Colons may stand in the value. -/
structure IsHeader (name value : String) : Prop where
  nonempty : name ≠ ""
  undivided : ':' ∉ name.toList
  name_trimmed : Text.IsTrimmed Text.isBlank name.toList
  value_trimmed : Text.IsTrimmed Text.isBlank value.toList

def IsBlankText (text : String) : Prop := ∀ c ∈ text.toList, Text.isBlank c = true

/-- The text has the two parts with a colon between them and white space around both. -/
def Spells (raw name value : String) : Prop :=
  ∃ front back left right,
    IsBlankText front ∧ IsBlankText back ∧ IsBlankText left ∧ IsBlankText right ∧
      raw = front ++ name ++ back ++ ":" ++ left ++ value ++ right

variable {raw name value : String} {before after : List Char}

/-! ## The first colon -/

theorem cutAt_append {separator : Char} (h : separator ∉ before) (after : List Char) :
    cutAt separator (before ++ separator :: after) = some (before, after) := by
  induction before with
  | nil => simp [cutAt]
  | cons c rest ih =>
    rw [List.mem_cons, not_or] at h
    simp [cutAt, Ne.symm h.1, ih h.2]

theorem parseHeader_of_colon (hraw : raw.toList = before ++ ':' :: after) (h : ':' ∉ before) :
    parseHeader raw = if Text.trimmed Text.isBlank before = [] then none
      else some (String.ofList (Text.trimmed Text.isBlank before),
        String.ofList (Text.trimmed Text.isBlank after)) := by
  simp only [parseHeader, hraw, cutAt_append h, Text.trimEnds_eq_trimmed, List.isEmpty_iff]

theorem parseHeader_of_no_colon (h : ':' ∉ raw.toList) : parseHeader raw = none := by
  rw [parseHeader]
  cases hcut : cutAt ':' raw.toList with
  | none => rfl
  | some parts =>
    rw [(eq_of_cutAt hcut).1] at h
    exact absurd (List.mem_append_right _ List.mem_cons_self) h

/-- What is read are the trimmed parts of the text on both sides of its first colon. -/
theorem parseHeader_eq_some_iff : parseHeader raw = some (name, value) ↔ name ≠ "" ∧
    ∃ before after, raw.toList = before ++ ':' :: after ∧ ':' ∉ before ∧
      Text.trimmed Text.isBlank before = name.toList ∧
      Text.trimmed Text.isBlank after = value.toList := by
  constructor
  · intro h
    by_cases hcolon : ':' ∈ raw.toList
    · obtain ⟨before, after, hraw, hbefore⟩ := List.eq_append_cons_of_mem hcolon
      rw [parseHeader_of_colon hraw hbefore] at h
      split at h
      · cases h
      · next hne =>
        obtain ⟨rfl, rfl⟩ := Prod.mk.inj (Option.some.inj h)
        refine ⟨fun hempty => hne ?_, before, after, hraw, hbefore, ?_, ?_⟩
        · simpa using congrArg String.toList hempty
        · rw [String.toList_ofList]
        · rw [String.toList_ofList]
    · rw [parseHeader_of_no_colon hcolon] at h
      cases h
  · rintro ⟨hname, before, after, hraw, hbefore, htrim, hvalue⟩
    have hne : name.toList ≠ [] := fun h => hname (String.toList_eq_nil_iff.mp h)
    rw [parseHeader_of_colon hraw hbefore, htrim, hvalue, if_neg hne, String.ofList_toList,
      String.ofList_toList]

theorem isSome_parseHeader_iff : (parseHeader raw).isSome ↔ HasName raw := by
  have hnamed : ∀ before : List Char,
      Text.trimmed Text.isBlank before ≠ [] ↔ ∃ c ∈ before, Text.isBlank c = false := by
    intro before
    rw [Ne, Text.trimmed_eq_nil_iff]
    simp
  constructor
  · intro h
    obtain ⟨⟨name, value⟩, hread⟩ := Option.isSome_iff_exists.mp h
    obtain ⟨hname, before, after, hraw, hbefore, htrim, -⟩ := parseHeader_eq_some_iff.mp hread
    refine ⟨before, after, hraw, hbefore, (hnamed before).mp fun hnil => hname ?_⟩
    exact String.toList_eq_nil_iff.mp (htrim.symm.trans hnil)
  · rintro ⟨before, after, hraw, hbefore, hfull⟩
    rw [parseHeader_of_colon hraw hbefore, if_neg ((hnamed before).mpr hfull)]
    rfl

/-! ## The white space around the parts -/

theorem trimmed_blanks {front middle back : String} (hfront : IsBlankText front)
    (hback : IsBlankText back) (h : Text.IsTrimmed Text.isBlank middle.toList) :
    Text.trimmed Text.isBlank (front ++ middle ++ back).toList = middle.toList := by
  simp only [String.toList_append]
  exact Text.trimmed_eq_iff.mpr ⟨h, front.toList, back.toList, hfront, hback, rfl⟩

theorem exists_blanks {s : List Char} (h : Text.trimmed Text.isBlank s = name.toList) :
    Text.IsTrimmed Text.isBlank name.toList ∧
      ∃ front back, IsBlankText front ∧ IsBlankText back ∧ s = (front ++ name ++ back).toList := by
  obtain ⟨hname, front, back, hfront, hback, hs⟩ := Text.trimmed_eq_iff.mp h
  refine ⟨hname, String.ofList front, String.ofList back, ?_, ?_, ?_⟩
  · simpa [IsBlankText] using hfront
  · simpa [IsBlankText] using hback
  · simpa using hs

theorem IsBlankText.not_mem {text : String} (h : IsBlankText text) : ':' ∉ text.toList :=
  fun hcolon => absurd (h ':' hcolon) (by decide)

/-- A text is read as the header that it spells, and as no other. -/
theorem parseHeader_eq_some_iff_spells :
    parseHeader raw = some (name, value) ↔ IsHeader name value ∧ Spells raw name value := by
  rw [parseHeader_eq_some_iff]
  constructor
  · rintro ⟨hne, before, after, hraw, hcolon, hname, hvalue⟩
    obtain ⟨hnameEnds, front, back, hfront, hback, rfl⟩ := exists_blanks hname
    obtain ⟨hvalueEnds, left, right, hleft, hright, rfl⟩ := exists_blanks hvalue
    have hundivided : ':' ∉ name.toList := fun h => hcolon (by simp [h])
    refine ⟨⟨hne, hundivided, hnameEnds, hvalueEnds⟩, front, back, left, right, hfront, hback,
      hleft, hright, String.toList_inj.mp ?_⟩
    simp [hraw]
  · rintro ⟨h, front, back, left, right, hfront, hback, hleft, hright, rfl⟩
    refine ⟨h.nonempty, (front ++ name ++ back).toList, (left ++ value ++ right).toList, ?_, ?_,
      trimmed_blanks hfront hback h.name_trimmed, trimmed_blanks hleft hright h.value_trimmed⟩
    · simp
    · simp [hfront.not_mem, h.undivided, hback.not_mem]

/-! ## Reading again -/

theorem isBlankText_empty : IsBlankText "" := by simp [IsBlankText]

theorem IsHeader.parseHeader_eq (h : IsHeader name value) {blanks : String}
    (hblanks : IsBlankText blanks) :
    parseHeader (name ++ ":" ++ blanks ++ value) = some (name, value) := by
  refine parseHeader_eq_some_iff_spells.mpr ⟨h, "", "", blanks, "", isBlankText_empty,
    isBlankText_empty, hblanks, isBlankText_empty, ?_⟩
  simp

/-- A text is read if and only if it has a name, and as the one header that it spells. Written with
a colon, or with a colon and a blank, a header is read as itself. -/
theorem parseHeader_exact :
    (∀ raw, ((parseHeader raw).isSome ↔ HasName raw) ∧ ∀ name value,
      (parseHeader raw = some (name, value) ↔ IsHeader name value ∧ Spells raw name value) ∧
      (parseHeader raw = some (name, value) →
        parseHeader (name ++ ": " ++ value) = some (name, value))) ∧
    ∀ name value, IsHeader name value →
      parseHeader (name ++ ":" ++ value) = some (name, value) := by
  refine ⟨fun raw => ⟨isSome_parseHeader_iff, fun name value =>
    ⟨parseHeader_eq_some_iff_spells, fun hread => ?_⟩⟩, fun name value h => ?_⟩
  · have hblank : IsBlankText " " := by simp [IsBlankText, Text.isBlank]
    have hspaced : name ++ ":" ++ " " ++ value = name ++ ": " ++ value :=
      String.toList_inj.mp (by simp)
    rw [← hspaced]
    exact (parseHeader_eq_some_iff_spells.mp hread).1.parseHeader_eq hblank
  · simpa using h.parseHeader_eq isBlankText_empty

/-- White space of several scripts around both parts, and some of it inside them with colons. -/
def tracedText : String := "\t\u3000X Trace\u00a0: a:b  c:\u2028"

theorem parseHeader_exact_traced : parseHeader tracedText = some ("X Trace", "a:b  c:") ∧
    HasName tracedText ∧ Spells tracedText "X Trace" "a:b  c:" ∧
    parseHeader ("X Trace" ++ ": " ++ "a:b  c:") = some ("X Trace", "a:b  c:") ∧
    IsHeader "X Trace" "a:b  c:" ∧
    parseHeader ("X Trace" ++ ":" ++ "a:b  c:") = some ("X Trace", "a:b  c:") := by
  have hread : parseHeader tracedText = some ("X Trace", "a:b  c:") := by decide
  obtain ⟨hnamed, hparts⟩ := parseHeader_exact.1 tracedText
  obtain ⟨hspells, hagain⟩ := hparts "X Trace" "a:b  c:"
  obtain ⟨hheader, hspelled⟩ := hspells.mp hread
  exact ⟨hread, hnamed.mp (by rw [hread]; rfl), hspelled, hagain hread, hheader,
    parseHeader_exact.2 _ _ hheader⟩

end SchemaScribe.CommandLine
