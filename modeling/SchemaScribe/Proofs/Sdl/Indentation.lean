import Mathlib.Data.List.Infix
import SchemaScribe.Proofs.Sdl.Rereading

/-! # Descriptions under an indentation

Wherever its lines are indented, a description is one block string. No text of its own ends it
before its last quotes, and nothing that follows is drawn into it. What is read from it does not
depend on how far it was indented.
-/
namespace SchemaScribe.Sdl

/-- What stands behind the first quotes of a block string with that text. Its last quotes end it,
whatever follows, and no part of it that stops earlier is a whole block string. -/
structure Encloses (inner value : List Char) : Prop where
  ends : ∀ rest, scanBlock (inner ++ rest) = some (value, rest)
  no_sooner : ∀ front, front <+: inner → front ≠ inner → scanBlock front = none

/-! ## Where a block string ends -/

/-- A block string that is read to its last character has no end before. -/
theorem scanBlock_of_prefix {inner front value : List Char}
    (h : scanBlock inner = some (value, [])) (hfront : front <+: inner) (hne : front ≠ inner) :
    scanBlock front = none := by
  obtain ⟨more, rfl⟩ := hfront
  cases hscan : scanBlock front with
  | none => rfl
  | some read =>
    -- The end that was found is that of the whole, and leaves nothing behind it.
    have hwhole := scanBlock_append hscan more
    rw [h] at hwhole
    have hrest : [] = read.2 ++ more := congrArg Prod.snd (Option.some.inj hwhole)
    have hmore : more = [] := (List.append_eq_nil_iff.mp hrest.symm).2
    exact absurd (by rw [hmore, List.append_nil]) hne

theorem encloses_of_scanBlock {inner value : List Char}
    (h : ∀ rest, scanBlock (inner ++ rest) = some (value, rest)) : Encloses inner value := by
  have hwhole : scanBlock inner = some (value, []) := by simpa using h []
  exact ⟨h, fun front hfront hne => scanBlock_of_prefix hwhole hfront hne⟩

theorem encloses_blockRest {indentation : List Char} (hi : ∀ c ∈ indentation, isIndent c = true)
    (text : List Char) :
    Encloses (indentBreaks indentation (blockRest text))
      (indentBreaks indentation (blockValue text)) :=
  encloses_of_scanBlock (scanBlock_blockRest (plain_of_blank (isIgnored_of_isIndent hi)) text)

theorem lex_append_of_ignored {blank : List Char} (hblank : ∀ c ∈ blank, isIgnored c = true)
    (text : List Char) : lex (blank ++ text) = lex text := by
  induction blank with
  | nil => rfl
  | cons c blank ih =>
    obtain ⟨hc, hrest⟩ := List.forall_mem_cons.mp hblank
    rw [List.cons_append, lex_ignored hc, ih hrest]

theorem Encloses.lex {inner value : List Char} (h : Encloses inner value) :
    lex (tripleQuote ++ inner) = some [.text value] := by
  have hwhole : scanBlock inner = some (value, []) := by simpa using h.ends []
  have hstart : StartsWith (tripleQuote ++ inner) (.text value) [] := .block hwhole
  rw [hstart.lex, Sdl.lex]
  rfl

/-- A description is printed as an indentation and one token, whatever value it is. The token opens
with three quotes and is closed by its last three, whatever comes behind them and not before, and it
says the text of the description on lines of the same indentation. -/
theorem description_enclosed {indentation : String}
    (hi : ∀ c ∈ indentation.toList, isIndent c = true) {v : Value} (hv : v.isNull = false) :
    ∃ inner value,
      (Text.joinWith "\n" (descriptionLines indentation v)).toList =
        indentation.toList ++ (tripleQuote ++ inner) ∧
      Encloses inner value ∧ value = indentBreaks indentation.toList (blockValue v.display.toList) ∧
      lex (Text.joinWith "\n" (descriptionLines indentation v)).toList = some [.text value] := by
  have hlines := toList_descriptionLines indentation hv
  have henclosed := encloses_blockRest hi v.display.toList
  refine ⟨_, _, hlines, henclosed, rfl, ?_⟩
  rw [hlines, lex_append_of_ignored (isIgnored_of_isIndent hi), henclosed.lex]

/-- A list whose one text tries to end its block string and to go on behind it. -/
def breakoutList : Value := .list [.str "\\\"\"\" scalar Text \"\"\"\""]

theorem description_enclosed_breakout : (∀ c ∈ "    ".toList, isIndent c = true) ∧
    breakoutList.isNull = false ∧
    ∃ value, lex (Text.joinWith "\n" (descriptionLines "    " breakoutList)).toList =
      some [.text value] := by
  have hi : ∀ c ∈ "    ".toList, isIndent c = true := by
    rw [String.toList_ofList]
    simp [isIndent]
  obtain ⟨inner, value, -, -, -, hlex⟩ := description_enclosed hi (v := breakoutList) rfl
  exact ⟨hi, rfl, value, hlex⟩

/-! ## What is read under different indentations -/

theorem returnsPaired_iff {text : List Char} : ReturnsPaired text ↔
    ∀ tail ∈ text.tails, tail.head? = some '\r' → tail.tail.head? = some '\n' := by
  constructor
  · intro h tail htail hreturn
    obtain ⟨rest, rfl⟩ := List.head?_eq_some_iff.mp hreturn
    exact h rest ((List.mem_tails _ _).mp htail)
  · intro h rest hrest
    exact h _ ((List.mem_tails _ _).mpr hrest) rfl

instance (text : List Char) : Decidable (ReturnsPaired text) :=
  decidable_of_iff _ returnsPaired_iff.symm

/-- A description without carriage returns on their own reads the same wherever it is printed. -/
theorem readBlockString_indented {text : String} (hr : ReturnsPaired text.toList)
    {first second : String} (hfirst : ∀ c ∈ first.toList, isIndent c = true)
    (hsecond : ∀ c ∈ second.toList, isIndent c = true) :
    ∃ value,
      readBlockString (Text.joinWith "\n" (descriptionLines first (.str text))).toList =
        some value ∧
      readBlockString (Text.joinWith "\n" (descriptionLines second (.str text))).toList =
        some value :=
  ⟨_, readBlockString_descriptionLines hfirst (.inr hr),
    readBlockString_descriptionLines hsecond (.inr hr)⟩

/-- Lines indented in different ways, with blank ones between and around them. -/
def raggedText : String := "\r\n  Rows\r\n\r\n\t  of cells\n \n"

theorem returnsPaired_raggedText : ReturnsPaired raggedText.toList := by
  have hchars : raggedText.toList = _ := String.toList_ofList
  rw [hchars]
  decide

theorem readBlockString_indented_ragged : ReturnsPaired raggedText.toList ∧
    (∀ c ∈ "".toList, isIndent c = true) ∧ (∀ c ∈ "    ".toList, isIndent c = true) ∧
    readBlockString (Text.joinWith "\n" (descriptionLines "    " (.str raggedText))).toList =
      readBlockString (Text.joinWith "\n" (descriptionLines "" (.str raggedText))).toList ∧
    readBlockString (Text.joinWith "\n" (descriptionLines "" (.str raggedText))).toList =
      some "Rows\n\n of cells".toList := by
  have hnone : ∀ c ∈ "".toList, isIndent c = true := by simp
  have hi : ∀ c ∈ "    ".toList, isIndent c = true := by
    rw [String.toList_ofList]
    simp [isIndent]
  obtain ⟨value, hbare, hindented⟩ := readBlockString_indented returnsPaired_raggedText hnone hi
  refine ⟨returnsPaired_raggedText, hnone, hi, hindented.trans hbare.symm, ?_⟩
  rw [toList_descriptionLines "" rfl, Value.display_str, raggedText]
  repeat rw [String.toList_ofList]
  rfl

end SchemaScribe.Sdl
