import SchemaScribe.Proofs.Sdl.BlockLines
import SchemaScribe.Proofs.Sdl.Token

/-! # Descriptions read back

What a reader finds in the block string of a description. It is the text of the description without
blank lines at its ends and, if it has several lines, without the indentation that they share. The
indentation that the block string is printed with is taken away again.
-/
namespace SchemaScribe.Sdl

/-- The text that a block string stands for, if nothing else follows it. -/
def readBlockString (text : List Char) : Option (List Char) :=
  match text.dropWhile isIgnored with
  | '"' :: '"' :: '"' :: rest =>
    match scanBlock rest with
    | some (raw, []) => some (blockStringValue raw)
    | _ => none
  | _ => none

/-- A text with a line feed for each of its line ends. -/
def normalizeBreaks : List Char → List Char
  | '\r' :: '\n' :: rest => '\n' :: normalizeBreaks rest
  | '\r' :: rest => '\n' :: normalizeBreaks rest
  | c :: rest => c :: normalizeBreaks rest
  | [] => []

/-- Every carriage return is directly followed by a line feed. -/
def ReturnsPaired (text : List Char) : Prop :=
  ∀ rest, '\r' :: rest <:+ text → rest.head? = some '\n'

/-- The lines that a block string keeps of a text. -/
def keptLines (lines : List (List Char)) : List (List Char) :=
  trimBlankLines (dedentSeveral lines)

/-- No blank line is at either end and, if there are several lines, one of them is not indented. -/
structure FitsBlock (text : List Char) : Prop where
  first : isBlankLine ((Text.splitLines text).head (splitLines_ne_nil text)) = false
  last : isBlankLine ((Text.splitLines text).getLast (splitLines_ne_nil text)) = false
  unindented : (Text.splitLines text).length ≠ 1 →
    ∃ line ∈ Text.splitLines text, line ≠ [] ∧ startsIndented line = false

variable {text line indentation : List Char} {lines others : List (List Char)}

theorem ReturnsPaired.of_cons {c : Char} (h : ReturnsPaired (c :: text)) : ReturnsPaired text :=
  fun rest hrest => h rest (hrest.trans (List.suffix_cons c text))

theorem returnsPaired_of_not_mem (h : '\r' ∉ text) : ReturnsPaired text :=
  fun _ hrest => absurd (hrest.subset (List.mem_cons_self ..)) h

/-! ## Lines split and joined -/

theorem splitLines_cons {c : Char} (hn : '\n' ≠ c) (hr : '\r' ≠ c) (text : List Char) :
    Text.splitLines (c :: text) = (Text.splitLines text).modifyHead (c :: ·) := by
  obtain ⟨line, others, hlines⟩ := List.exists_cons_of_ne_nil (splitLines_ne_nil text)
  rw [Text.splitLines.eq_def]
  split <;> simp_all

theorem splitLines_return (h : text.head? ≠ some '\n') :
    Text.splitLines ('\r' :: text) = [] :: Text.splitLines text := by
  rw [Text.splitLines]
  · rintro rest rfl
    exact h rfl

/-- What comes before a text on its first line belongs to that line. -/
theorem splitLines_append (hline : '\n' ∉ line ∧ '\r' ∉ line) (text : List Char) :
    Text.splitLines (line ++ text) = (Text.splitLines text).modifyHead (line ++ ·) := by
  obtain ⟨first, others, hlines⟩ := List.exists_cons_of_ne_nil (splitLines_ne_nil text)
  induction line with
  | nil => simp [hlines]
  | cons c line ih =>
    simp only [List.mem_cons, not_or] at hline
    rw [List.cons_append, splitLines_cons hline.1.1 hline.2.1, ih ⟨hline.1.2, hline.2.2⟩, hlines]
    rfl

theorem splitLines_of_plain (hline : '\n' ∉ line ∧ '\r' ∉ line) :
    Text.splitLines line = [line] := by
  have h := splitLines_append hline []
  rw [List.append_nil] at h
  simpa [Text.splitLines] using h

theorem plain_of_mem_splitLines (h : line ∈ Text.splitLines text) : '\n' ∉ line ∧ '\r' ∉ line := by
  fun_induction Text.splitLines text generalizing line with
  | case1 =>
    obtain rfl := List.mem_singleton.mp h
    simp
  | case2 rest ih | case3 rest ih | case4 rest _ ih =>
    rcases List.mem_cons.mp h with rfl | h
    · simp
    · exact ih h
  | case5 c rest hc hn hr first others hrest ih =>
    rw [hrest] at ih
    rcases List.mem_cons.mp h with rfl | h
    · have hfirst := ih (List.mem_cons_self ..)
      exact ⟨by simpa [hfirst.1] using fun e => hn e.symm,
        by simpa [hfirst.2] using fun e => hr e.symm⟩
    · exact ih (List.mem_cons_of_mem _ h)
  | case6 c rest hc hn hr hrest => exact absurd hrest (splitLines_ne_nil rest)

theorem joinLines_cons (hne : lines ≠ []) (line : List Char) :
    joinLines (line :: lines) = line ++ '\n' :: joinLines lines := by
  obtain ⟨next, others, rfl⟩ := List.exists_cons_of_ne_nil hne
  rw [joinLines, List.intercalate_cons_cons, List.append_assoc]
  rfl

theorem splitLines_joinLines (hne : lines ≠ [])
    (hplain : ∀ line ∈ lines, '\n' ∉ line ∧ '\r' ∉ line) :
    Text.splitLines (joinLines lines) = lines := by
  induction lines with
  | nil => exact absurd rfl hne
  | cons line lines ih =>
    have hline := hplain line (List.mem_cons_self ..)
    cases lines with
    | nil => rw [joinLines, List.intercalate_singleton, splitLines_of_plain hline]
    | cons next others =>
      have hrest := ih (by simp) fun line h => hplain line (List.mem_cons_of_mem _ h)
      rw [joinLines_cons (by simp), splitLines_append hline, Text.splitLines, hrest]
      simp

theorem joinLines_splitLines (text : List Char) :
    joinLines (Text.splitLines text) = normalizeBreaks text := by
  fun_induction Text.splitLines text with
  | case1 => rfl
  | case2 rest ih | case3 rest ih | case4 rest _ ih =>
    rw [joinLines_cons (splitLines_ne_nil rest), ih, normalizeBreaks]
    all_goals simp_all
  | case5 c rest hc hn hr line others hrest ih =>
    rw [normalizeBreaks, ← ih, hrest]
    · cases others with
      | nil => rfl
      | cons next others => simp [joinLines_cons]
    · simp_all
    · simp_all
  | case6 c rest hc hn hr hrest => exact absurd hrest (splitLines_ne_nil rest)

theorem normalizeBreaks_eq_nil_iff : normalizeBreaks text = [] ↔ text = [] := by
  fun_cases normalizeBreaks text <;> simp

/-! ## The lines of a printed text -/

theorem indentBreaks_lineFeed (indentation : List Char) :
    indentBreaks indentation (lineFeedIf true) = '\n' :: indentation := by
  simp [lineFeedIf, indentBreaks]

theorem plain_of_isIndent (hi : ∀ c ∈ indentation, isIndent c = true) :
    '\n' ∉ indentation ∧ '\r' ∉ indentation :=
  ⟨fun h => absurd (hi _ h) (by decide), fun h => absurd (hi _ h) (by decide)⟩

theorem isIgnored_of_isIndent (hi : ∀ c ∈ indentation, isIndent c = true) :
    ∀ c ∈ indentation, isIgnored c = true := by
  intro c hc
  have hindent : c = ' ' ∨ c = '\t' := by simpa [isIndent] using hi c hc
  rcases hindent with rfl | rfl <;> decide

/-- The lines of a text come with the indentation, and blank lines may follow them. An indented text
must not have carriage returns on their own, for no indentation follows those. -/
theorem splitLines_indentBreaks (hi : ∀ c ∈ indentation, isIndent c = true)
    (hr : indentation = [] ∨ ReturnsPaired text)
    (hlines : Text.splitLines text = line :: others) (b : Bool) :
    ∃ ends, (∀ line ∈ ends, isBlankLine line = true) ∧
      Text.splitLines (indentBreaks indentation text ++ indentBreaks indentation (lineFeedIf b)) =
        line :: (others.map (indentation ++ ·) ++ ends) := by
  have hindent := plain_of_isIndent hi
  fun_induction Text.splitLines text generalizing line others with
  | case1 =>
    obtain ⟨rfl, rfl⟩ := List.cons.inj hlines
    cases b with
    | false => exact ⟨[], by simp, rfl⟩
    | true =>
      refine ⟨[indentation], by simpa [isBlankLine] using hi, ?_⟩
      rw [indentBreaks_nil, List.nil_append, indentBreaks_lineFeed, Text.splitLines,
        splitLines_of_plain hindent]
      rfl
  | case2 rest ih =>
    obtain ⟨rfl, rfl⟩ := List.cons.inj hlines
    obtain ⟨next, more, hrest⟩ := List.exists_cons_of_ne_nil (splitLines_ne_nil rest)
    obtain ⟨ends, hends, hsplit⟩ := ih (hr.imp_right fun h => h.of_cons.of_cons) hrest
    refine ⟨ends, hends, ?_⟩
    rw [indentBreaks_cons_of_ne _ _ (by decide), indentBreaks_cons, if_pos rfl]
    simp only [List.cons_append, List.append_assoc]
    rw [Text.splitLines, splitLines_append hindent, hsplit, hrest]
    rfl
  | case3 rest ih =>
    obtain ⟨rfl, rfl⟩ := List.cons.inj hlines
    obtain ⟨next, more, hrest⟩ := List.exists_cons_of_ne_nil (splitLines_ne_nil rest)
    obtain ⟨ends, hends, hsplit⟩ := ih (hr.imp_right ReturnsPaired.of_cons) hrest
    refine ⟨ends, hends, ?_⟩
    rw [indentBreaks_cons, if_pos rfl]
    simp only [List.cons_append, List.append_assoc]
    rw [Text.splitLines, splitLines_append hindent, hsplit, hrest]
    rfl
  | case4 rest hfeed ih =>
    obtain ⟨rfl, rfl⟩ := List.cons.inj hlines
    obtain rfl : indentation = [] := by
      refine hr.resolve_right fun h => ?_
      obtain ⟨more, rfl⟩ := List.head?_eq_some_iff.mp (h rest List.suffix_rfl)
      exact hfeed more rfl
    cases rest with
    -- A line feed behind a carriage return at the end makes no line of its own.
    | nil => exact ⟨[], by simp, by cases b <;> rfl⟩
    | cons c rest =>
      obtain ⟨next, more, hrest⟩ := List.exists_cons_of_ne_nil (splitLines_ne_nil (c :: rest))
      obtain ⟨ends, hends, hsplit⟩ := ih (.inl rfl) hrest
      refine ⟨ends, hends, ?_⟩
      have hc : ∀ x : List Char, (indentBreaks [] (c :: rest) ++ x).head? ≠ some '\n' := by
        intro x hx
        rw [indentBreaks_cons_of_ne _ _ fun e => hfeed rest (e ▸ rfl)] at hx
        exact hfeed rest (Option.some.inj hx ▸ rfl)
      rw [indentBreaks_cons_of_ne _ _ (by decide), List.cons_append, splitLines_return (hc _),
        hsplit, hrest]
      rfl
  | case5 c rest hc hn hr' first others hrest ih =>
    obtain ⟨rfl, rfl⟩ := List.cons.inj hlines
    obtain ⟨ends, hends, hsplit⟩ := ih (hr.imp_right ReturnsPaired.of_cons) hrest
    refine ⟨ends, hends, ?_⟩
    rw [indentBreaks_cons_of_ne _ _ hn, List.cons_append,
      splitLines_cons (Ne.symm hn) (Ne.symm hr'), hsplit]
    rfl
  | case6 c rest hc hn hr' hrest => exact absurd hrest (splitLines_ne_nil rest)

/-- Where a line feed comes before a text, a single line of it is not indented. -/
theorem dedentSeveral_of_before (h : (BlockLayout.of text).before = true) :
    dedentSeveral (Text.splitLines text) = dedent (Text.splitLines text) := by
  rw [dedentSeveral]
  split
  · next hone =>
    have hstart := startsIndented_of_before hone h
    rw [splitLines_of_plain (length_splitLines_eq_one_iff.mp hone)]
    cases text with
    | nil => rfl
    | cons c text =>
      have hfull := isBlankLine_of_startsIndented (List.cons_ne_nil c text) hstart
      exact ((dedent_eq_self_iff ⟨c :: text, List.mem_singleton_self _, hfull⟩).mpr
        ⟨c :: text, List.mem_singleton_self _, List.cons_ne_nil c text, hstart⟩).symm
  · rfl

/-- What stands between the quotes of an indented block string says the lines that it keeps. -/
theorem blockStringValue_indented (hi : ∀ c ∈ indentation, isIndent c = true)
    (hr : indentation = [] ∨ ReturnsPaired text) :
    blockStringValue (indentBreaks indentation (blockValue text)) =
      joinLines (keptLines (Text.splitLines text)) := by
  obtain ⟨line, others, hlines⟩ := List.exists_cons_of_ne_nil (splitLines_ne_nil text)
  obtain ⟨ends, hends, hsplit⟩ :=
    splitLines_indentBreaks hi hr hlines (BlockLayout.of text).after
  rw [blockValue, List.append_assoc, indentBreaks_append, indentBreaks_append]
  cases hbefore : (BlockLayout.of text).before with
  | false =>
    -- The text is the first line. Blank lines behind it share no indentation.
    have hone := length_splitLines_of_before hbefore
    obtain rfl : others = [] := by simpa [hlines] using hone
    have hdedent : dedent ends = ends := by
      rw [dedent, commonIndent?_eq_none_iff.mpr hends]
    have htrim := trimBlankLines_append hends [line]
    rw [List.map_nil, List.nil_append] at hsplit
    have hfirst : indentBreaks indentation (lineFeedIf false) = [] := rfl
    rw [hfirst, List.nil_append, blockStringValue, hsplit, keptLines, dedentSeveral,
      if_pos hone, hlines]
    simp only [hdedent]
    exact congrArg joinLines htrim
  | true =>
    -- The first line is empty and all lines of the text are indented behind it.
    have hfirst := splitLines_append (plain_of_isIndent hi) (indentBreaks indentation text ++
      indentBreaks indentation (lineFeedIf (BlockLayout.of text).after))
    have hmapped : (indentation ++ line) :: (others.map (indentation ++ ·) ++ ends) =
        (Text.splitLines text).map (indentation ++ ·) ++ ends := by
      rw [hlines]
      rfl
    rw [hsplit, List.modifyHead_cons, hmapped] at hfirst
    rw [indentBreaks_lineFeed, List.cons_append, blockStringValue, Text.splitLines, hfirst,
      keptLines, dedentSeveral_of_before hbefore]
    simp only
    rw [trimBlankLines_cons rfl, trimBlankLines_dedent_indented hi hends]

/-! ## When a text is kept as it is -/

theorem keptLines_eq_self_iff (text : List Char) :
    keptLines (Text.splitLines text) = Text.splitLines text ↔ FitsBlock text := by
  rw [keptLines]
  constructor
  · intro h
    have hdedent : dedentSeveral (Text.splitLines text) = Text.splitLines text := by
      -- Lines are only taken away, so none was if there are as many as before.
      refine ((trimBlankLines_sublist _).eq_of_length ?_).symm.trans h
      rw [h, length_dedentSeveral]
    rw [hdedent] at h
    obtain ⟨hfirst, hlast⟩ := (trimBlankLines_eq_self_iff (splitLines_ne_nil text)).mp h
    exact ⟨hfirst, hlast,
      (dedentSeveral_eq_self_iff ⟨_, List.head_mem _, hfirst⟩).mp hdedent⟩
  · rintro ⟨hfirst, hlast, hunindented⟩
    rw [(dedentSeveral_eq_self_iff ⟨_, List.head_mem _, hfirst⟩).mpr hunindented]
    exact (trimBlankLines_eq_self_iff (splitLines_ne_nil text)).mpr ⟨hfirst, hlast⟩

theorem joinLines_keptLines_iff (text : List Char) :
    joinLines (keptLines (Text.splitLines text)) = normalizeBreaks text ↔
      text = [] ∨ FitsBlock text := by
  constructor
  · intro h
    by_cases hkept : keptLines (Text.splitLines text) = []
    · rw [hkept] at h
      exact .inl (normalizeBreaks_eq_nil_iff.mp h.symm)
    · have hplain : ∀ line ∈ keptLines (Text.splitLines text), '\n' ∉ line ∧ '\r' ∉ line := by
        intro line hline
        obtain ⟨other, hother, hsuffix⟩ :=
          exists_of_mem_dedentSeveral ((trimBlankLines_sublist _).mem hline)
        have hbreaks := plain_of_mem_splitLines hother
        exact ⟨mt hsuffix.mem hbreaks.1, mt hsuffix.mem hbreaks.2⟩
      have hlines := congrArg Text.splitLines (h.trans (joinLines_splitLines text).symm)
      rw [splitLines_joinLines hkept hplain, splitLines_joinLines (splitLines_ne_nil text)
        fun _ => plain_of_mem_splitLines] at hlines
      exact .inr ((keptLines_eq_self_iff text).mp hlines)
  · rintro (rfl | hfits)
    · rfl
    · rw [(keptLines_eq_self_iff text).mpr hfits, joinLines_splitLines]

/-! ## Reading a description -/

theorem toList_descriptionLines (indentation : String) {v : Value} (hv : v.isNull = false) :
    (Text.joinWith "\n" (descriptionLines indentation v)).toList = indentation.toList ++
      (tripleQuote ++ indentBreaks indentation.toList (blockRest v.display.toList)) := by
  have htext := lineText_descriptionLines indentation hv
  cases hlines : descriptionLines indentation v with
  | nil => rw [hlines] at htext; cases htext
  | cons line lines =>
    rw [hlines, lineText_cons] at htext
    rw [toList_joinWith_lines]
    exact (List.cons.inj htext).2

/-- A description is read back as the lines that its block string keeps. -/
theorem readBlockString_descriptionLines {indentation : String}
    (hi : ∀ c ∈ indentation.toList, isIndent c = true)
    {text : String} (hr : indentation = "" ∨ ReturnsPaired text.toList) :
    readBlockString (Text.joinWith "\n" (descriptionLines indentation (.str text))).toList =
      some (joinLines (keptLines (Text.splitLines text.toList))) := by
  have hblank := isIgnored_of_isIndent hi
  have hscan := scanBlock_blockRest (plain_of_blank hblank) text.toList []
  have hvalue := blockStringValue_indented hi (hr.imp_left fun h => by rw [h]; rfl)
  rw [List.append_nil] at hscan
  rw [toList_descriptionLines indentation rfl, readBlockString,
    List.dropWhile_append_of_pos hblank]
  have hquotes : ∀ rest, (tripleQuote ++ rest).dropWhile isIgnored = '"' :: '"' :: '"' :: rest :=
    fun _ => rfl
  rw [hquotes, ← hvalue]
  simp only [Value.display_str, hscan]

/-- A description is always read back, under any indentation. What is read is its text without
blank lines at its ends and, if it has several lines, without the indentation that they share. It is
all of the text exactly if there was nothing to take away. -/
theorem readBlockString_description {indentation : String}
    (hi : ∀ c ∈ indentation.toList, isIndent c = true) (text : String)
    (hr : indentation = "" ∨ ReturnsPaired text.toList) :
    ∃ value, readBlockString
        (Text.joinWith "\n" (descriptionLines indentation (.str text))).toList = some value ∧
      value = joinLines (keptLines (Text.splitLines text.toList)) ∧
      (value = normalizeBreaks text.toList ↔ text = "" ∨ FitsBlock text.toList) := by
  refine ⟨_, readBlockString_descriptionLines hi hr, rfl, ?_⟩
  rw [joinLines_keptLines_iff, String.toList_eq_nil_iff]

/-- A text whose second line is indented further than the first one. -/
def hangingText : String := "Each cell,\n  row by row."

theorem readBlockString_description_hanging :
    (∀ c ∈ "  ".toList, isIndent c = true) ∧ ReturnsPaired hangingText.toList ∧
      readBlockString (Text.joinWith "\n" (descriptionLines "  " (.str hangingText))).toList =
        some hangingText.toList := by
  have hchars : hangingText.toList = _ := String.toList_ofList
  have hi : ∀ c ∈ "  ".toList, isIndent c = true := by
    rw [String.toList_ofList]
    simp [isIndent]
  have hr : ReturnsPaired hangingText.toList := by
    rw [hchars]
    exact returnsPaired_of_not_mem (by decide)
  have hfits : FitsBlock hangingText.toList := by
    rw [hchars]
    exact ⟨by decide, by decide, fun _ => ⟨_, List.mem_cons_self .., by decide, by decide⟩⟩
  obtain ⟨value, hread, -, hsame⟩ := readBlockString_description hi hangingText (.inr hr)
  refine ⟨hi, hr, ?_⟩
  rw [hread, hsame.mpr (.inr hfits), hchars]
  decide

/-- Lines that are all indented lose the indentation. A line behind a lone carriage return is not
indented with the others, so these keep the indentation of the block string. -/
theorem description_reread_otherwise :
    readBlockString (Text.joinWith "\n" (descriptionLines "" (.str " a\n b"))).toList =
        some "a\nb".toList ∧
      "a\nb".toList ≠ normalizeBreaks " a\n b".toList ∧
      readBlockString (Text.joinWith "\n" (descriptionLines "  " (.str "a\rb"))).toList =
        some "  a\nb".toList ∧
      "  a\nb".toList ≠ normalizeBreaks "a\rb".toList := by
  refine ⟨?_, ?_, ?_, ?_⟩
  · rw [toList_descriptionLines "" rfl, Value.display_str]
    repeat rw [String.toList_ofList]
    rfl
  · repeat rw [String.toList_ofList]
    decide
  · rw [toList_descriptionLines "  " rfl, Value.display_str]
    repeat rw [String.toList_ofList]
    rfl
  · repeat rw [String.toList_ofList]
    decide

end SchemaScribe.Sdl
