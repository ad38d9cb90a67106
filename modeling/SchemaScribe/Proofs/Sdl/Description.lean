import SchemaScribe.Proofs.Sdl.Name
import SchemaScribe.Proofs.Sdl.Scan

/-! # Descriptions

The block string of a text, scanned from its first quotes, ends with its last ones and says the text
between the line feeds that the layout puts around it. Texts are told apart by what their block
strings say.
-/
namespace SchemaScribe.Sdl

def lineFeedIf (b : Bool) : List Char := if b then ['\n'] else []

/-- What the block string of a text says. -/
def blockValue (text : List Char) : List Char :=
  lineFeedIf (BlockLayout.of text).before ++ text ++ lineFeedIf (BlockLayout.of text).after

/-- What is written behind the first quotes of the block string of a text. -/
def blockRest (text : List Char) : List Char :=
  lineFeedIf (BlockLayout.of text).before ++ escapeTripleQuotes text ++
    lineFeedIf (BlockLayout.of text).after ++ tripleQuote

theorem blockString_eq (text : List Char) : blockString text = tripleQuote ++ blockRest text := by
  simp [blockString, blockRest, lineFeedIf]

/-! ## The layout -/

theorem splitLines_ne_nil (text : List Char) : Text.splitLines text ≠ [] := by
  fun_cases Text.splitLines text <;> simp_all

/-- A text of one line has no line ends. -/
theorem length_splitLines_eq_one_iff {text : List Char} :
    (Text.splitLines text).length = 1 ↔ '\n' ∉ text ∧ '\r' ∉ text := by
  fun_induction Text.splitLines text with
  | case1 => simp
  | case2 rest | case3 rest | case4 rest => simp [splitLines_ne_nil]
  | case5 c rest hc hn hr line others hrest ih =>
    have hn' : ¬ '\n' = c := fun e => hn e.symm
    have hr' : ¬ '\r' = c := fun e => hr e.symm
    simpa [hrest, hn', hr'] using ih
  | case6 c rest hc hn hr hrest => exact absurd hrest (splitLines_ne_nil rest)

theorem mem_escapeTripleQuotes_iff {c : Char} (hc : c ≠ '\\') {text : List Char} :
    c ∈ escapeTripleQuotes text ↔ c ∈ text := by
  fun_induction escapeTripleQuotes text with
  | case1 rest ih => simp [hc, ih]
  | case2 d rest hd ih => simp [ih]
  | case3 => rfl

theorem length_splitLines_escape {text : List Char} :
    (Text.splitLines (escapeTripleQuotes text)).length = 1 ↔ (Text.splitLines text).length = 1 := by
  rw [length_splitLines_eq_one_iff, length_splitLines_eq_one_iff,
    mem_escapeTripleQuotes_iff (by decide), mem_escapeTripleQuotes_iff (by decide)]

/-- A text of several lines has line feeds around it as well. -/
theorem layout_of_lines {text : List Char} (h : (Text.splitLines text).length ≠ 1) :
    (BlockLayout.of text).before = true ∧ (BlockLayout.of text).after = true := by
  have hsingle : ((Text.splitLines (escapeTripleQuotes text)).length == 1) = false := by
    simpa using mt length_splitLines_escape.mp h
  simp [BlockLayout.of, hsingle]

theorem length_splitLines_of_before {text : List Char} (h : (BlockLayout.of text).before = false) :
    (Text.splitLines text).length = 1 := by
  refine Decidable.byContradiction fun hlines => ?_
  rw [(layout_of_lines hlines).1] at h
  exact Bool.noConfusion h

/-- A single line that is indented stays behind its first quotes. -/
theorem startsIndented_of_before {text : List Char} (hone : (Text.splitLines text).length = 1)
    (h : (BlockLayout.of text).before = true) : startsIndented text = false := by
  have hsingle : ((Text.splitLines (escapeTripleQuotes text)).length == 1) = true := by
    simpa using length_splitLines_escape.mpr hone
  simp only [BlockLayout.of, hsingle, Bool.not_true, Bool.false_and, Bool.true_and,
    Bool.or_false, Bool.and_eq_true, Bool.not_eq_true'] at h
  exact h.2

theorem before_eq_false {text : List Char} (h : (BlockLayout.of text).after = false) :
    (BlockLayout.of text).before = false := by
  simp only [BlockLayout.of, Bool.or_eq_false_iff] at h ⊢
  obtain ⟨⟨⟨hopen, hindented⟩, htriple⟩, -⟩ := h
  rw [hindented, hopen.1.1, hopen.1.2, hopen.2.1, hopen.2.2, htriple]
  exact ⟨rfl, rfl⟩

theorem not_mem_of_before {text : List Char} (h : (BlockLayout.of text).before = false) :
    '\n' ∉ text :=
  (length_splitLines_eq_one_iff.mp (length_splitLines_of_before h)).1

theorem endsWith_getLast {text : List Char} {c : Char} (h : text.getLast? = some c) :
    endsWith [c] text = true := by
  obtain ⟨front, rfl⟩ := List.getLast?_eq_some_iff.mp h
  exact List.isSuffixOf_iff_suffix.mpr ⟨front, rfl⟩

/-- A text that would run into its last quotes is kept apart from them. -/
theorem after_of_getLast {text : List Char}
    (h : text.getLast? = some '"' ∨ text.getLast? = some '\\') :
    (BlockLayout.of text).after = true := by
  rcases h with h | h
  · simp only [BlockLayout.of, endsWith_getLast h]
    cases endsWith ('\\' :: tripleQuote) (escapeTripleQuotes text) <;> simp
  · simp [BlockLayout.of, endsWith_getLast h]

/-! ## What a block string says -/

theorem lineFeedIf_plain (indentation : List Char) (hi : ∀ c ∈ indentation, c ≠ '"' ∧ c ≠ '\\')
    (b : Bool) : ∀ c ∈ indentBreaks indentation (lineFeedIf b), c ≠ '"' ∧ c ≠ '\\' := by
  cases b with
  | false => simp [lineFeedIf]
  | true =>
    intro c hc
    have hc' : c = '\n' ∨ c ∈ indentation := by simpa [lineFeedIf, indentBreaks] using hc
    rcases hc' with rfl | hc'
    · decide
    · exact hi c hc'

/-- A block string is scanned to its last quotes. -/
theorem scanBlock_blockRest {indentation : List Char}
    (hi : ∀ c ∈ indentation, c ≠ '"' ∧ c ≠ '\\') (text rest : List Char) :
    scanBlock (indentBreaks indentation (blockRest text) ++ rest) =
      some (indentBreaks indentation (blockValue text), rest) := by
  have hquotes : indentBreaks indentation tripleQuote = tripleQuote := rfl
  have hend : scanBlock (tripleQuote ++ rest) = some ([], rest) := rfl
  have hapart : text.getLast? = some '"' ∨ text.getLast? = some '\\' →
      leadingQuotes (indentBreaks indentation (lineFeedIf (BlockLayout.of text).after) ++
        (tripleQuote ++ rest)) = 0 := by
    intro hlast
    rw [after_of_getLast hlast]
    exact leadingQuotes_of_ne (by decide) _
  simp only [blockRest, blockValue, indentBreaks_append, hquotes, List.append_assoc]
  rw [scanBlock_append_of_plain (lineFeedIf_plain indentation hi _),
    scanBlock_escaped hi text _ hapart,
    scanBlock_append_of_plain (lineFeedIf_plain indentation hi _), hend]
  simp

/-- The text between the line feeds of a layout. -/
def unframe (value : List Char) : List Char :=
  if '\n' ∈ value then
    match value with
    | '\n' :: more => more.dropLast
    | _ => value.dropLast
  else value

/-- What a block string says tells its text. -/
theorem unframe_blockValue (text : List Char) : unframe (blockValue text) = text := by
  cases hafter : (BlockLayout.of text).after with
  | false =>
    have hbefore := before_eq_false hafter
    simp [blockValue, hafter, hbefore, lineFeedIf, unframe, not_mem_of_before hbefore]
  | true =>
    cases hbefore : (BlockLayout.of text).before with
    | true => simp [blockValue, hafter, hbefore, lineFeedIf, unframe]
    | false =>
      have hmem := not_mem_of_before hbefore
      match text, hmem with
      | [], _ => exact absurd hafter (by decide)
      | c :: text, hmem =>
        have hc : c ≠ '\n' := fun e => hmem (e ▸ List.mem_cons_self ..)
        simp only [blockValue, hafter, hbefore, lineFeedIf, unframe, if_true, List.nil_append,
          Bool.false_eq_true, if_false, List.mem_append, List.mem_singleton, or_true]
        split
        · next more heq => exact absurd (List.cons.inj heq).1 hc
        · exact List.dropLast_concat

theorem indentBreaks_inj (indentation : List Char) {text other : List Char}
    (h : indentBreaks indentation text = indentBreaks indentation other) : text = other := by
  induction text generalizing other with
  | nil =>
    cases other with
    | nil => rfl
    | cons d other =>
      rw [indentBreaks_cons] at h
      split at h <;> simp at h
  | cons c text ih =>
    cases other with
    | nil =>
      rw [indentBreaks_cons] at h
      split at h <;> simp at h
    | cons d other =>
      have hcd : c = d := by
        simp only [indentBreaks_cons] at h
        split at h <;> split at h <;> simp_all only [List.cons_append, List.cons.injEq,
          List.nil_append]
      subst hcd
      rw [indentBreaks_cons, indentBreaks_cons] at h
      rw [ih (List.append_cancel_left h)]

/-! ## Descriptions as they are printed -/

/-- Behind its line feed and its indentation every line of a text is where it was. -/
theorem flatMap_splitLineFeeds (indentation text : List Char) :
    ((Text.splitLineFeeds text).flatMap fun line => '\n' :: (indentation ++ line)) =
      indentBreaks indentation ('\n' :: text) := by
  induction text with
  | nil => simp [Text.splitLineFeeds, indentBreaks]
  | cons c text ih =>
    by_cases hc : c = '\n'
    · subst hc
      rw [Text.splitLineFeeds, if_pos rfl, List.flatMap_cons, ih, indentBreaks_cons _ '\n' (_ :: _)]
      simp
    · rw [indentBreaks_cons, indentBreaks_cons_of_ne _ _ hc]
      obtain ⟨line, others, hlines⟩ := List.exists_cons_of_ne_nil (Text.splitLineFeeds_ne_nil text)
      rw [hlines, List.flatMap_cons, indentBreaks_cons, if_pos rfl] at ih
      simp only [Text.splitLineFeeds, if_neg hc, hlines, List.flatMap_cons, if_pos]
      have hrest : line ++ (others.flatMap fun line => '\n' :: (indentation ++ line)) =
          indentBreaks indentation text := by
        simpa using ih
      rw [← hrest]
      simp

theorem descriptionLines_of_isNull (indentation : String) {v : Value} (hv : v.isNull = true) :
    descriptionLines indentation v = [] := by
  rw [descriptionLines, if_pos hv]

theorem lineText_descriptionLines (indentation : String) {v : Value} (hv : v.isNull = false) :
    lineText (descriptionLines indentation v) =
      '\n' :: indentation.toList ++ (tripleQuote ++
        indentBreaks indentation.toList (blockRest v.display.toList)) := by
  have hlines : lineText (descriptionLines indentation v) =
      indentBreaks indentation.toList ('\n' :: blockString v.display.toList) := by
    rw [← flatMap_splitLineFeeds]
    simp [lineText, descriptionLines, hv, List.flatMap_map]
  rw [hlines, blockString_eq, indentBreaks_cons, if_pos rfl, indentBreaks_append]
  rfl

def IsOptional (p : List Char → Prop) (v : Value) : Prop := v = .null ∨ ∃ s, v = .str s ∧ p s.toList

def IsDescription : Value → Prop := IsOptional fun _ => True

/-- Where the described thing begins: on a line of its own, with the same indentation. -/
def DescriptionEnds (indentation : List Char) (text : List Char) : Prop :=
  ∃ rest, Begins (· ≠ '"') rest ∧ text = '\n' :: indentation ++ rest

theorem separates_description (indentation : String)
    (hi : ∀ c ∈ indentation.toList, c ≠ '"' ∧ c ≠ '\\') :
    Separates (fun v => lineText (descriptionLines indentation v)) IsDescription
      (DescriptionEnds indentation.toList) id := by
  have htext : ∀ s : String, lineText (descriptionLines indentation (.str s)) =
      '\n' :: indentation.toList ++ (tripleQuote ++
        indentBreaks indentation.toList (blockRest s.toList)) := fun s =>
    lineText_descriptionLines indentation rfl
  have hquote : ∀ {s : String} {r x : List Char}, DescriptionEnds indentation.toList x →
      lineText (descriptionLines indentation (.str s)) ++ r ≠ x := by
    rintro s r _ ⟨rest, hrest, rfl⟩ heq
    rw [htext, List.append_assoc] at heq
    have hrest' := List.append_cancel_left heq
    exact not_begins_cons (by simp) _ (hrest' ▸ hrest)
  rintro _ _ r s (rfl | ⟨a, rfl, -⟩) (rfl | ⟨b, rfl, -⟩) hr hs heq
  · exact ⟨rfl, heq⟩
  · exact absurd heq.symm (hquote hr)
  · exact absurd heq (hquote hs)
  · simp only [htext, List.append_assoc, List.cons_append] at heq
    have hscan := congrArg scanBlock (List.append_cancel_left (List.append_cancel_left (List.cons.inj heq).2))
    rw [scanBlock_blockRest hi, scanBlock_blockRest hi] at hscan
    obtain ⟨hvalue, hrs⟩ := Prod.mk.inj (Option.some.inj hscan)
    have hab := congrArg unframe (indentBreaks_inj _ hvalue)
    rw [unframe_blockValue, unframe_blockValue] at hab
    exact ⟨congrArg Value.str (String.toList_injective hab), hrs⟩

end SchemaScribe.Sdl
