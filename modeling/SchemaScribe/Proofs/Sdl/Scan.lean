import SchemaScribe.Sdl.BlockString
import SchemaScribe.Sdl.StringLiteral

/-! # Scanning string tokens

How a reader of the schema definition language finds the end of a string and what the string says.
A string literal that is written ends at its last quote and says the text it was written for. So
does a block string, wherever its lines are indented.
-/
namespace SchemaScribe.Sdl

/-- The characters that a backslash and a letter stand for. -/
def simpleEscape? (c : Char) : Option Char :=
  if c = '"' ∨ c = '\\' ∨ c = '/' then some c
  else if c = 'b' then some '\x08'
  else if c = 't' then some '\t'
  else if c = 'n' then some '\n'
  else if c = 'f' then some '\x0c'
  else if c = 'r' then some '\r'
  else none

def hexNumber? (digits : List Char) : Option Nat :=
  digits.foldlM (fun n c => (Text.hexValue? c).map (16 * n + ·)) 0

def hexChar? (digits : List Char) : Option Char :=
  match hexNumber? digits with
  | some n => if n.isValidChar then some (Char.ofNat n) else none
  | none => none

/-- What is read when a text comes before what is read from the rest. -/
def withText (text : List Char) (read : Option (List Char × List Char)) :
    Option (List Char × List Char) :=
  read.map fun (more, rest) => (text ++ more, rest)

@[simp] theorem withText_some (text more rest : List Char) :
    withText text (some (more, rest)) = some (text ++ more, rest) := rfl

theorem withText_withText (text more : List Char) (read : Option (List Char × List Char)) :
    withText text (withText more read) = withText (text ++ more) read := by
  cases read <;> simp [withText]

/-- The text of a string and what follows it, from behind its first quote. -/
def scanString : List Char → Option (List Char × List Char)
  | [] => none
  | '"' :: rest => some ([], rest)
  | '\\' :: 'u' :: a :: b :: c :: d :: rest =>
    match hexChar? [a, b, c, d] with
    | some value => withText [value] (scanString rest)
    | none => none
  | '\\' :: c :: rest =>
    match simpleEscape? c with
    | some value => withText [value] (scanString rest)
    | none => none
  | c :: rest => if c = '\n' ∨ c = '\r' ∨ c = '\\' then none else withText [c] (scanString rest)

/-- The text of a block string and what follows it, from behind its first three quotes. -/
def scanBlock : List Char → Option (List Char × List Char)
  | [] => none
  | '\\' :: '"' :: '"' :: '"' :: rest => withText tripleQuote (scanBlock rest)
  | '"' :: '"' :: '"' :: rest => some ([], rest)
  | c :: rest => withText [c] (scanBlock rest)

/-! ## String literals -/

theorem hexValue?_upperHexDigit (n : Nat) :
    Text.hexValue? (Text.upperHexDigit n) = some (n % 16) := by
  have h : ∀ d < 16, Text.hexValue? (Nat.digitChar d).toUpper = some d := by decide
  exact h _ (Nat.mod_lt n (by omega))

theorem hexNumber?_hexDigits (n : Nat) (hn : n < 65536) :
    hexNumber? (Text.hexDigits Text.upperHexDigit 4 n) = some n := by
  simp only [Text.hexDigits, List.nil_append, List.cons_append, hexNumber?, List.foldlM_cons,
    List.foldlM_nil, hexValue?_upperHexDigit, Option.map_some, Option.bind_eq_bind, Option.bind_some,
    Option.pure_def, Option.some.injEq]
  omega

theorem hexChar?_hexDigits (c : Char) (hc : c.toNat < 65536) :
    hexChar? (Text.hexDigits Text.upperHexDigit 4 c.toNat) = some c := by
  have hv : c.toNat.isValidChar := c.valid
  simp only [hexChar?, hexNumber?_hexDigits _ hc, if_pos hv, Char.ofNat_toNat]

theorem scanString_literalChar (c : Char) (rest : List Char) :
    scanString (literalChar c ++ rest) = withText [c] (scanString rest) := by
  by_cases hq : c = '"'
  · subst c; simp [literalChar, scanString, simpleEscape?]
  by_cases hs : c = '\\'
  · subst c; simp [literalChar, scanString, simpleEscape?]
  by_cases hb : c = '\x08'
  · subst c; simp [literalChar, scanString, simpleEscape?]
  by_cases ht : c = '\t'
  · subst c; simp [literalChar, scanString, simpleEscape?]
  by_cases hn : c = '\n'
  · subst c; simp [literalChar, scanString, simpleEscape?]
  by_cases hf : c = '\x0c'
  · subst c; simp [literalChar, scanString, simpleEscape?]
  by_cases hr : c = '\r'
  · subst c; simp [literalChar, scanString, simpleEscape?]
  by_cases hc : c.toNat < 0x20 ∨ (0x7F ≤ c.toNat ∧ c.toNat < 0xA0)
  · have hchar := hexChar?_hexDigits c (by omega)
    simp only [literalChar, hq, hs, hb, ht, hn, hf, hr, hc, if_true, if_false]
    simp only [Text.hexDigits, List.nil_append, List.cons_append] at hchar ⊢
    simp [scanString, hchar]
  · simp [literalChar, hq, hs, hb, ht, hn, hf, hr, hc, scanString]

theorem scanString_literal (text rest : List Char) :
    scanString (text.flatMap literalChar ++ '"' :: rest) = some (text, rest) := by
  induction text with
  | nil => rfl
  | cons c text ih =>
    rw [List.flatMap_cons, List.append_assoc, scanString_literalChar, ih]
    rfl

/-! ## Block strings -/

/-- A text with an indentation behind every line feed. -/
def indentBreaks (indentation text : List Char) : List Char :=
  text.flatMap fun c => if c = '\n' then '\n' :: indentation else [c]

@[simp] theorem indentBreaks_nil (indentation : List Char) : indentBreaks indentation [] = [] := rfl

theorem indentBreaks_cons (indentation : List Char) (c : Char) (text : List Char) :
    indentBreaks indentation (c :: text) =
      (if c = '\n' then '\n' :: indentation else [c]) ++ indentBreaks indentation text := rfl

theorem indentBreaks_cons_of_ne (indentation text : List Char) {c : Char} (hc : c ≠ '\n') :
    indentBreaks indentation (c :: text) = c :: indentBreaks indentation text := by
  rw [indentBreaks_cons, if_neg hc, List.singleton_append]

theorem indentBreaks_append (indentation text more : List Char) :
    indentBreaks indentation (text ++ more) =
      indentBreaks indentation text ++ indentBreaks indentation more :=
  List.flatMap_append

def leadingQuotes : List Char → Nat
  | '"' :: rest => leadingQuotes rest + 1
  | _ => 0

theorem leadingQuotes_quote (rest : List Char) :
    leadingQuotes ('"' :: rest) = leadingQuotes rest + 1 := rfl

theorem leadingQuotes_of_ne {c : Char} (hc : c ≠ '"') (rest : List Char) :
    leadingQuotes (c :: rest) = 0 := by
  simp [leadingQuotes, hc]

/-- Of quotes of which there are no three in a row at most one follows the first. -/
theorem leadingQuotes_le_one {rest : List Char}
    (h : ∀ more : List Char, '"' = '"' → rest = '"' :: '"' :: more → False) :
    leadingQuotes rest ≤ 1 := by
  match rest with
  | [] => simp [leadingQuotes]
  | c :: rest =>
    by_cases hc : c = '"'
    · subst hc
      match rest with
      | [] => simp [leadingQuotes]
      | d :: rest =>
        by_cases hd : d = '"'
        · subst hd
          exact (h rest rfl rfl).elim
        · have hrest := leadingQuotes_of_ne hd rest
          rw [leadingQuotes_quote]
          omega
    · have hzero := leadingQuotes_of_ne hc rest
      omega

/-- A character that neither begins an escape nor ends the block belongs to the text. -/
theorem scanBlock_cons {c : Char} {rest : List Char} (hq : c = '"' → leadingQuotes rest < 2)
    (hs : c = '\\' → leadingQuotes rest < 3) :
    scanBlock (c :: rest) = withText [c] (scanBlock rest) := by
  rw [scanBlock]
  · rintro more hc rfl
    have h := hs hc
    simp only [leadingQuotes_quote] at h
    omega
  · rintro more hc rfl
    have h := hq hc
    simp only [leadingQuotes_quote] at h
    omega

/-- Escaping leaves at most two quotes at the start. -/
theorem leadingQuotes_escaped (indentation tail text : List Char)
    (ht : text = [] ∨ text.getLast? = some '"' → leadingQuotes tail = 0) :
    leadingQuotes (indentBreaks indentation (escapeTripleQuotes text) ++ tail) ≤ 2 ∧
      leadingQuotes (indentBreaks indentation (escapeTripleQuotes text) ++ tail) ≤
        leadingQuotes text := by
  fun_induction escapeTripleQuotes text with
  | case1 rest ih =>
    rw [indentBreaks_cons_of_ne _ _ (by decide), List.cons_append,
      leadingQuotes_of_ne (by decide)]
    omega
  | case2 c rest hc ih =>
    by_cases hq : c = '"'
    · subst hq
      have hrest := ih (by
        rintro (rfl | h)
        · exact ht (.inr rfl)
        · refine ht (.inr ?_)
          rw [List.getLast?_cons, h]
          rfl)
      have hle := leadingQuotes_le_one hc
      rw [indentBreaks_cons_of_ne _ _ (by decide), List.cons_append, leadingQuotes_quote,
        leadingQuotes_quote]
      omega
    · rw [indentBreaks_cons]
      split
      · rw [List.cons_append, List.cons_append, leadingQuotes_of_ne (by decide)]
        omega
      · rw [List.singleton_append, List.cons_append, leadingQuotes_of_ne hq]
        omega
  | case3 =>
    rw [indentBreaks_nil, List.nil_append, ht (.inl rfl)]
    omega

theorem scanBlock_append_of_plain {text : List Char} (h : ∀ c ∈ text, c ≠ '"' ∧ c ≠ '\\')
    (rest : List Char) : scanBlock (text ++ rest) = withText text (scanBlock rest) := by
  induction text with
  | nil => cases h : scanBlock rest <;> simp [withText, h]
  | cons c text ih =>
    have hc := h c (List.mem_cons_self ..)
    rw [List.cons_append, scanBlock_cons (fun e => absurd e hc.1) (fun e => absurd e hc.2),
      ih fun d hd => h d (List.mem_cons_of_mem _ hd), withText_withText]
    rfl

/-- What is written of a text inside a block string is read back, and its breaks come with the
indentation. Where the text ends in a quote or a backslash, no quote may follow at once. -/
theorem scanBlock_escaped {indentation : List Char} (hi : ∀ c ∈ indentation, c ≠ '"' ∧ c ≠ '\\')
    (text tail : List Char)
    (ht : text.getLast? = some '"' ∨ text.getLast? = some '\\' → leadingQuotes tail = 0) :
    scanBlock (indentBreaks indentation (escapeTripleQuotes text) ++ tail) =
      withText (indentBreaks indentation text) (scanBlock tail) := by
  fun_induction escapeTripleQuotes text with
  | case1 rest ih =>
    have hrest := ih fun h => ht (by
      cases rest with
      | nil => simp at h
      | cons c rest => simpa [List.getLast?_cons_cons] using h)
    simp only [indentBreaks_cons_of_ne indentation _ (show '\\' ≠ '\n' by decide),
      indentBreaks_cons_of_ne indentation _ (show '"' ≠ '\n' by decide), List.cons_append]
    rw [scanBlock, hrest, withText_withText]
    rfl
  | case2 c rest hc ih =>
    have hlast : ∀ d, rest.getLast? = some d → (c :: rest).getLast? = some d := by
      intro d h
      rw [List.getLast?_cons, h]
      rfl
    have hrest := ih fun h => ht (h.imp (hlast _) (hlast _))
    have hone : c = '"' ∨ c = '\\' → rest = [] → leadingQuotes tail = 0 := by
      rintro hq rfl
      exact ht (by simpa using hq)
    by_cases hn : c = '\n'
    · subst hn
      have hline : ∀ d ∈ '\n' :: indentation, d ≠ '"' ∧ d ≠ '\\' := by
        intro d hd
        rcases List.mem_cons.mp hd with rfl | hd
        · decide
        · exact hi d hd
      rw [indentBreaks_cons, indentBreaks_cons, if_pos rfl, List.append_assoc,
        scanBlock_append_of_plain hline, hrest, withText_withText]
    · rw [indentBreaks_cons_of_ne _ _ hn, indentBreaks_cons_of_ne _ _ hn, List.cons_append,
        scanBlock_cons, hrest, withText_withText]
      · rfl
      · rintro rfl
        -- The quotes that follow are those of the text unless it ends here.
        have h := leadingQuotes_escaped indentation tail rest fun h =>
          h.elim (hone (.inl rfl)) fun h => ht (.inl (hlast _ h))
        have hle := leadingQuotes_le_one hc
        omega
      · rintro rfl
        have h := leadingQuotes_escaped indentation tail rest fun h =>
          h.elim (hone (.inr rfl)) fun h => ht (.inl (hlast _ h))
        omega
  | case3 => cases h : scanBlock tail <;> simp [withText, h]

end SchemaScribe.Sdl
