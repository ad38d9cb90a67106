import SchemaScribe.Proofs.Sdl.Optional

/-! # Tokens

The tokens of the schema definition language. Blanks, line ends, commas and comments only stand
between tokens. The text of a value that is nothing but tokens is read on its own wherever a comma,
a parenthesis or a line feed follows it.
-/
namespace SchemaScribe.Sdl

/-- A number is kept as it is written, a string as the text that it says. -/
inductive Token where
  | mark (c : Char)
  | name (word : String)
  | number (digits : List Char)
  | text (value : List Char)
deriving DecidableEq, Repr

def isIgnored (c : Char) : Bool := [' ', '\t', '\n', '\r', ',', '\ufeff'].contains c

def isMark (c : Char) : Bool :=
  ['!', '$', '&', '(', ')', ':', '=', '@', '[', ']', '\x7b', '|', '\x7d'].contains c

def isNumberChar (c : Char) : Bool := isNameChar c || ['.', '+', '-'].contains c

/-- The token at the start of a text, and what follows it. -/
def token? : List Char → Option (Token × List Char)
  | [] => none
  | '"' :: '"' :: '"' :: rest => (scanBlock rest).map fun (value, more) => (.text value, more)
  | '"' :: rest => (scanString rest).map fun (value, more) => (.text value, more)
  | c :: rest =>
    if isNameStart c then
      some (.name (String.ofList (c :: rest.takeWhile isNameChar)), rest.dropWhile isNameChar)
    else if c.isDigit || c == '-' then
      some (.number (c :: rest.takeWhile isNumberChar), rest.dropWhile isNumberChar)
    else if isMark c then some (.mark c, rest)
    else none

theorem plain_of_blank {blank : List Char} (hblank : ∀ c ∈ blank, isIgnored c = true) :
    ∀ c ∈ blank, c ≠ '"' ∧ c ≠ '\\' := by
  intro c hc
  constructor <;> rintro rfl <;> exact absurd (hblank _ hc) (by decide)

/-! ## How far a token reaches -/

theorem withText_eq_some {text value more : List Char} {read : Option (List Char × List Char)}
    (h : withText text read = some (value, more)) :
    ∃ tail, read = some (tail, more) ∧ value = text ++ tail := by
  cases read with
  | none => exact absurd h (by simp [withText])
  | some result =>
    obtain ⟨tail, rest⟩ := result
    obtain ⟨hvalue, hrest⟩ := Prod.mk.inj (Option.some.inj h)
    exact ⟨tail, by rw [hrest], hvalue.symm⟩

theorem length_lt_of_scanString {text value more : List Char}
    (h : scanString text = some (value, more)) : more.length < text.length := by
  fun_induction scanString text generalizing value with
  | case1 | case4 | case6 | case7 => exact absurd h (by simp)
  | case2 rest =>
    obtain ⟨-, rfl⟩ := Prod.mk.inj (Option.some.inj h)
    exact Nat.lt_succ_self _
  | case3 a b c d rest e he ih | case5 c rest hu e he ih | case8 c rest hq hu hs hc ih =>
    obtain ⟨tail, htail, -⟩ := withText_eq_some h
    have hlt := ih htail
    simp only [List.length_cons]
    omega

theorem length_lt_of_scanBlock {text value more : List Char}
    (h : scanBlock text = some (value, more)) : more.length + 2 < text.length := by
  fun_induction scanBlock text generalizing value with
  | case1 => exact absurd h (by simp)
  | case3 rest =>
    obtain ⟨-, rfl⟩ := Prod.mk.inj (Option.some.inj h)
    simp only [List.length_cons]
    omega
  | case2 rest ih | case4 c rest hs hq ih =>
    obtain ⟨tail, htail, -⟩ := withText_eq_some h
    have hlt := ih htail
    simp only [List.length_cons]
    omega

/-- How a text can start with a token. -/
inductive StartsWith : List Char → Token → List Char → Prop
  | block {rest value more} : scanBlock rest = some (value, more) →
    StartsWith ('"' :: '"' :: '"' :: rest) (.text value) more
  | string {rest value more} : (∀ x, rest ≠ '"' :: '"' :: x) →
    scanString rest = some (value, more) → StartsWith ('"' :: rest) (.text value) more
  | name {c} (rest) : isNameStart c = true →
    StartsWith (c :: rest) (.name (String.ofList (c :: rest.takeWhile isNameChar)))
      (rest.dropWhile isNameChar)
  | number {c} (rest) : isNameStart c = false → (c.isDigit || c == '-') = true →
    StartsWith (c :: rest) (.number (c :: rest.takeWhile isNumberChar)) (rest.dropWhile isNumberChar)
  | mark {c} (rest) : isNameStart c = false → (c.isDigit || c == '-') = false → isMark c = true →
    StartsWith (c :: rest) (.mark c) rest

theorem StartsWith.of_token {text more : List Char} {t : Token} (h : token? text = some (t, more)) :
    StartsWith text t more := by
  unfold token? at h
  split at h
  · exact absurd h (by simp)
  · next rest =>
    obtain ⟨⟨value, tail⟩, hscan, heq⟩ := Option.map_eq_some_iff.mp h
    obtain ⟨rfl, rfl⟩ := Prod.mk.inj heq
    exact .block hscan
  · next rest hthree =>
    obtain ⟨⟨value, tail⟩, hscan, heq⟩ := Option.map_eq_some_iff.mp h
    obtain ⟨rfl, rfl⟩ := Prod.mk.inj heq
    exact .string (fun x hx => hthree x (by rw [hx])) hscan
  · next c rest _ _ =>
    split at h
    · next hstart =>
      obtain ⟨rfl, rfl⟩ := Prod.mk.inj (Option.some.inj h)
      exact .name rest hstart
    · next hstart =>
      split at h
      · next hnumber =>
        obtain ⟨rfl, rfl⟩ := Prod.mk.inj (Option.some.inj h)
        exact .number rest (by simpa using hstart) hnumber
      · next hnumber =>
        split at h
        · next hmark =>
          obtain ⟨rfl, rfl⟩ := Prod.mk.inj (Option.some.inj h)
          exact .mark rest (by simpa using hstart) (by simpa using hnumber) hmark
        · exact absurd h (by simp)

theorem ne_quote_of_start {c : Char} (h : isNameStart c = true ∨ (c.isDigit || c == '-') = true ∨
    isMark c = true) : c ≠ '"' := by
  rintro rfl
  revert h
  decide

theorem StartsWith.token {text more : List Char} {t : Token} (h : StartsWith text t more) :
    token? text = some (t, more) := by
  cases h with
  | block hscan => rw [token?, hscan]; rfl
  | string hthree hscan =>
    rw [token?, hscan]
    · rfl
    · exact fun x hx => hthree x hx
  | name rest hstart =>
    have hquote := ne_quote_of_start (.inl hstart)
    rw [token?, if_pos hstart]
    · exact fun x hc => absurd hc hquote
    · exact fun hc => absurd hc hquote
  | number rest hstart hnumber =>
    have hquote := ne_quote_of_start (.inr (.inl hnumber))
    rw [token?, if_neg (by simp [hstart]), if_pos hnumber]
    · exact fun x hc => absurd hc hquote
    · exact fun hc => absurd hc hquote
  | mark rest hstart hnumber hmark =>
    have hquote := ne_quote_of_start (.inr (.inr hmark))
    rw [token?, if_neg (by simp [hstart]), if_neg (by simp [hnumber]), if_pos hmark]
    · exact fun x hc => absurd hc hquote
    · exact fun hc => absurd hc hquote

theorem StartsWith.length_lt {text more : List Char} {t : Token} (h : StartsWith text t more) :
    more.length < text.length := by
  have hdrop : ∀ (p : Char → Bool) (c : Char) (rest : List Char),
      (rest.dropWhile p).length < (c :: rest).length := fun p c rest =>
    Nat.lt_succ_of_le (List.dropWhile_suffix p).length_le
  cases h with
  | block hscan =>
    have hlt := length_lt_of_scanBlock hscan
    simp only [List.length_cons]
    omega
  | string _ hscan =>
    have hlt := length_lt_of_scanString hscan
    simp only [List.length_cons]
    omega
  | name rest => exact hdrop isNameChar _ rest
  | number rest => exact hdrop isNumberChar _ rest
  | mark rest => exact Nat.lt_succ_self _

/-- No token starts with what stands between tokens. -/
theorem StartsWith.not_ignored {c : Char} {rest more : List Char} {t : Token}
    (h : StartsWith (c :: rest) t more) : isIgnored c = false ∧ c ≠ '#' := by
  have hfirst : c = '"' ∨ isNameStart c = true ∨ (c.isDigit || c == '-') = true ∨
      isMark c = true := by
    cases h with
    | block | string => exact .inl rfl
    | name _ hstart => exact .inr (.inl hstart)
    | number _ _ hnumber => exact .inr (.inr (.inl hnumber))
    | mark _ _ _ hmark => exact .inr (.inr (.inr hmark))
  constructor
  · rw [Bool.eq_false_iff]
    intro hignored
    simp only [isIgnored, List.contains_iff_mem, List.mem_cons, List.not_mem_nil,
      or_false] at hignored
    rcases hignored with rfl | rfl | rfl | rfl | rfl | rfl <;> exact absurd hfirst (by decide)
  · rintro rfl
    exact absurd hfirst (by decide)

theorem literalChar_begins (c : Char) (rest : List Char) :
    Begins (· ≠ '"') (literalChar c ++ rest) := by
  by_cases hc : c = '"'
  · subst hc
    exact ⟨'\\', _, by decide, rfl⟩
  · unfold literalChar
    repeat' split
    all_goals first | exact ⟨'\\', _, by decide, rfl⟩ | exact ⟨c, _, hc, rfl⟩

/-- No literal begins with three quotes, unless a quote follows the empty one. -/
theorem literal_ne_block (value : List Char) {r : List Char} (hr : Begins (· ≠ '"') r)
    (x : List Char) : value.flatMap literalChar ++ '"' :: r ≠ '"' :: '"' :: x := by
  intro hx
  cases value with
  | nil =>
    obtain ⟨-, rfl⟩ := List.cons.inj hx
    exact not_begins_cons (by simp) x hr
  | cons c value =>
    rw [List.flatMap_cons, List.append_assoc] at hx
    have hbegins := literalChar_begins c (value.flatMap literalChar ++ '"' :: r)
    rw [hx] at hbegins
    exact not_begins_cons (by simp) _ hbegins

/-- A string literal is one token wherever no quote follows it. -/
theorem StartsWith.literal (value : List Char) {r : List Char} (hr : Begins (· ≠ '"') r) :
    StartsWith ('"' :: (value.flatMap literalChar ++ '"' :: r)) (.text value) r :=
  .string (literal_ne_block value hr) (scanString_literal value r)

/-! ## Reading all tokens -/

/-- The tokens of a text, if it has nothing but tokens and what may stand between them. -/
def lex (text : List Char) : Option (List Token) :=
  match text with
  | [] => some []
  | c :: rest =>
    if isIgnored c then lex rest
    else if c = '#' then lex (rest.dropWhile (· != '\n'))
    else
      match _h : token? (c :: rest) with
      | none => none
      | some (t, more) => (lex more).map (t :: ·)
termination_by text.length
decreasing_by
  · exact Nat.lt_succ_self _
  · exact Nat.lt_succ_of_le (List.dropWhile_suffix _).length_le
  · exact (StartsWith.of_token _h).length_lt

theorem lex_ignored {c : Char} (hc : isIgnored c = true) (rest : List Char) :
    lex (c :: rest) = lex rest := by
  rw [lex, if_pos hc]

theorem StartsWith.lex {text more : List Char} {t : Token} (h : StartsWith text t more) :
    lex text = (lex more).map (t :: ·) := by
  cases text with
  | nil => exact absurd h.length_lt (Nat.not_lt_zero _)
  | cons c rest =>
    obtain ⟨hignored, hcomment⟩ := h.not_ignored
    rw [Sdl.lex, if_neg (by simp [hignored]), if_neg hcomment]
    split
    · next hnone => rw [h.token] at hnone; exact absurd hnone (by simp)
    · next t' more' hsome =>
      rw [h.token] at hsome
      obtain ⟨rfl, rfl⟩ := Prod.mk.inj (Option.some.inj hsome)
      rfl

/-! ## Tokens before more text -/

theorem scanString_append {text value more : List Char} (h : scanString text = some (value, more))
    (r : List Char) : scanString (text ++ r) = some (value, more ++ r) := by
  fun_induction scanString text generalizing value with
  | case1 | case4 | case6 | case7 => exact absurd h (by simp)
  | case2 rest =>
    obtain ⟨rfl, rfl⟩ := Prod.mk.inj (Option.some.inj h)
    rfl
  | case3 a b c d rest e he ih =>
    obtain ⟨tail, htail, rfl⟩ := withText_eq_some h
    simp only [List.cons_append, scanString, he, ih htail, withText_some]
  | case5 c rest hu e he ih =>
    obtain ⟨tail, htail, rfl⟩ := withText_eq_some h
    have hc : c ≠ 'u' := by
      rintro rfl
      exact absurd he (by simp [simpleEscape?])
    simp only [List.cons_append]
    rw [scanString, he]
    · rw [ih htail]
      rfl
    · exact fun a b d e x heq => absurd heq hc
  | case8 c rest hq hu hs hc ih =>
    obtain ⟨tail, htail, rfl⟩ := withText_eq_some h
    have hcs : c ≠ '\\' := fun heq => hc (.inr (.inr heq))
    rw [List.cons_append, scanString, if_neg hc, ih htail, withText_some]
    · exact fun heq => absurd heq hq
    · exact fun a b d e x heq => absurd heq hcs
    · exact fun d x heq => absurd heq hcs

theorem scanBlock_append {text value more : List Char} (h : scanBlock text = some (value, more))
    (r : List Char) : scanBlock (text ++ r) = some (value, more ++ r) := by
  fun_induction scanBlock text generalizing value with
  | case1 => exact absurd h (by simp)
  | case2 rest ih =>
    obtain ⟨tail, htail, rfl⟩ := withText_eq_some h
    simp only [List.cons_append, scanBlock, ih htail, withText_some]
  | case3 rest =>
    obtain ⟨rfl, rfl⟩ := Prod.mk.inj (Option.some.inj h)
    rfl
  | case4 c rest hs hq ih =>
    obtain ⟨tail, htail, rfl⟩ := withText_eq_some h
    -- the rest holds the last quotes, so what comes behind it does not matter here
    have hlength := length_lt_of_scanBlock htail
    rcases rest with _ | ⟨a, _ | ⟨b, _ | ⟨d, rest⟩⟩⟩
    case cons.cons.cons =>
      simp only [List.cons_append] at ih ⊢
      rw [scanBlock, ih htail, withText_some]
      · rfl
      · intro x hc heq
        simp only [List.cons.injEq] at heq
        obtain ⟨rfl, rfl, rfl, -⟩ := heq
        exact hs _ hc rfl
      · intro x hc heq
        simp only [List.cons.injEq] at heq
        obtain ⟨rfl, rfl, -⟩ := heq
        exact hq _ hc rfl
    all_goals
      simp only [List.length_cons, List.length_nil] at hlength
      omega

theorem ValueEnds.run {r : List Char} (hr : ValueEnds r) (p : Char → Bool)
    (hp : p ',' = false ∧ p ')' = false ∧ p '\n' = false) (rest : List Char) :
    (rest ++ r).takeWhile p = rest.takeWhile p ∧ (rest ++ r).dropWhile p = rest.dropWhile p ++ r := by
  have hhead : ∃ c more, p c = false ∧ r = c :: more := by
    obtain ⟨c, more, rfl | rfl | rfl, rfl⟩ := hr
    · exact ⟨_, _, hp.1, rfl⟩
    · exact ⟨_, _, hp.2.1, rfl⟩
    · exact ⟨_, _, hp.2.2, rfl⟩
  obtain ⟨c, more, hc, rfl⟩ := hhead
  induction rest with
  | nil => simp [hc]
  | cons d rest ih =>
    cases hd : p d with
    | true => simp [hd, ih.1, ih.2]
    | false => simp [hd]

/-- A token ends where it ended when a comma, a parenthesis or a line feed follows its text. -/
theorem StartsWith.append {text more : List Char} {t : Token} (h : StartsWith text t more)
    {r : List Char} (hr : ValueEnds r) : StartsWith (text ++ r) t (more ++ r) := by
  cases h with
  | block hscan => exact .block (scanBlock_append hscan r)
  | @string rest value more hthree hscan =>
    refine .string (fun x hx => ?_) (scanString_append hscan r)
    -- The two characters behind the first quote stand in the text or in what follows it.
    match rest with
    | [] => exact absurd hscan (by simp [scanString])
    | [a] =>
      have hr' : r = '"' :: x := (List.cons.inj hx).2
      rw [hr'] at hr
      exact not_begins_cons (by decide) x hr
    | a :: b :: rest =>
      obtain ⟨ha, hx⟩ := List.cons.inj hx
      exact hthree rest (by rw [ha, (List.cons.inj hx).1])
  | @name c rest hstart =>
    obtain ⟨htake, hdrop⟩ := hr.run isNameChar (by decide) rest
    have hname := StartsWith.name (rest ++ r) hstart
    rwa [htake, hdrop] at hname
  | @number c rest hstart hnumber =>
    obtain ⟨htake, hdrop⟩ := hr.run isNumberChar (by decide) rest
    have hnumber' := StartsWith.number (rest ++ r) hstart hnumber
    rwa [htake, hdrop] at hnumber'
  | mark rest hstart hnumber hmark => exact .mark _ hstart hnumber hmark

/-- Texts of tokens with nothing else between them than blanks, line ends and commas. -/
inductive Tokenized : List Char → List Token → Prop
  | nil : Tokenized [] []
  | ignored {c text tokens} : isIgnored c = true → Tokenized text tokens →
    Tokenized (c :: text) tokens
  | token {text t more tokens} : token? text = some (t, more) → Tokenized more tokens →
    Tokenized text (t :: tokens)

theorem Tokenized.lex_append {text : List Char} {tokens : List Token} (h : Tokenized text tokens)
    {r : List Char} (hr : ValueEnds r) : lex (text ++ r) = (lex r).map (tokens ++ ·) := by
  induction h with
  | nil => simp
  | ignored hc _ ih => rw [List.cons_append, lex_ignored hc, ih]
  | token htoken _ ih =>
    rw [((StartsWith.of_token htoken).append hr).lex, ih, Option.map_map]
    rfl

end SchemaScribe.Sdl
